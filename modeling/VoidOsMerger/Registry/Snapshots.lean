/-
  File:      VoidOsMerger/Registry/Snapshots.lean
  Subject:   THE SNAPSHOT RING OF THE REGISTRY (master/src/registry.c).

  `pool_tail` and the search for a slot are 32-bit numbers reduced modulo the ring size; an access
  outside the arrays is `none`. A handle is the address of a slot and lives until it is released.

  * `RingView` -- the arrays hold a ring of reference-counted slots (`Base/Ring.lean`);
    `acquire_view`, `release_view` -- the two functions are its `take` and `give`;
  * `ringInv_next` -- every operation keeps the counters equal to the live handles;
  * **`registry_ring`** -- over whole runs: counters, tail, when an acquire overwrites a held slot, and
    that at most four handles at a time keep their contents.
-/
import VoidOsMerger.Base.Ring
import VoidOsMerger.Registry.Refinement

namespace VoidOsMerger

/-! ## 1. The ring -/

/-- `REG_RING_SIZE` -/
def regRingSize : Nat := 4

instance : NeZero regRingSize := ⟨by decide⟩

/-- `pool`, `pool_tail` and `ref_counts` of a context. -/
structure RegistryRing where
  pool : Vector RegistrySnapshot regRingSize
  poolTail : UInt32
  refCounts : Vector UInt32 regRingSize
  deriving DecidableEq

/-- What `calloc` leaves. -/
def zeroRegistryRing : RegistryRing where
  pool := Vector.replicate regRingSize ⟨[], Nat.zero_le _, 0⟩
  poolTail := 0
  refCounts := Vector.replicate regRingSize 0

/-- `(slot + 1) % REG_RING_SIZE` -/
def nextSlot (slot : UInt32) : UInt32 := (slot + 1) % UInt32.ofNat regRingSize

/-- The loop of `vom_registry_acquire_snapshot`, with `k` rounds left. -/
def findSlot (refCounts : Vector UInt32 regRingSize) : Nat → UInt32 → Option UInt32
  | 0, slot => some slot
  | k + 1, slot =>
    refCounts[slot.toNat]?.bind fun count =>
      if count = 0 then some slot else findSlot refCounts k (nextSlot slot)

/-- `vom_registry_acquire_snapshot`: the ring, and the slot whose address is returned. -/
def vomRegistryAcquireSnapshot (state : RegistrySnapshot) (ring : RegistryRing) :
    Option (RegistryRing × Nat) :=
  (findSlot ring.refCounts regRingSize ring.poolTail).bind fun slot =>
    ring.refCounts[slot.toNat]?.map fun count =>
      ({ pool := ring.pool.setIfInBounds slot.toNat state
         poolTail := nextSlot slot
         refCounts := ring.refCounts.setIfInBounds slot.toNat (count + 1) }, slot.toNat)

/-- `vom_registry_release_snapshot` of the address of a slot; any other address is passed over. -/
def vomRegistryReleaseSnapshot (ring : RegistryRing) (snapshot : Nat) : RegistryRing :=
  match ring.refCounts[snapshot]? with
  | none => ring
  | some count =>
    if count > 0 then { ring with refCounts := ring.refCounts.setIfInBounds snapshot (count - 1) }
    else ring

/-! ## 2. A registry, its ring and the handles -/

/-- A handle that has not been released: where it points, and the state when it was acquired. -/
structure RegistryHandle where
  slot : Nat
  contents : RegistrySnapshot
  deriving DecidableEq

structure RegistryContext where
  state : RegistrySnapshot
  ring : RegistryRing
  live : List RegistryHandle
  deriving DecidableEq

inductive RingOp
  | call (o : RegistryOp)
  | acquire
  | release (handle : Nat)

/-- Any registry operation, an acquire, or the release of a live handle; the answer is the slot
    acquired. -/
def ringMachine : Machine RegistryContext RingOp (Option Nat) where
  step w
    | .call o => ({ w with state := registryMachine.next w.state o }, none)
    | .acquire =>
      match vomRegistryAcquireSnapshot w.state w.ring with
      | none => (w, none)
      | some (ring, slot) =>
        ({ w with ring := ring, live := w.live ++ [{ slot := slot, contents := w.state }] }, some slot)
    | .release k =>
      match w.live[k]? with
      | none => (w, none)
      | some h =>
        ({ w with ring := vomRegistryReleaseSnapshot w.ring h.slot, live := w.live.eraseIdx k }, none)

def newRegistryContext : RegistryContext := ⟨vomRegistryCreate, zeroRegistryRing, []⟩

/-- Every live handle reads what it was acquired with. -/
def HandlesIntact (w : RegistryContext) : Prop :=
  ∀ h ∈ w.live, w.ring.pool[h.slot]? = some h.contents

/-- After the operation there are fewer than `2 ^ 32` live handles. -/
def FewHandles (w : RegistryContext) (o : RingOp) : Prop :=
  (ringMachine.next w o).live.length < 2 ^ 32

/-! ## 3. The arrays as a ring of slots -/

/-- The arrays and the tail hold the ring `r`. -/
structure RingView (ring : RegistryRing) (r : RefRing regRingSize RegistrySnapshot) : Prop where
  pool : ∀ i : Fin regRingSize, ring.pool[i.val]? = some (r.pool i)
  refCounts : ∀ i : Fin regRingSize, ring.refCounts[i.val]? = some (r.refCounts i)
  tail : ring.poolTail.toNat = r.tail.val

theorem nextSlot_val {slot : UInt32} {i : Fin regRingSize} (h : slot.toNat = i.val) :
    (nextSlot slot).toNat = (i + 1).val := by
  have hi : i.val < 4 := i.isLt
  have hsize : (UInt32.ofNat regRingSize).toNat = 4 := rfl
  have hone : (1 : UInt32).toNat = 1 := rfl
  have hnext : (i + 1).val = (i.val + 1) % 4 := Fin.val_add i 1
  rw [nextSlot, UInt32.toNat_mod, UInt32.toNat_add, h, hsize, hone, hnext]
  omega

/-- The loop is the search of the ring. -/
theorem findSlot_view {refCounts : Vector UInt32 regRingSize} {counts : Fin regRingSize → UInt32}
    (hc : ∀ i : Fin regRingSize, refCounts[i.val]? = some (counts i)) :
    ∀ (k : Nat) {slot : UInt32} {i : Fin regRingSize}, slot.toNat = i.val →
      ∃ found, findSlot refCounts k slot = some found ∧
        found.toNat = (RefRing.probe counts k i).val
  | 0, slot, _, h => ⟨slot, rfl, h⟩
  | k + 1, slot, i, h => by
      unfold findSlot RefRing.probe
      rw [h, hc i, Option.bind_some]
      by_cases hzero : counts i = 0
      · rw [if_pos hzero, hzero, if_neg (by decide)]
        exact ⟨slot, rfl, h⟩
      · rw [if_neg hzero, if_pos (UInt32.pos_iff_ne_zero.mpr hzero)]
        exact findSlot_view hc k (nextSlot_val h)

/-- An array written at a slot. -/
theorem view_set {α : Type} {xs : Vector α regRingSize} {f : Fin regRingSize → α}
    (h : ∀ i : Fin regRingSize, xs[i.val]? = some (f i)) (j : Fin regRingSize) (x : α)
    (i : Fin regRingSize) :
    (xs.setIfInBounds j.val x)[i.val]? = some (Function.update f j x i) := by
  rw [Vector.getElem?_setIfInBounds]
  by_cases hij : i = j
  · rw [hij, if_pos rfl, if_pos j.isLt, Function.update_self]
  · rw [if_neg fun e => hij (Fin.ext e.symm), Function.update_of_ne hij, h i]

section View

variable {ring : RegistryRing} {r : RefRing regRingSize RegistrySnapshot}

/-- **An acquire takes a slot of the ring**, within the arrays. -/
theorem acquire_view (h : RingView ring r) (state : RegistrySnapshot) :
    ∃ ring', vomRegistryAcquireSnapshot state ring = some (ring', r.target.val) ∧
      RingView ring' (r.take state) ∧
      ring'.pool = ring.pool.setIfInBounds r.target.val state := by
  obtain ⟨slot, hslot, hval⟩ := findSlot_view h.refCounts regRingSize h.tail
  have hval : slot.toNat = r.target.val := hval
  unfold vomRegistryAcquireSnapshot
  rw [hslot, Option.bind_some, hval, h.refCounts r.target]
  refine ⟨_, rfl, ⟨view_set h.pool r.target state, view_set h.refCounts r.target _, ?_⟩, rfl⟩
  exact nextSlot_val hval

/-- **A release gives a slot back.** -/
theorem release_view (h : RingView ring r) (i : Fin regRingSize) :
    RingView (vomRegistryReleaseSnapshot ring i.val) (r.give i) ∧
      (vomRegistryReleaseSnapshot ring i.val).pool = ring.pool := by
  unfold vomRegistryReleaseSnapshot RefRing.give
  rw [h.refCounts i]
  dsimp only
  split
  · exact ⟨⟨h.pool, view_set h.refCounts i _, h.tail⟩, rfl⟩
  · exact ⟨h, rfl⟩

end View

/-! ## 4. Counters and handles -/

/-- The ring, and the slots of the live handles as its holders. -/
structure Holds (w : RegistryContext) (r : RefRing regRingSize RegistrySnapshot)
    (held : List (Fin regRingSize)) : Prop where
  view : RingView w.ring r
  counted : r.Counted held
  slots : w.live.map (·.slot) = held.map Fin.val

def RingInv (w : RegistryContext) : Prop := ∃ r held, Holds w r held

section Holders

variable {w : RegistryContext} {r : RefRing regRingSize RegistrySnapshot}
  {held : List (Fin regRingSize)}

theorem Holds.length (h : Holds w r held) : w.live.length = held.length := by
  have hlen := congrArg List.length h.slots
  rwa [List.length_map, List.length_map] at hlen

/-- A slot is held when a live handle points to it. -/
theorem Holds.mem_iff (h : Holds w r held) (i : Fin regRingSize) :
    (∃ g ∈ w.live, g.slot = i.val) ↔ i ∈ held := by
  rw [← List.mem_map, h.slots]
  exact List.mem_map_of_injective Fin.val_injective

theorem Holds.mem_iff_counted (h : Holds w r held) (i : Fin regRingSize) :
    i ∈ held ↔ r.refCounts i ≠ 0 :=
  ⟨fun hi hzero => h.counted.not_held hzero hi, h.counted.held_of_pos⟩

theorem Holds.count (h : Holds w r held) (i : Fin regRingSize) :
    (r.refCounts i).toNat = (w.live.map (·.slot)).count i.val := by
  rw [h.counted i, h.slots, List.count_map_of_injective held Fin.val Fin.val_injective]

/-- What an acquire makes of the world. -/
theorem next_acquire_ring (h : Holds w r held) :
    ∃ ring', ringMachine.next w .acquire =
        { w with ring := ring', live := w.live ++ [⟨r.target.val, w.state⟩] } ∧
      RingView ring' (r.take w.state) ∧
      ring'.pool = w.ring.pool.setIfInBounds r.target.val w.state := by
  obtain ⟨ring', hacq, hview, hpool⟩ := acquire_view h.view w.state
  refine ⟨ring', ?_, hview, hpool⟩
  unfold Machine.next ringMachine
  dsimp only
  rw [hacq]

theorem acquire_holds (h : Holds w r held) (hfew : FewHandles w .acquire) :
    Holds (ringMachine.next w .acquire) (r.take w.state) (held ++ [r.target]) := by
  obtain ⟨ring', hnext, hview, -⟩ := next_acquire_ring h
  have hroom : held.length < 2 ^ 32 - 1 := by
    unfold FewHandles at hfew
    rw [hnext, List.length_append, List.length_singleton, h.length] at hfew
    omega
  rw [hnext]
  refine ⟨hview, (h.counted.take w.state hroom).perm (List.perm_append_singleton _ _).symm, ?_⟩
  rw [List.map_append, List.map_append, h.slots]
  rfl

/-- A live handle and the holder it is. -/
theorem Holds.holder (h : Holds w r held) {k : Nat} {g : RegistryHandle} (hk : w.live[k]? = some g) :
    ∃ i, held[k]? = some i ∧ g.slot = i.val := by
  have hget := congrArg (fun l => l[k]?) h.slots
  simp only [List.getElem?_map] at hget
  rw [hk, Option.map_some] at hget
  obtain ⟨i, hi, hval⟩ := Option.map_eq_some_iff.mp hget.symm
  exact ⟨i, hi, hval.symm⟩

theorem next_release_ring {k : Nat} {g : RegistryHandle} (hk : w.live[k]? = some g) :
    ringMachine.next w (.release k) =
      { w with ring := vomRegistryReleaseSnapshot w.ring g.slot, live := w.live.eraseIdx k } := by
  unfold Machine.next ringMachine
  dsimp only
  rw [hk]

theorem release_holds (h : Holds w r held) {k : Nat} {g : RegistryHandle} {i : Fin regRingSize}
    (hk : w.live[k]? = some g) (hi : held[k]? = some i) (hslot : g.slot = i.val) :
    Holds (ringMachine.next w (.release k)) (r.give i) (held.eraseIdx k) := by
  obtain ⟨hlt, rfl⟩ := List.getElem?_eq_some_iff.mp hi
  have hcounted : r.Counted (held[k] :: held.eraseIdx k) :=
    h.counted.perm (List.getElem_cons_eraseIdx_perm hlt).symm
  rw [next_release_ring hk, hslot]
  refine ⟨(release_view h.view held[k]).1, hcounted.give, ?_⟩
  rw [← List.eraseIdx_map, ← List.eraseIdx_map, h.slots]

end Holders

theorem ringInv_start : RingInv newRegistryContext := by
  refine ⟨⟨fun _ => ⟨[], Nat.zero_le _, 0⟩, fun _ => 0, 0⟩, [], ⟨fun i => ?_, fun i => ?_, rfl⟩,
    fun _ => rfl, rfl⟩
  · exact Vector.getElem?_replicate.trans (if_pos i.isLt)
  · exact Vector.getElem?_replicate.trans (if_pos i.isLt)

/-- **One operation.** -/
theorem ringInv_next (w : RegistryContext) (o : RingOp) (h : RingInv w) (hfew : FewHandles w o) :
    RingInv (ringMachine.next w o) := by
  obtain ⟨r, held, h⟩ := h
  cases o with
  | call o => exact ⟨r, held, h.view, h.counted, h.slots⟩
  | acquire => exact ⟨_, _, acquire_holds h hfew⟩
  | release k =>
    cases hk : w.live[k]? with
    | none =>
      have hsame : ringMachine.next w (.release k) = w := by
        unfold Machine.next ringMachine
        dsimp only
        rw [hk]
      rw [hsame]
      exact ⟨r, held, h⟩
    | some g =>
      obtain ⟨i, hi, hslot⟩ := h.holder hk
      exact ⟨_, _, release_holds h hk hi hslot⟩

/-! ## 5. What handles read -/

/-- An acquire of a free slot leaves the other handles alone. -/
theorem acquire_intact {w : RegistryContext} {r : RefRing regRingSize RegistrySnapshot}
    {held : List (Fin regRingSize)} (h : Holds w r held) (hw : HandlesIntact w)
    (hfree : r.refCounts r.target = 0) : HandlesIntact (ringMachine.next w .acquire) := by
  obtain ⟨ring', hnext, -, hpool⟩ := next_acquire_ring h
  rw [hnext]
  intro g hg
  show ring'.pool[g.slot]? = some g.contents
  rw [hpool, Vector.getElem?_setIfInBounds]
  rcases List.mem_append.mp hg with hg | hg
  · have hne : r.target.val ≠ g.slot := fun e =>
      h.counted.not_held hfree ((h.mem_iff r.target).mp ⟨g, hg, e.symm⟩)
    rw [if_neg hne]
    exact hw g hg
  · rw [List.mem_singleton.mp hg, if_pos rfl, if_pos r.target.isLt]

/-- One operation that leaves at most four handles. -/
theorem intact_next (w : RegistryContext) (o : RingOp) (h : RingInv w ∧ HandlesIntact w)
    (hok : FewHandles w o ∧ (ringMachine.next w o).live.length ≤ regRingSize) :
    RingInv (ringMachine.next w o) ∧ HandlesIntact (ringMachine.next w o) := by
  refine ⟨ringInv_next w o h.1 hok.1, ?_⟩
  obtain ⟨⟨r, held, hr⟩, hw⟩ := h
  cases o with
  | call o => exact hw
  | acquire =>
    obtain ⟨ring', hnext, -⟩ := next_acquire_ring hr
    have hlen := hok.2
    rw [hnext, List.length_append, List.length_singleton, hr.length] at hlen
    exact acquire_intact hr hw (hr.counted.target_free hlen)
  | release k =>
    cases hk : w.live[k]? with
    | none =>
      unfold Machine.next ringMachine
      dsimp only
      rw [hk]
      exact hw
    | some g =>
      obtain ⟨i, -, hslot⟩ := hr.holder hk
      rw [next_release_ring hk, hslot]
      intro g' hg'
      show (vomRegistryReleaseSnapshot w.ring i.val).pool[g'.slot]? = _
      rw [(release_view hr.view i).2]
      exact hw g' (List.mem_of_mem_eraseIdx hg')

/-! ## 6. Whole runs -/

/-- **The snapshot ring.** In every run with fewer than `2 ^ 32` handles at a time, each released once
    at most:
    * a counter is the number of live handles to its slot, and the tail is a slot;
    * an acquire stays within the arrays and overwrites the slot it returns, which a live handle
      points to exactly when one points to every slot;
    * with at most four handles at any time, every live handle reads the state it was acquired
      with. -/
theorem registry_ring (ops : List RingOp)
    (hfew : ringMachine.Legal FewHandles newRegistryContext ops) :
    let w := ringMachine.run newRegistryContext ops
    (∀ i < regRingSize, ∃ count, w.ring.refCounts[i]? = some count ∧
      count.toNat = (w.live.map (·.slot)).count i) ∧
    w.ring.poolTail.toNat < regRingSize ∧
    (∃ ring' slot, vomRegistryAcquireSnapshot w.state w.ring = some (ring', slot) ∧
      ring'.pool = w.ring.pool.setIfInBounds slot w.state ∧
      ((∃ h ∈ w.live, h.slot = slot) ↔ ∀ i < regRingSize, ∃ h ∈ w.live, h.slot = i)) ∧
    ((∀ pre, pre <+: ops →
        (ringMachine.run newRegistryContext pre).live.length ≤ regRingSize) →
      HandlesIntact w) := by
  intro w
  obtain ⟨r, held, h⟩ : RingInv w := ringMachine.invariant RingInv ringInv_next ringInv_start hfew
  refine ⟨fun i hi => ?_, ?_, ?_, fun hfour => ?_⟩
  · exact ⟨r.refCounts ⟨i, hi⟩, h.view.refCounts ⟨i, hi⟩, h.count ⟨i, hi⟩⟩
  · rw [h.view.tail]
    exact r.tail.isLt
  · obtain ⟨ring', hacq, -, hpool⟩ := acquire_view h.view w.state
    refine ⟨ring', r.target.val, hacq, hpool, ?_⟩
    rw [h.mem_iff, h.mem_iff_counted]
    constructor
    · intro hused i hi
      refine (h.mem_iff ⟨i, hi⟩).mpr ((h.mem_iff_counted ⟨i, hi⟩).mpr fun hzero => ?_)
      exact hused (r.exists_free_iff.mp ⟨⟨i, hi⟩, hzero⟩)
    · intro hall
      exact (h.mem_iff_counted _).mp ((h.mem_iff _).mp (hall r.target.val r.target.isLt))
  · have hlegal :=
      ((ringMachine.prefix_iff_legal (P := fun w => w.live.length ≤ regRingSize)).mp hfour).2
    have hintact : HandlesIntact newRegistryContext := fun g hg => absurd hg List.not_mem_nil
    exact (ringMachine.invariant (fun w => RingInv w ∧ HandlesIntact w) intact_next
      ⟨ringInv_start, hintact⟩ (hfew.and _ hlegal)).2

/-- Two snapshots with a join between them, and the first one released. -/
def twoSnapshots : List RingOp :=
  [.acquire, .call (.join (CStr.upTo [97]) (CStr.upTo [117]) sampleCapabilities 10), .acquire,
    .release 0]

theorem registry_ring_twoSnapshots :
    ringMachine.Legal FewHandles newRegistryContext twoSnapshots ∧
      (ringMachine.run newRegistryContext twoSnapshots).ring.poolTail.toNat < regRingSize := by
  have h : ringMachine.Legal FewHandles newRegistryContext twoSnapshots := by
    refine ⟨?_, ?_, ?_, ?_, trivial⟩ <;> (show _ < _; decide +kernel)
  exact ⟨h, (registry_ring twoSnapshots h).2.1⟩

end VoidOsMerger
