/-
  File:      VoidOsMerger/ClusterState/Snapshots.lean
  Subject:   SNAPSHOTS HANDED OUT BY THE CLUSTER STATE (master/src/cluster_state.c).

  A snapshot is a copy of the master state in a ring of four slots; a handle is the address of a slot.
  The search for an unreferenced slot gives up after one turn and then overwrites the slot at
  `pool_tail_idx`, whoever holds it.

  * `snapshotMachine` -- the operations of the cluster state with acquires and releases; `live` are
    the handles not yet released, so that no run releases a handle twice;
  * **`snapshots_immutable_iff`** -- the handles of a run keep reading what they were acquired with
    exactly when each acquire finds an unreferenced slot, or overwrites a copy of the same state.
-/
import VoidOsMerger.ClusterState.Model
import VoidOsMerger.Base.Ring
import Mathlib.Data.List.Perm.Basic

namespace VoidOsMerger

/-! ## 1. The ring -/

/-- `SNAPSHOT_RING_SIZE` -/
def snapshotRingSize : Nat := 4

instance : NeZero snapshotRingSize := ⟨by decide⟩

/-- `snapshot_pool`, `snapshot_ref_counts` and `pool_tail_idx` of a context. -/
abbrev SnapshotRing := RefRing snapshotRingSize ClusterStateSnapshot

/-- What `calloc` leaves of a record. -/
def zeroSnapshot : ClusterStateSnapshot where
  clusterUuid := Vector.replicate uuidStrMax 0
  masterEpoch := 0
  stateGenerationVersion := 0
  globalStatus := .value .boostrap
  activeWorkers := Vector.replicate clusterMaxWorkers zeroWorker
  totalRegisteredWorkers := 0
  activeLeases := Vector.replicate clusterMaxActiveLeases (zeroLease 0)
  totalActiveLeases := 0
  metrics := zeroMetrics

/-- The ring of a new context. -/
def emptyRing : SnapshotRing where
  pool := fun _ => zeroSnapshot
  refCounts := fun _ => 0
  tail := 0

/-- `cluster_state_acquire_snapshot`; the handle is the slot. -/
def clusterStateAcquireSnapshot (masterState : ClusterStateSnapshot) (ring : SnapshotRing) :
    SnapshotRing × Fin snapshotRingSize :=
  (ring.take masterState, ring.target)

/-- `cluster_state_release_snapshot` of the handle to a slot. -/
def clusterStateReleaseSnapshot (ring : SnapshotRing) (slot : Fin snapshotRingSize) : SnapshotRing :=
  ring.give slot

/-! ## 2. Contexts, their rings and the handles -/

/-- A handle that has not been released: whose it is, where it points, and the master state when it
    was acquired. -/
structure SnapshotHandle where
  ctx : Nat
  slot : Fin snapshotRingSize
  contents : ClusterStateSnapshot

structure SnapshotWorld where
  world : ClusterWorld
  rings : Nat → SnapshotRing
  live : List SnapshotHandle

inductive SnapshotOp
  | state (op : ClusterOp)
  | acquire (ctx : Nat)
  | release (handle : Nat)

/-- Any cluster operation, an acquire on a context, or the release of one of the handles that are
    live, to the context it came from. -/
def snapshotMachine : Machine SnapshotWorld SnapshotOp (Option (Fin snapshotRingSize)) where
  step w
    | .state op => ({ w with world := clusterMachine.next w.world op }, none)
    | .acquire i =>
      match w.world.contexts[i]? with
      | none => (w, none)
      | some ctx =>
        let r := clusterStateAcquireSnapshot ctx.masterState (w.rings i)
        ({ w with
            rings := Function.update w.rings i r.1
            live := w.live ++ [{ ctx := i, slot := r.2, contents := ctx.masterState }] }, some r.2)
    | .release k =>
      match w.live[k]? with
      | none => (w, none)
      | some h =>
        ({ w with
            rings := Function.update w.rings h.ctx (clusterStateReleaseSnapshot (w.rings h.ctx) h.slot)
            live := w.live.eraseIdx k }, none)

def emptySnapshotWorld : SnapshotWorld where
  world := emptyWorld
  rings := fun _ => emptyRing
  live := []

/-- The contents behind a handle. -/
def SnapshotWorld.read (w : SnapshotWorld) (h : SnapshotHandle) : ClusterStateSnapshot :=
  (w.rings h.ctx).pool h.slot

/-- Every live handle reads what it was acquired with. -/
def Intact (w : SnapshotWorld) : Prop := ∀ h ∈ w.live, w.read h = h.contents

/-! ## 3. What keeps handles intact -/

/-- The slots of a context's ring that are held, one entry for each live handle. -/
def SnapshotWorld.held (w : SnapshotWorld) (i : Nat) : List (Fin snapshotRingSize) :=
  (w.live.filter fun h => h.ctx == i).map (·.slot)

/-- The live handles to a context's ring are few enough for a 32-bit counter. -/
def CountersHold (w : SnapshotWorld) : SnapshotOp → Prop
  | .acquire i => (w.held i).length < 2 ^ 32 - 1
  | _ => True

/-- An acquire finds an unreferenced slot, or the slot at `pool_tail_idx` is a copy of the present
    state. -/
def FreeOrSame (w : SnapshotWorld) : SnapshotOp → Prop
  | .acquire i => ∀ ctx, w.world.contexts[i]? = some ctx →
      (∃ slot, (w.rings i).refCounts slot = 0) ∨ (w.rings i).pool (w.rings i).tail = ctx.masterState
  | _ => True

structure HandlesInv (w : SnapshotWorld) : Prop where
  intact : Intact w
  counted : ∀ i, (w.rings i).Counted (w.held i)

/-- A held slot has its handle. -/
theorem mem_held {w : SnapshotWorld} {i : Nat} {slot : Fin snapshotRingSize} :
    slot ∈ w.held i ↔ ∃ h ∈ w.live, h.ctx = i ∧ h.slot = slot := by
  simp [SnapshotWorld.held, and_assoc]

section Acquire

variable {w : SnapshotWorld} {i : Nat} {ctx : ClusterStateContext}

theorem next_acquire (hctx : w.world.contexts[i]? = some ctx) :
    snapshotMachine.next w (.acquire i) =
      { w with
        rings := Function.update w.rings i ((w.rings i).take ctx.masterState)
        live := w.live ++ [⟨i, (w.rings i).target, ctx.masterState⟩] } := by
  simp [Machine.next, snapshotMachine, hctx, clusterStateAcquireSnapshot]

/-- A handle after an acquire: the target slot of the ring is overwritten, everything else stays. -/
theorem read_acquire (hctx : w.world.contexts[i]? = some ctx) (h : SnapshotHandle) :
    (snapshotMachine.next w (.acquire i)).read h =
      if h.ctx = i ∧ h.slot = (w.rings i).target then ctx.masterState else w.read h := by
  rw [next_acquire hctx]
  unfold SnapshotWorld.read
  dsimp only
  by_cases hi : h.ctx = i
  · subst hi
    rw [Function.update_self]
    by_cases hslot : h.slot = (w.rings h.ctx).target
    · rw [if_pos ⟨rfl, hslot⟩, hslot]
      exact Function.update_self ..
    · rw [if_neg fun hc => hslot hc.2]
      exact Function.update_of_ne hslot ..
  · rw [Function.update_of_ne hi, if_neg fun hc => hi hc.1]

/-- **An acquire leaves the handles intact exactly when the slot it overwrites was free, or held the
    same state.** -/
theorem acquire_intact_iff (hw : HandlesInv w) (hctx : w.world.contexts[i]? = some ctx) :
    Intact (snapshotMachine.next w (.acquire i)) ↔
      ((∃ slot, (w.rings i).refCounts slot = 0) ∨
        (w.rings i).pool (w.rings i).tail = ctx.masterState) := by
  have hlive : (snapshotMachine.next w (.acquire i)).live =
      w.live ++ [⟨i, (w.rings i).target, ctx.masterState⟩] := by rw [next_acquire hctx]
  constructor
  · intro hintact
    rcases (w.rings i).take_cases with hfree | ⟨htarget, hfull⟩
    · exact Or.inl ⟨_, hfree⟩
    · -- the ring is full, so somebody holds the slot at the tail
      obtain ⟨h, hh, hi, hslot⟩ := mem_held.mp ((hw.counted i).held_of_pos (hfull (w.rings i).tail))
      have hnew := hintact h (hlive ▸ List.mem_append_left _ hh)
      rw [read_acquire hctx, if_pos ⟨hi, hslot.trans htarget.symm⟩, ← hw.intact h hh] at hnew
      right
      rw [hnew, SnapshotWorld.read, hi, hslot]
  · intro hcond h hh
    rw [hlive, List.mem_append, List.mem_singleton] at hh
    rw [read_acquire hctx]
    rcases hh with hh | rfl
    · split
      · rename_i hhit
        have hheld : (w.rings i).target ∈ w.held i := mem_held.mpr ⟨h, hh, hhit⟩
        have hused : (w.rings i).refCounts (w.rings i).target ≠ 0 :=
          fun h₀ => (hw.counted i).not_held h₀ hheld
        rcases hcond with hfree | hsame
        · exact absurd ((w.rings i).exists_free_iff.mp hfree) hused
        · obtain ⟨htail, _⟩ := (w.rings i).take_cases.resolve_left hused
          rw [← hw.intact h hh, SnapshotWorld.read, hhit.1, hhit.2, htail, hsame]
      · exact hw.intact h hh
    · rw [if_pos ⟨rfl, rfl⟩]

theorem acquire_counted (hw : HandlesInv w) (hctx : w.world.contexts[i]? = some ctx)
    (hroom : (w.held i).length < 2 ^ 32 - 1) (j : Nat) :
    ((snapshotMachine.next w (.acquire i)).rings j).Counted
      ((snapshotMachine.next w (.acquire i)).held j) := by
  rw [next_acquire hctx]
  unfold SnapshotWorld.held
  dsimp only
  rw [List.filter_append, List.map_append]
  by_cases hj : j = i
  · subst hj
    rw [Function.update_self, List.filter_cons_of_pos (by simp)]
    exact ((hw.counted j).take _ hroom).perm (List.perm_append_singleton _ _).symm
  · rw [Function.update_of_ne hj, List.filter_cons_of_neg (by simpa using Ne.symm hj)]
    rw [List.filter_nil, List.map_nil, List.append_nil]
    exact hw.counted j

end Acquire

theorem release_inv {w : SnapshotWorld} (hw : HandlesInv w) (k : Nat) :
    HandlesInv (snapshotMachine.next w (.release k)) := by
  cases hk : w.live[k]? with
  | none => simpa [Machine.next, snapshotMachine, hk] using hw
  | some h =>
    have hnext : snapshotMachine.next w (.release k) =
        { w with
          rings := Function.update w.rings h.ctx ((w.rings h.ctx).give h.slot)
          live := w.live.eraseIdx k } := by
      simp [Machine.next, snapshotMachine, hk, clusterStateReleaseSnapshot]
    obtain ⟨hlt, rfl⟩ := List.getElem?_eq_some_iff.mp hk
    have hperm := List.getElem_cons_eraseIdx_perm hlt
    rw [hnext]
    refine ⟨fun g hg => ?_, fun j => ?_⟩
    · have hpool : (Function.update w.rings w.live[k].ctx
          ((w.rings w.live[k].ctx).give w.live[k].slot) g.ctx).pool = (w.rings g.ctx).pool := by
        by_cases hi : g.ctx = w.live[k].ctx
        · rw [hi, Function.update_self, RefRing.give_pool]
        · rw [Function.update_of_ne hi]
      unfold SnapshotWorld.read
      rw [hpool]
      exact hw.intact g (hperm.subset (List.mem_cons_of_mem _ hg))
    · have hheld : (w.rings j).Counted
          (((w.live[k] :: w.live.eraseIdx k).filter fun h => h.ctx == j).map (·.slot)) :=
        (hw.counted j).perm ((hperm.symm.filter _).map _)
      unfold SnapshotWorld.held
      dsimp only
      by_cases hj : j = w.live[k].ctx
      · subst hj
        rw [Function.update_self]
        rw [List.filter_cons_of_pos (by simp), List.map_cons] at hheld
        exact hheld.give
      · rw [Function.update_of_ne hj]
        rwa [List.filter_cons_of_neg (by simpa using Ne.symm hj)] at hheld

/-- One operation keeps the handles intact exactly under the condition, and then the invariant. -/
theorem snapshotStep_spec {w : SnapshotWorld} (hw : HandlesInv w) {o : SnapshotOp}
    (hcount : CountersHold w o) :
    (Intact (snapshotMachine.next w o) ↔ FreeOrSame w o) ∧
    (Intact (snapshotMachine.next w o) → HandlesInv (snapshotMachine.next w o)) := by
  cases o with
  | state op => exact ⟨iff_of_true hw.intact trivial, fun _ => ⟨hw.intact, hw.counted⟩⟩
  | release k =>
    have h := release_inv hw k
    exact ⟨iff_of_true h.intact trivial, fun _ => h⟩
  | acquire i =>
    cases hctx : w.world.contexts[i]? with
    | none =>
      have hnext : snapshotMachine.next w (.acquire i) = w := by
        simp [Machine.next, snapshotMachine, hctx]
      rw [hnext]
      refine ⟨iff_of_true hw.intact fun ctx h => ?_, fun _ => hw⟩
      rw [hctx] at h
      cases h
    | some ctx =>
      refine ⟨(acquire_intact_iff hw hctx).trans ⟨fun h c hc => ?_, fun h => h ctx hctx⟩,
        fun h => ⟨h, acquire_counted hw hctx hcount⟩⟩
      obtain rfl : ctx = c := Option.some.inj (hctx.symm.trans hc)
      exact h

/-- **When snapshots are immutable.** In a run whose handles never outgrow the 32-bit counters, every
    handle reads, until it is released, the master state it was acquired with exactly when each
    acquire finds an unreferenced slot or overwrites a copy of the present state. -/
theorem snapshots_immutable_iff (ops : List SnapshotOp)
    (hcount : snapshotMachine.Legal CountersHold emptySnapshotWorld ops) :
    (∀ pre, pre <+: ops → Intact (snapshotMachine.run emptySnapshotWorld pre)) ↔
      snapshotMachine.Legal FreeOrSame emptySnapshotWorld ops := by
  have hstart : HandlesInv emptySnapshotWorld := ⟨nofun, fun _ _ => rfl⟩
  exact snapshotMachine.always_iff_legal HandlesInv (fun _ _ hw hc => (snapshotStep_spec hw hc).1)
    (fun _ _ hw hc => (snapshotStep_spec hw hc).2) hstart.intact hstart hcount

/-- One context, five acquires without a release, and a lease update before the last one. -/
def fiveAcquires : List SnapshotOp :=
  [.state (.create ⟨[99], by simp⟩ 100), .acquire 0, .acquire 0, .acquire 0, .acquire 0,
   .state (.updateLease 0 7 .running 0), .acquire 0]

theorem snapshots_immutable_iff_fiveAcquires :
    snapshotMachine.Legal CountersHold emptySnapshotWorld fiveAcquires ∧
    ((∀ pre, pre <+: fiveAcquires → Intact (snapshotMachine.run emptySnapshotWorld pre)) ↔
      snapshotMachine.Legal FreeOrSame emptySnapshotWorld fiveAcquires) := by
  have h : snapshotMachine.Legal CountersHold emptySnapshotWorld fiveAcquires := by
    refine ⟨trivial, ?_, ?_, ?_, ?_, trivial, ?_, trivial⟩ <;> (show _ < _; decide)
  exact ⟨h, snapshots_immutable_iff fiveAcquires h⟩

/-- **The fifth snapshot overwrites the first**, which is still held. -/
theorem fifth_snapshot_overwrites :
    ¬ ∀ ops pre, pre <+: ops → Intact (snapshotMachine.run emptySnapshotWorld pre) := by
  intro h
  have hread := h fiveAcquires fiveAcquires (List.prefix_refl _)
    ⟨0, 0, (clusterStateCreate ⟨[99], by simp⟩ 100).masterState⟩ (List.mem_of_getElem? (i := 0) rfl)
  have hversion := congrArg ClusterStateSnapshot.stateGenerationVersion hread
  exact absurd hversion (by decide +kernel)

end VoidOsMerger
