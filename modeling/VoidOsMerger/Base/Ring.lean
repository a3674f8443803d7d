/-
  File:      VoidOsMerger/Base/Ring.lean
  Subject:   A RING OF REFERENCE-COUNTED SLOTS.

  Taking a slot searches from `tail` for a slot without references and gives up after one turn; then
  the slot at `tail` is taken although it is referenced. Giving a slot back lowers its count.

  * **`take_cases`** -- the slot taken is unreferenced, or every slot is referenced and it is `tail`;
  * `Counted r held` -- the counters agree with the slots somebody holds; taking and giving back keep
    this (`Counted.take`, `Counted.give`) while a 32-bit counter can hold the number;
  * `Counted.target_free` -- with fewer holders than slots the slot taken is unreferenced.
-/
import Mathlib.Algebra.Group.Fin.Basic
import Mathlib.Algebra.GroupWithZero.Nat
import Mathlib.Data.Fintype.Card
import Mathlib.Logic.Function.Basic

namespace VoidOsMerger

/-- `n` slots with their reference counts, and the slot where the next search starts. -/
structure RefRing (n : Nat) (α : Type) where
  pool : Fin n → α
  refCounts : Fin n → UInt32
  tail : Fin n

namespace RefRing

variable {n : Nat} [NeZero n] {α : Type}

/-- The search: at most `k` slots are looked at, from `slot` on. -/
def probe (refCounts : Fin n → UInt32) : Nat → Fin n → Fin n
  | 0, slot => slot
  | k + 1, slot => if refCounts slot > 0 then probe refCounts k (slot + 1) else slot

/-- The slot the next `take` uses. -/
def target (r : RefRing n α) : Fin n := probe r.refCounts n r.tail

/-- Copy `a` into a slot and count one reference more. -/
def take (r : RefRing n α) (a : α) : RefRing n α where
  pool := Function.update r.pool r.target a
  refCounts := Function.update r.refCounts r.target (r.refCounts r.target + 1)
  tail := r.target + 1

/-- Count one reference less, if there is one. -/
def give (r : RefRing n α) (slot : Fin n) : RefRing n α :=
  if r.refCounts slot > 0 then
    { r with refCounts := Function.update r.refCounts slot (r.refCounts slot - 1) }
  else r

/-! ## 1. The slot taken -/

theorem step_add (slot : Fin n) (i : Nat) :
    slot + 1 + Fin.ofNat n i = slot + Fin.ofNat n (i + 1) := by
  have hone : (1 : Fin n) = Fin.ofNat n 1 := rfl
  apply Fin.ext
  simp only [hone, Fin.val_add, Fin.val_ofNat, Nat.add_mod_mod, Nat.mod_add_mod]
  rw [Nat.add_assoc, Nat.add_comm 1 i]

/-- The search stops at an unreferenced slot, or has passed only referenced ones. -/
theorem probe_cases (refCounts : Fin n → UInt32) : ∀ (k : Nat) (slot : Fin n),
    refCounts (probe refCounts k slot) = 0 ∨
    (probe refCounts k slot = slot + Fin.ofNat n k ∧
      ∀ i < k, refCounts (slot + Fin.ofNat n i) ≠ 0)
  | 0, slot => Or.inr ⟨by simp [probe], fun i hi => absurd hi (Nat.not_lt_zero i)⟩
  | k + 1, slot => by
      unfold probe
      split
      · rename_i hpos
        rcases probe_cases refCounts k (slot + 1) with hfree | ⟨hend, hpassed⟩
        · exact Or.inl hfree
        · refine Or.inr ⟨by rw [hend, step_add], fun i hi => ?_⟩
          cases i with
          | zero =>
              intro hzero
              simp at hzero
              simp [hzero] at hpos
          | succ i =>
              rw [← step_add]
              exact hpassed i (by omega)
      · rename_i hfree
        left
        simpa using hfree

/-- **What the slot taken is**: unreferenced, or the slot at `tail` of a ring without an unreferenced
    slot. -/
theorem take_cases (r : RefRing n α) :
    r.refCounts r.target = 0 ∨ (r.target = r.tail ∧ ∀ i, r.refCounts i ≠ 0) := by
  rcases probe_cases r.refCounts n r.tail with hfree | ⟨hend, hpassed⟩
  · exact Or.inl hfree
  · refine Or.inr ⟨?_, fun i => ?_⟩
    · show probe r.refCounts n r.tail = r.tail
      rw [hend]
      apply Fin.ext
      rw [Fin.val_add, Fin.val_ofNat, Nat.mod_self, Nat.add_zero, Nat.mod_eq_of_lt r.tail.isLt]
    · -- slot `i` is passed `i - tail` slots after `tail`
      have hi : r.tail + Fin.ofNat n (i - r.tail).val = i := by
        rw [Fin.ofNat_val_eq_self, add_sub_cancel]
      rw [← hi]
      exact hpassed _ (i - r.tail).isLt

/-- Some slot is unreferenced exactly when the slot taken is. -/
theorem exists_free_iff (r : RefRing n α) :
    (∃ i, r.refCounts i = 0) ↔ r.refCounts r.target = 0 := by
  refine ⟨fun ⟨i, hi⟩ => ?_, fun h => ⟨_, h⟩⟩
  rcases r.take_cases with h | ⟨_, hfull⟩
  · exact h
  · exact absurd hi (hfull i)

/-! ## 2. The counters and who holds a slot -/

/-- The counters agree with the list of the slots that are held, one entry for each holder. -/
def Counted (r : RefRing n α) (held : List (Fin n)) : Prop :=
  ∀ i, (r.refCounts i).toNat = held.count i

omit [NeZero n] in
theorem Counted.held_of_pos {r : RefRing n α} {held : List (Fin n)} (h : r.Counted held) {i : Fin n}
    (hi : r.refCounts i ≠ 0) : i ∈ held := by
  refine List.count_pos_iff.mp ((h i) ▸ Nat.pos_of_ne_zero fun hz => hi ?_)
  exact UInt32.toNat_inj.mp hz

omit [NeZero n] in
theorem Counted.not_held {r : RefRing n α} {held : List (Fin n)} (h : r.Counted held) {i : Fin n}
    (hi : r.refCounts i = 0) : i ∉ held := by
  refine List.count_eq_zero.mp ?_
  rw [← h i, hi]
  rfl

/-- Fewer holders than slots: the slot taken is unreferenced. -/
theorem Counted.target_free {r : RefRing n α} {held : List (Fin n)} (h : r.Counted held)
    (hlt : held.length < n) : r.refCounts r.target = 0 := by
  rw [← r.exists_free_iff]
  by_contra hall
  have hsub : (Finset.univ : Finset (Fin n)) ⊆ held.toFinset := fun i _ =>
    List.mem_toFinset.mpr (h.held_of_pos fun hi => hall ⟨i, hi⟩)
  have hcard := (Finset.card_le_card hsub).trans (List.toFinset_card_le held)
  rw [Finset.card_fin] at hcard
  exact absurd hlt (Nat.not_lt.mpr hcard)

theorem Counted.take {r : RefRing n α} {held : List (Fin n)} (h : r.Counted held) (a : α)
    (hroom : held.length < 2 ^ 32 - 1) : (r.take a).Counted (r.target :: held) := by
  intro i
  show (Function.update r.refCounts r.target (r.refCounts r.target + 1) i).toNat = _
  rw [List.count_cons]
  by_cases hi : i = r.target
  · subst hi
    have hlt : held.count r.target ≤ held.length := List.count_le_length
    rw [Function.update_self, UInt32.toNat_add, h r.target, if_pos (beq_self_eq_true _)]
    show (held.count r.target + 1) % 2 ^ 32 = _
    exact Nat.mod_eq_of_lt (by omega)
  · rw [Function.update_of_ne hi, h i, if_neg (by simpa using Ne.symm hi), Nat.add_zero]

omit [NeZero n] in
theorem Counted.give {r : RefRing n α} {slot : Fin n} {held : List (Fin n)}
    (h : r.Counted (slot :: held)) : (r.give slot).Counted held := by
  have hcount : (r.refCounts slot).toNat = held.count slot + 1 := by
    rw [h slot, List.count_cons_self]
  have hpos : r.refCounts slot > 0 := UInt32.lt_iff_toNat_lt.mpr (by
    rw [hcount]
    exact Nat.succ_pos _)
  intro i
  rw [RefRing.give, if_pos hpos]
  show (Function.update r.refCounts slot (r.refCounts slot - 1) i).toNat = _
  by_cases hi : i = slot
  · subst hi
    rw [Function.update_self, UInt32.toNat_sub_of_le _ _ hpos, hcount]
    rfl
  · rw [Function.update_of_ne hi, h i, List.count_cons_of_ne (Ne.symm hi)]

omit [NeZero n] in
theorem Counted.perm {r : RefRing n α} {held held' : List (Fin n)} (h : r.Counted held)
    (hp : held.Perm held') : r.Counted held' :=
  fun i => (h i).trans (hp.count_eq i)

omit [NeZero n] in
@[simp] theorem give_pool (r : RefRing n α) (slot : Fin n) : (r.give slot).pool = r.pool := by
  unfold give
  split <;> rfl

end RefRing

end VoidOsMerger
