/-
  File:      VoidOsMerger/Base/Circular.lean
  Subject:   A CIRCULAR BUFFER AND THE HISTORY OF WHAT WAS PUSHED.

  Every push overwrites the cell at the head and moves the head on by one cell, from the last cell to
  the first. Reading backwards starts at the cell before the head.

  * `prev_iterate_val` -- the cell `j` steps before a cell, without a remainder;
  * `Holds cells head xs` -- the buffer after pushing `xs`: where the head is, and that reading
    backwards gives the latest of `xs`, newest first;
  * **`Holds.push`** -- one more push keeps this.
-/
import Mathlib.Logic.Function.Iterate

namespace VoidOsMerger.Circular

variable {n : Nat} {α : Type}

/-! ## 1. Neighbouring cells -/

/-- The cell after `i`. -/
def next (i : Fin n) : Fin n := ⟨(i.val + 1) % n, Nat.mod_lt _ i.pos⟩

/-- The cell before `i`. -/
def prev (i : Fin n) : Fin n :=
  if i.val > 0 then ⟨i.val - 1, Nat.lt_of_le_of_lt (Nat.sub_le _ _) i.isLt⟩
  else ⟨n - 1, Nat.pred_lt_of_lt i.isLt⟩

theorem next_val (i : Fin n) : (next i).val = if i.val + 1 < n then i.val + 1 else 0 := by
  unfold next
  split
  · rename_i hlt
    exact Nat.mod_eq_of_lt hlt
  · rename_i hge
    have hend : i.val + 1 = n := by omega
    show (i.val + 1) % n = 0
    rw [hend, Nat.mod_self]

theorem prev_val (i : Fin n) : (prev i).val = if i.val > 0 then i.val - 1 else n - 1 := by
  unfold prev
  split <;> rfl

theorem prev_next (i : Fin n) : prev (next i) = i := by
  have hi := i.isLt
  rw [Fin.ext_iff, prev_val, next_val]
  split <;> split <;> omega

/-- At most one turn back, without a remainder. -/
theorem prev_iterate_val (i : Fin n) : ∀ j ≤ n,
    (prev^[j] i).val = if j ≤ i.val then i.val - j else i.val + n - j
  | 0, _ => by simp
  | j + 1, hj => by
      have hi := i.isLt
      rw [Function.iterate_succ_apply', prev_val, prev_iterate_val i j (by omega)]
      split <;> split <;> split <;> omega

/-- Less than a turn back is another cell. -/
theorem prev_iterate_ne (i : Fin n) {j : Nat} (h : j + 1 < n) : prev^[j + 1] i ≠ i := by
  rw [Ne, Fin.ext_iff, prev_iterate_val i (j + 1) (Nat.le_of_lt h)]
  split <;> omega

/-! ## 2. Reading backwards -/

/-- The `k` cells before `i`, the nearest first. -/
def readBack (cells : Vector α n) : Nat → Fin n → List α
  | 0, _ => []
  | k + 1, i => cells[prev i] :: readBack cells k (prev i)

/-- A write to a cell that is not passed is not seen. -/
theorem readBack_set (cells : Vector α n) (s : Fin n) (a : α) : ∀ (k : Nat) (i : Fin n),
    (∀ j < k, prev^[j + 1] i ≠ s) → readBack (cells.set s a) k i = readBack cells k i
  | 0, _, _ => rfl
  | k + 1, i, h => by
      have hfirst : (s : Nat) ≠ (prev i : Nat) := fun heq => h 0 (Nat.succ_pos k) (Fin.ext heq.symm)
      have hrest := readBack_set cells s a k (prev i) fun j hj => h (j + 1) (Nat.succ_lt_succ hj)
      rw [readBack, readBack, hrest]
      simp [Vector.getElem_set_ne _ _ hfirst]

/-- The buffer after pushing `xs` into `n` cells. -/
structure Holds (cells : Vector α n) (head : Fin n) (xs : List α) : Prop where
  position : head.val = xs.length % n
  recent : ∀ k ≤ min xs.length n, readBack cells k head = xs.reverse.take k

theorem holds_nil (cells : Vector α n) {head : Fin n} (h : head.val = 0) : Holds cells head [] where
  position := by simp [h]
  recent := by
    intro k hk
    obtain rfl : k = 0 := by simpa using hk
    rfl

section Push

variable {cells : Vector α n} {head : Fin n} {xs : List α} (h : Holds cells head xs)

include h

/-- **One more push.** -/
theorem Holds.push (a : α) : Holds (cells.set head a) (next head) (xs ++ [a]) where
  position := by
    show (head.val + 1) % n = (xs ++ [a]).length % n
    rw [h.position, Nat.mod_add_mod, List.length_append, List.length_singleton]
  recent := by
    intro k hk
    rw [List.length_append, List.length_singleton] at hk
    cases k with
    | zero => rfl
    | succ k =>
      -- the cell just written comes first; the others are passed before a turn is complete
      have hframe : readBack (cells.set head a) k head = readBack cells k head :=
        readBack_set cells head a k head fun j hj => prev_iterate_ne head (by omega)
      have hbefore := h.recent k (by omega)
      simp [readBack, prev_next, hframe, hbefore]

/-- The cell before the head holds what was pushed last. -/
theorem Holds.latest {a : α} (ha : xs.getLast? = some a) : cells[prev head] = a := by
  obtain ⟨ys, rfl⟩ := List.getLast?_eq_some_iff.mp ha
  have hpos := head.pos
  have hone := h.recent 1 (by simp; omega)
  simpa [readBack] using hone

end Push

end VoidOsMerger.Circular
