/-
  File:      VoidOsMerger/Base/ArgMax.lean
  Subject:   THE FIRST GREATEST ELEMENT OF A LIST, found in one pass.

  The pass carries the best index so far and its key, from a threshold on; elements may have no key.

  * `FirstMax` -- the element at an index has a key that no other exceeds and none before it reaches;
  * `argMaxLoop_spec` -- the pass keeps what it had, where no key exceeds the threshold, or finds the
    first greatest;
  * `argMax_eq_none_iff`, `firstMax_of_argMax` -- the search as a whole.
-/
import Mathlib.Order.Lattice

namespace VoidOsMerger

variable {α β : Type} [LinearOrder β] (key : α → Option β)

/-- One pass: `i` is the index of the next element, `highest` the key to exceed. -/
def argMaxLoop : List α → Nat → Option Nat → β → Option Nat
  | [], _, best, _ => best
  | a :: l, i, best, highest =>
    match key a with
    | none => argMaxLoop l (i + 1) best highest
    | some k =>
      if highest < k then argMaxLoop l (i + 1) (some i) k else argMaxLoop l (i + 1) best highest

/-- The index of the first element with the greatest key above `threshold`. -/
def argMax (threshold : β) (l : List α) : Option Nat := argMaxLoop key l 0 none threshold

/-- Element `i` has key `k`, which no key exceeds and no earlier one reaches. -/
structure FirstMax (l : List α) (i : Nat) (k : β) : Prop where
  attained : ∃ a, l[i]? = some a ∧ key a = some k
  greatest : ∀ a ∈ l, ∀ k' ∈ key a, k' ≤ k
  first : ∀ j < i, ∀ a ∈ l[j]?, ∀ k' ∈ key a, k' < k

section

variable {key} {l : List α} {a : α} {i : Nat} {k : β}

theorem FirstMax.head (ha : key a = some k) (hl : ∀ b ∈ l, ∀ k' ∈ key b, k' ≤ k) :
    FirstMax key (a :: l) 0 k where
  attained := ⟨a, rfl, ha⟩
  greatest := by
    refine List.forall_mem_cons.mpr ⟨fun k' hk' => ?_, hl⟩
    rw [ha] at hk'
    exact le_of_eq (Option.some.inj hk').symm
  first := fun _ hj => absurd hj (Nat.not_lt_zero _)

theorem FirstMax.cons (h : FirstMax key l i k) (ha : ∀ k' ∈ key a, k' < k) :
    FirstMax key (a :: l) (i + 1) k where
  attained := h.attained
  greatest := List.forall_mem_cons.mpr ⟨fun k' hk' => le_of_lt (ha k' hk'), h.greatest⟩
  first := by
    intro j hj b hb
    cases j with
    | zero => exact Option.some.inj hb ▸ ha
    | succ j => exact h.first j (Nat.lt_of_succ_lt_succ hj) b hb

end

/-- **One pass.** -/
theorem argMaxLoop_spec : ∀ (l : List α) (i : Nat) (best : Option Nat) (highest : β),
    (argMaxLoop key l i best highest = best ∧ ∀ a ∈ l, ∀ k ∈ key a, k ≤ highest) ∨
    ∃ j k, argMaxLoop key l i best highest = some (i + j) ∧ highest < k ∧ FirstMax key l j k
  | [], _, _, _ => Or.inl ⟨rfl, fun _ ha => absurd ha List.not_mem_nil⟩
  | a :: l, i, best, highest => by
      -- where the head does not exceed `highest`, the rest of the pass decides
      have hskip : (∀ k ∈ key a, k ≤ highest) →
          (argMaxLoop key l (i + 1) best highest = best ∧
            ∀ b ∈ a :: l, ∀ k ∈ key b, k ≤ highest) ∨
          ∃ j k, argMaxLoop key l (i + 1) best highest = some (i + j) ∧ highest < k ∧
            FirstMax key (a :: l) j k := by
        intro ha
        rcases argMaxLoop_spec l (i + 1) best highest with ⟨e, hl⟩ | ⟨j, k, e, hk, hmax⟩
        · exact Or.inl ⟨e, List.forall_mem_cons.mpr ⟨ha, hl⟩⟩
        · refine Or.inr ⟨j + 1, k, ?_, hk, hmax.cons fun k' hk' => lt_of_le_of_lt (ha k' hk') hk⟩
          rw [e, Nat.add_assoc, Nat.add_comm 1 j]
      unfold argMaxLoop
      cases ha : key a with
      | none => exact hskip fun k hk => by rw [ha] at hk; cases hk
      | some k₀ =>
        dsimp only
        split
        · rename_i hlt
          refine Or.inr ?_
          rcases argMaxLoop_spec l (i + 1) (some i) k₀ with ⟨e, hl⟩ | ⟨j, k, e, hk, hmax⟩
          · exact ⟨0, k₀, e, hlt, FirstMax.head ha hl⟩
          · refine ⟨j + 1, k, ?_, lt_trans hlt hk, hmax.cons fun k' hk' => ?_⟩
            · rw [e, Nat.add_assoc, Nat.add_comm 1 j]
            · rw [ha] at hk'
              exact Option.some.inj hk' ▸ hk
        · rename_i hle
          refine hskip fun k hk => ?_
          rw [ha] at hk
          exact Option.some.inj hk ▸ not_lt.mp hle

/-- The search finds nothing exactly where no key exceeds the threshold. -/
theorem argMax_eq_none_iff {threshold : β} {l : List α} :
    argMax key threshold l = none ↔ ∀ a ∈ l, ∀ k ∈ key a, k ≤ threshold := by
  rcases argMaxLoop_spec key l 0 none threshold with ⟨e, hl⟩ | ⟨j, k, e, hk, hmax⟩
  · exact iff_of_true e hl
  · obtain ⟨a, ha, hkey⟩ := hmax.attained
    refine iff_of_false (fun hnone => ?_) fun hall => ?_
    · rw [argMax, e] at hnone
      cases hnone
    · exact absurd (hall a (List.mem_of_getElem? ha) k hkey) (not_le.mpr hk)

/-- What it finds is the first greatest. -/
theorem firstMax_of_argMax {threshold : β} {l : List α} {i : Nat}
    (h : argMax key threshold l = some i) : ∃ k, threshold < k ∧ FirstMax key l i k := by
  rcases argMaxLoop_spec key l 0 none threshold with ⟨e, -⟩ | ⟨j, k, e, hk, hmax⟩
  · rw [argMax, e] at h
    cases h
  · rw [argMax, e, Nat.zero_add] at h
    exact ⟨k, hk, Option.some.inj h ▸ hmax⟩

end VoidOsMerger
