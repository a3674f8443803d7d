/-
  File:      VoidOsMerger/Base/Ledger.lean
  Subject:   GRANTS AND WHAT A HOLDER HAS OUTSTANDING.

  A list of grants, each with a holder and an amount. `outstanding` is what one holder owes; it only
  depends on the list up to order, a new grant adds its amount to its holder and to nobody else.

  A counter that is kept beside the list takes amounts and gives them back by a guarded subtraction
  (`giveBack`). Two relations survive both: the counter equals a base plus what is outstanding, when
  what is given back is what was granted; the counter covers what is outstanding, when at most what
  was granted is given back.
-/
import Mathlib.Algebra.BigOperators.Group.List.Basic
import Mathlib.Algebra.GroupWithZero.Nat
import Mathlib.Algebra.Order.BigOperators.Group.List
import Mathlib.Algebra.Order.Group.Nat
import Mathlib.Data.List.Perm.Basic

namespace VoidOsMerger

section Outstanding

variable {G K : Type} [DecidableEq K] (holder : G → K) (amt : G → Nat)

/-- The amounts holder `k` has outstanding. -/
def outstanding (k : K) (gs : List G) : Nat :=
  ((gs.filter (fun g => holder g = k)).map amt).sum

theorem outstanding_cons (k : K) (g : G) (gs : List G) :
    outstanding holder amt k (g :: gs) =
      (if holder g = k then amt g else 0) + outstanding holder amt k gs := by
  unfold outstanding
  by_cases h : holder g = k <;> simp [h]

theorem outstanding_perm {k : K} {gs gs' : List G} (h : gs.Perm gs') :
    outstanding holder amt k gs = outstanding holder amt k gs' :=
  ((h.filter _).map amt).sum_eq

theorem outstanding_congr {amt' : G → Nat} {k : K} {gs : List G}
    (h : ∀ g ∈ gs, amt g = amt' g) : outstanding holder amt k gs = outstanding holder amt' k gs := by
  unfold outstanding
  rw [List.map_congr_left fun g hg => h g (List.mem_of_mem_filter hg)]

/-- Nobody's grants are nobody's debt. -/
theorem outstanding_eq_zero {k : K} {gs : List G} (h : ∀ g ∈ gs, holder g ≠ k) :
    outstanding holder amt k gs = 0 := by
  unfold outstanding
  rw [List.filter_eq_nil_iff.mpr (by simpa using h)]
  rfl

theorem outstanding_snoc (k : K) (gs : List G) (g : G) :
    outstanding holder amt k (gs ++ [g]) =
      outstanding holder amt k gs + if holder g = k then amt g else 0 := by
  have hperm : (gs ++ [g]).Perm (g :: gs) := List.perm_append_singleton g gs
  rw [outstanding_perm holder amt hperm, outstanding_cons, Nat.add_comm]

/-- A grant rewritten in its place. -/
theorem outstanding_set (k : K) {gs : List G} {i : Nat} {g : G} (hi : gs[i]? = some g) (g' : G) :
    outstanding holder amt k (gs.set i g') + (if holder g = k then amt g else 0) =
      outstanding holder amt k gs + if holder g' = k then amt g' else 0 := by
  obtain ⟨hlt, hg⟩ := List.getElem?_eq_some_iff.mp hi
  have hnew := outstanding_perm holder amt (k := k) (List.set_perm_cons_eraseIdx hlt g')
  have hold := outstanding_perm holder amt (k := k) (List.getElem_cons_eraseIdx_perm hlt)
  rw [hg] at hold
  rw [hnew, ← hold, outstanding_cons, outstanding_cons]
  omega

/-- One holder's grant is part of what is outstanding. -/
theorem le_outstanding {k : K} {gs : List G} {g : G} (hg : g ∈ gs) (hk : holder g = k) :
    amt g ≤ outstanding holder amt k gs := by
  unfold outstanding
  have hmem : g ∈ gs.filter (fun g => holder g = k) := List.mem_filter.mpr ⟨hg, decide_eq_true hk⟩
  exact List.single_le_sum (fun _ _ => Nat.zero_le _) _ (List.mem_map_of_mem hmem)

end Outstanding

/-- A guarded subtraction: `if (c >= x) c -= x;`. -/
def giveBack (c x : Nat) : Nat := if x ≤ c then c - x else c

theorem giveBack_le (c x : Nat) : giveBack c x ≤ c := by
  unfold giveBack
  split <;> omega

/-- Giving back what was granted keeps the counter exact, and the guard lets it through. -/
theorem giveBack_exact {c base owed x : Nat} (h : c = base + (x + owed)) :
    x ≤ c ∧ giveBack c x = base + owed := by
  have hx : x ≤ c := by omega
  refine ⟨hx, ?_⟩
  rw [giveBack, if_pos hx]
  omega

/-- Giving back at most what was granted keeps the counter above what is owed. -/
theorem giveBack_covers {c owed x granted : Nat} (h : granted + owed ≤ c) (hx : x ≤ granted) :
    owed ≤ giveBack c x := by
  unfold giveBack
  split <;> omega

end VoidOsMerger
