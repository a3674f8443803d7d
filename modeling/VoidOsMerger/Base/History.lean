/-
  File:      VoidOsMerger/Base/History.lean
  Subject:   WHAT A STATE SAYS ABOUT ITS HISTORY: flags that operations set and clear, and handles that
             operations open and close.

  * `Machine.Since` -- an operation of the run did something, and none after it undid it;
  * **`Machine.flag_iff_since`** -- a flag that steps set and clear is up exactly since it was set;
  * `Machine.legal_map_iff` -- a condition on the steps, seen through a machine that goes along;
  * `Holder` -- a variable for one handle among the handles of a context; a handle that is overwritten
    stays open and is lost;
  * **`Holder.clean_run_iff`** -- no handle is lost exactly when none was made while one was held.
-/
import VoidOsMerger.Base.Run
import Mathlib.Data.List.Induction

namespace VoidOsMerger

/-! ## 1. Flags -/

namespace Machine

variable {σ Op Out : Type} (M : Machine σ Op Out) {sets clears : σ → Op → Prop}

/-- Some operation of the run sets, and no operation after it clears. -/
def Since (sets clears : σ → Op → Prop) (s : σ) (ops : List Op) : Prop :=
  ∃ pre o post, ops = pre ++ o :: post ∧ sets (M.run s pre) o ∧
    M.Legal (fun s o => ¬ clears s o) (M.next (M.run s pre) o) post

theorem since_concat (s : σ) (ops : List Op) (o : Op) :
    M.Since sets clears s (ops ++ [o]) ↔
      sets (M.run s ops) o ∨ (M.Since sets clears s ops ∧ ¬ clears (M.run s ops) o) := by
  constructor
  · rintro ⟨pre, p, post, heq, hset, hkept⟩
    -- the operation that sets is the last one, or the last one comes behind it
    cases post using List.reverseRecOn with
    | nil =>
      obtain ⟨rfl, hp⟩ := List.append_inj' heq rfl
      rw [List.cons.inj hp |>.1]
      exact Or.inl hset
    | append_singleton post q =>
      rw [← List.cons_append, ← List.append_assoc] at heq
      obtain ⟨rfl, hq⟩ := List.append_inj' heq rfl
      rw [List.cons.inj hq |>.1]
      obtain ⟨hpost, hlast, -⟩ := (M.legal_append _ post [q]).mp hkept
      rw [M.run_append, M.run_cons]
      exact Or.inr ⟨⟨pre, p, post, rfl, hset, hpost⟩, hlast⟩
  · rintro (hset | ⟨⟨pre, p, post, rfl, hset, hkept⟩, hlast⟩)
    · exact ⟨ops, o, [], rfl, hset, trivial⟩
    · rw [M.run_append, M.run_cons] at hlast
      refine ⟨pre, p, post ++ [o], by rw [List.append_assoc, List.cons_append], hset, ?_⟩
      exact (M.legal_append _ post [o]).mpr ⟨hkept, hlast, trivial⟩

/-- **A flag reads off the history**: where every step sets it, clears it or keeps it. -/
theorem flag_iff_since (flag : σ → Prop)
    (hstep : ∀ s o, flag (M.next s o) ↔ sets s o ∨ (flag s ∧ ¬ clears s o)) {s : σ} (hs : ¬ flag s)
    (ops : List Op) : flag (M.run s ops) ↔ M.Since sets clears s ops := by
  induction ops using List.reverseRecOn with
  | nil =>
    refine iff_of_false hs ?_
    rintro ⟨pre, o, post, heq, -⟩
    exact absurd heq.symm (List.append_ne_nil_of_right_ne_nil pre (List.cons_ne_nil o post))
  | append_singleton ops o ih =>
    rw [M.run_append, M.run_cons, M.run_nil, hstep, ih, M.since_concat]

/-- A condition on runs seen through a second machine that goes along. -/
theorem legal_map_iff {τ Op' Out' : Type} {N : Machine τ Op' Out'} (R : σ → τ → Prop) (g : Op → Op')
    {ok : σ → Op → Prop} {ok' : τ → Op' → Prop}
    (hstep : ∀ s t o, R s t → R (M.next s o) (N.next t (g o)))
    (hiff : ∀ s t o, R s t → (ok s o ↔ ok' t (g o))) {s : σ} {t : τ} (h : R s t) (ops : List Op) :
    N.Legal ok' t (ops.map g) ↔ M.Legal ok s ops := by
  induction ops generalizing s t with
  | nil => exact Iff.rfl
  | cons o ops ih => exact and_congr (hiff s t o h).symm (ih (hstep s t o h))

end Machine

/-! ## 2. Handles -/

/-- How many handles of a context are open, and whether the variable holds one of them. -/
structure Holder where
  opened : Nat
  held : Bool
  opened_of_held : held = true → 0 < opened

/-- An operation: a handle is made and put into the variable, and closed again when it is of no use; or
    the handle held is closed. -/
inductive HolderOp
  | acquire (made useful : Bool)
  | release
  | keep

namespace Holder

/-- Nothing is open. -/
def empty : Holder := ⟨0, false, fun h => absurd h Bool.false_ne_true⟩

/-- The handles that are open and not held. -/
def lost (h : Holder) : Nat := h.opened - h.held.toNat

theorem without_held (n : Nat) : false = true → 0 < n := fun h => absurd h Bool.false_ne_true

theorem acquired (n : Nat) : true = true → 0 < n + 1 := fun _ => n.succ_pos

def step (h : Holder) : HolderOp → Holder
  | .acquire made useful =>
    if made && useful then ⟨h.opened + 1, true, acquired h.opened⟩
    else ⟨h.opened, false, without_held h.opened⟩
  | .release => ⟨h.opened - h.held.toNat, false, without_held _⟩
  | .keep => h

def machine : Machine Holder HolderOp Unit where
  step h o := (h.step o, ())

/-- The operation puts a new handle, or none, over the one held. -/
def Overwrites (h : Holder) (o : HolderOp) : Prop :=
  (∃ made useful, o = .acquire made useful) ∧ h.held = true

/-- What is put into the variable is held, so that all others are lost. -/
theorem lost_acquire (h : Holder) (made useful : Bool) :
    (h.step (.acquire made useful)).lost = h.opened := by
  unfold step lost
  dsimp only
  split <;> rfl

theorem lost_next (h : Holder) (o : HolderOp) : h.lost ≤ (machine.next h o).lost ∧
    (h.Overwrites o ↔ h.lost < (machine.next h o).lost) := by
  change h.lost ≤ (h.step o).lost ∧ (h.Overwrites o ↔ h.lost < (h.step o).lost)
  have hkeep : (h.step o).lost = h.lost → (∀ made useful, o ≠ .acquire made useful) →
      h.lost ≤ (h.step o).lost ∧ (h.Overwrites o ↔ h.lost < (h.step o).lost) := by
    intro hsame hother
    refine ⟨Nat.le_of_eq hsame.symm, iff_of_false ?_ (by omega)⟩
    rintro ⟨⟨made, useful, ho⟩, -⟩
    exact hother made useful ho
  cases o with
  | acquire made useful =>
    rw [lost_acquire]
    refine ⟨Nat.sub_le _ _, (and_iff_right ⟨made, useful, rfl⟩).trans ?_⟩
    unfold lost
    cases hheld : h.held with
    | false => exact iff_of_false Bool.false_ne_true (Nat.lt_irrefl _)
    | true => exact iff_of_true rfl (Nat.sub_lt (h.opened_of_held hheld) Nat.one_pos)
  | release => exact hkeep rfl fun _ _ => HolderOp.noConfusion
  | keep => exact hkeep rfl fun _ _ => HolderOp.noConfusion

theorem lost_run_iff_from (h : Holder) (ops : List HolderOp) :
    h.lost ≤ (machine.run h ops).lost ∧ ((machine.run h ops).lost = h.lost ↔
      machine.Legal (fun h o => ¬ h.Overwrites o) h ops) := by
  induction ops generalizing h with
  | nil => exact ⟨Nat.le_refl _, iff_of_true rfl trivial⟩
  | cons o ops ih =>
    obtain ⟨hle, hiff⟩ := lost_next h o
    obtain ⟨hle', hiff'⟩ := ih (machine.next h o)
    refine ⟨Nat.le_trans hle hle', ?_⟩
    change _ ↔ ¬ h.Overwrites o ∧ machine.Legal _ (machine.next h o) ops
    rw [← hiff', hiff, machine.run_cons]
    omega

/-- Closing the handle held leaves none of the context open. -/
def Clean (h : Holder) : Prop := (h.step .release).opened = 0

/-- **Lost handles.** Along a machine that tells whether a handle is held, no handle is lost exactly when
    none was made while one was held. -/
theorem clean_run_iff {σ Op Out : Type} (M : Machine σ Op Out) (held : σ → Bool) (g : Op → HolderOp)
    (hstep : ∀ s (h : Holder) o, held s = h.held → held (M.next s o) = (h.step (g o)).held) {s : σ}
    (hs : held s = false) (ops : List Op) :
    (machine.run empty (ops.map g)).Clean ↔
      M.Legal (fun s o => (∃ made useful, g o = .acquire made useful) → held s = false) s ops := by
  refine (lost_run_iff_from empty (ops.map g)).2.trans ?_
  refine M.legal_map_iff (fun s h => held s = h.held) g hstep (fun s h o hheld => ?_) hs ops
  unfold Overwrites
  rw [hheld, not_and, Bool.not_eq_true]

end Holder

end VoidOsMerger
