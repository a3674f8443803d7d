/-
  File:      VoidOsMerger/Base/Directory.lean
  Subject:   A DIRECTORY WHOSE RECORDS ARE NUMBERED BY A COUNTER. A record is entered under the next
             number, taken out by its number, or all are taken out; the counter never goes back.

  The numbers of a directory rise along the list and stay at or below the counter: both are fields of
  the structure, so that no other list is one.

  * `Directory.mem_step_iff` -- what one operation does to the records;
  * `Directory.last_run` -- the counter counts the records ever entered;
  * **`Directory.mem_run_iff`** -- the records of a directory read off its history.
-/
import VoidOsMerger.Base.Run
import Mathlib.Data.List.Basic
import Mathlib.Data.List.Induction

namespace VoidOsMerger

variable {α : Type}

/-- A list of records numbered by a counter. -/
structure Directory (number : α → Nat) where
  records : List α
  last : Nat
  ordered : records.Pairwise fun a b => number a < number b
  bounded : ∀ a ∈ records, number a ≤ last

/-- An operation on a directory. A record is entered by the function that makes it from its number. -/
inductive DirectoryOp (number : α → Nat)
  | enter (record : Nat → α) (numbered : ∀ n, number (record n) = n)
  | leave (n : Nat)
  | clear
  | keep

variable {number : α → Nat}

/-- The operation takes a record with this number out. -/
def DirectoryOp.Removes : DirectoryOp number → Nat → Prop
  | .leave n, m => m = n
  | .clear, _ => True
  | _, _ => False

/-- The operation enters a record. -/
def DirectoryOp.enters : DirectoryOp number → Bool
  | .enter _ _ => true
  | _ => false

namespace Directory

theorem ordered_snoc {records : List α} {last : Nat}
    (hordered : records.Pairwise fun a b => number a < number b)
    (hbounded : ∀ a ∈ records, number a ≤ last) {a : α} (ha : number a = last + 1) :
    (records ++ [a]).Pairwise fun a b => number a < number b := by
  refine List.pairwise_append.mpr ⟨hordered, List.pairwise_singleton _ _, fun b hb c hc => ?_⟩
  rw [List.mem_singleton.mp hc, ha]
  exact Nat.lt_succ_of_le (hbounded b hb)

theorem bounded_snoc {records : List α} {last : Nat} (hbounded : ∀ a ∈ records, number a ≤ last)
    {a : α} (ha : number a = last + 1) : ∀ b ∈ records ++ [a], number b ≤ last + 1 := by
  intro b hb
  rcases List.mem_append.mp hb with hb | hb
  · exact Nat.le_succ_of_le (hbounded b hb)
  · exact List.mem_singleton.mp hb ▸ Nat.le_of_eq ha

/-- Nobody is entered yet. -/
def empty (last : Nat) : Directory number where
  records := []
  last := last
  ordered := List.Pairwise.nil
  bounded := fun _ ha => absurd ha List.not_mem_nil

/-- The directory after one operation. -/
def step (d : Directory number) : DirectoryOp number → Directory number
  | .enter record numbered =>
    { records := d.records ++ [record (d.last + 1)]
      last := d.last + 1
      ordered := ordered_snoc d.ordered d.bounded (numbered _)
      bounded := bounded_snoc d.bounded (numbered _) }
  | .leave n =>
    { records := d.records.eraseP fun a => number a = n
      last := d.last
      ordered := d.ordered.sublist List.eraseP_sublist
      bounded := fun a ha => d.bounded a (List.mem_of_mem_eraseP ha) }
  | .clear => { empty d.last with }
  | .keep => d

/-- The machine of the directory. -/
def machine (number : α → Nat) : Machine (Directory number) (DirectoryOp number) Unit where
  step d o := (d.step o, ())

theorem run_snoc (d : Directory number) (ops : List (DirectoryOp number)) (o : DirectoryOp number) :
    (machine number).run d (ops ++ [o]) = ((machine number).run d ops).step o :=
  (machine number).run_append d ops [o]

/-- With rising numbers the first record with a number is the only one. -/
theorem mem_eraseP_iff {records : List α}
    (hordered : records.Pairwise fun a b => number a < number b) (n : Nat) (a : α) :
    a ∈ records.eraseP (fun a => number a = n) ↔ a ∈ records ∧ number a ≠ n := by
  induction records with
  | nil => simp
  | cons b records ih =>
    obtain ⟨hfirst, hrest⟩ := List.pairwise_cons.mp hordered
    by_cases hb : number b = n
    · rw [List.eraseP_cons_of_pos (by simpa using hb), List.mem_cons]
      constructor
      · exact fun ha => ⟨Or.inr ha, fun h => absurd (hfirst a ha) (by omega)⟩
      · rintro ⟨rfl | ha, hne⟩
        · exact absurd hb hne
        · exact ha
    · rw [List.eraseP_cons_of_neg (by simpa using hb), List.mem_cons, List.mem_cons, ih hrest]
      constructor
      · rintro (rfl | ⟨ha, hne⟩)
        · exact ⟨Or.inl rfl, hb⟩
        · exact ⟨Or.inr ha, hne⟩
      · rintro ⟨rfl | ha, hne⟩
        · exact Or.inl rfl
        · exact Or.inr ⟨ha, hne⟩

/-- **One operation**: the records it does not take out stay, and it may enter one. -/
theorem mem_step_iff (d : Directory number) (o : DirectoryOp number) (a : α) :
    a ∈ (d.step o).records ↔ (a ∈ d.records ∧ ¬ o.Removes (number a)) ∨
      ∃ record numbered, o = .enter record numbered ∧ a = record (d.last + 1) := by
  cases o with
  | enter record numbered =>
    change a ∈ d.records ++ [record (d.last + 1)] ↔ _
    rw [List.mem_append, List.mem_singleton]
    constructor
    · rintro (ha | rfl)
      · exact Or.inl ⟨ha, id⟩
      · exact Or.inr ⟨record, numbered, rfl, rfl⟩
    · rintro (⟨ha, -⟩ | ⟨_, _, ⟨⟩, rfl⟩)
      · exact Or.inl ha
      · exact Or.inr rfl
  | leave n =>
    refine (mem_eraseP_iff d.ordered n a).trans ⟨Or.inl, ?_⟩
    rintro (h | ⟨_, _, ⟨⟩, _⟩)
    exact h
  | clear =>
    refine ⟨fun ha => absurd ha List.not_mem_nil, ?_⟩
    rintro (⟨-, h⟩ | ⟨_, _, ⟨⟩, _⟩)
    exact absurd trivial h
  | keep =>
    refine ⟨fun ha => Or.inl ⟨ha, id⟩, ?_⟩
    rintro (h | ⟨_, _, ⟨⟩, _⟩)
    exact h.1

theorem last_step (d : Directory number) (o : DirectoryOp number) :
    (d.step o).last = d.last + if o.enters then 1 else 0 := by
  cases o <;> rfl

theorem last_run (last : Nat) (ops : List (DirectoryOp number)) :
    ((machine number).run (empty last) ops).last = last + ops.countP (·.enters) := by
  induction ops using List.reverseRecOn with
  | nil => rfl
  | append_singleton ops o ih =>
    rw [run_snoc, last_step, ih, List.countP_append, List.countP_singleton, Nat.add_assoc]

/-- The record was entered, under the number that was next then, and not taken out since. -/
def Entered (last : Nat) (ops : List (DirectoryOp number)) (a : α) : Prop :=
  ∃ before record numbered after, ops = before ++ .enter record numbered :: after ∧
    a = record (last + before.countP (·.enters) + 1) ∧ ∀ o ∈ after, ¬ o.Removes (number a)

theorem entered_snoc_iff (last : Nat) (ops : List (DirectoryOp number)) (o : DirectoryOp number)
    (a : α) : Entered last (ops ++ [o]) a ↔ (Entered last ops a ∧ ¬ o.Removes (number a)) ∨
      ∃ record numbered, o = .enter record numbered ∧
        a = record (last + ops.countP (·.enters) + 1) := by
  constructor
  · rintro ⟨before, record, numbered, after, hsplit, ha, hkept⟩
    -- the record was entered by the last operation or by one before it
    rcases List.eq_nil_or_concat' after with rfl | ⟨after, o', rfl⟩
    · obtain ⟨rfl, ho⟩ := List.append_inj' hsplit rfl
      exact Or.inr ⟨record, numbered, (List.cons.inj ho).1, ha⟩
    · rw [← List.cons_append, ← List.append_assoc] at hsplit
      obtain ⟨rfl, ho⟩ := List.append_inj' hsplit rfl
      obtain rfl := (List.cons.inj ho).1
      exact Or.inl ⟨⟨before, record, numbered, after, rfl, ha,
        fun x hx => hkept x (List.mem_append_left _ hx)⟩,
        hkept _ (List.mem_append_right _ (List.mem_singleton_self _))⟩
  · rintro (⟨⟨before, record, numbered, after, rfl, ha, hkept⟩, ho⟩ | ⟨record, numbered, rfl, ha⟩)
    · refine ⟨before, record, numbered, after ++ [o], by simp, ha, fun x hx => ?_⟩
      rcases List.mem_append.mp hx with hx | hx
      · exact hkept x hx
      · exact List.mem_singleton.mp hx ▸ ho
    · exact ⟨ops, record, numbered, [], rfl, ha, fun _ hx => absurd hx List.not_mem_nil⟩

/-- **The records of a directory read off its history.** -/
theorem mem_run_iff (last : Nat) (ops : List (DirectoryOp number)) (a : α) :
    a ∈ ((machine number).run (empty last) ops).records ↔ Entered last ops a := by
  induction ops using List.reverseRecOn with
  | nil =>
    refine ⟨fun ha => absurd ha List.not_mem_nil, ?_⟩
    rintro ⟨before, _, _, _, h, _⟩
    simp at h
  | append_singleton ops o ih =>
    rw [run_snoc, mem_step_iff, last_run, ih, entered_snoc_iff]

end Directory

end VoidOsMerger
