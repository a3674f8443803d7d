/-
  File:      VoidOsMerger/Base/Table.lean
  Subject:   TABLES: a fixed array with a fill count, as the list of its live entries.

  The C idioms on such a table are few, and each is one function here:
  * `modifyFirst p f` -- the loop that stops at the first entry with `p` and changes it;
  * `place p cap a` -- the loop that overwrites the first entry with `p`, else appends while there
    is room (`none`: the table is full);
  * `List.eraseP` (from the library) -- a `memmove` over the first entry with `p`.

  The lemmas split the table at the first entry with `p` (`find?_split`, `place_cases`); what an
  operation does to a filtered view of the table follows by computing with the split
  (`filter_modifyFirst_off`, `filter_place_perm`). Where entries have a key and no key occurs twice,
  the first hit is the only one (`mem_modifyFirst_key`, `modifyFirst_eq_map`). Two tables can be in
  step, entry by entry (section 3).
-/
import Mathlib.Data.List.Perm.Basic
import Mathlib.Data.List.Nodup

namespace VoidOsMerger

variable {α β : Type}

/-- Change the first entry with `p`. -/
def modifyFirst (p : α → Bool) (f : α → α) : List α → List α
  | [] => []
  | a :: l => if p a then f a :: l else a :: modifyFirst p f l

/-- Overwrite the first entry with `p` by `a`, else append `a` while there are fewer than `cap`
    entries. -/
def place (p : α → Bool) (cap : Nat) (a : α) (l : List α) : Option (List α) :=
  if l.any p then some (modifyFirst p (fun _ => a) l)
  else if l.length < cap then some (l ++ [a])
  else none

/-! ## 1. `modifyFirst` -/

@[simp] theorem length_modifyFirst (p : α → Bool) (f : α → α) (l : List α) :
    (modifyFirst p f l).length = l.length := by
  induction l with
  | nil => rfl
  | cons a l ih =>
    unfold modifyFirst
    split
    · rfl
    · simp [ih]

/-- A key the change keeps is kept all over the table. -/
theorem map_modifyFirst (p : α → Bool) (f : α → α) (g : α → β) (hg : ∀ a, g (f a) = g a)
    (l : List α) : (modifyFirst p f l).map g = l.map g := by
  induction l with
  | nil => rfl
  | cons a l ih =>
    unfold modifyFirst
    split
    · simp [hg]
    · simp [ih]

theorem modifyFirst_of_none {p : α → Bool} (f : α → α) {l : List α} (h : l.find? p = none) :
    modifyFirst p f l = l := by
  induction l with
  | nil => rfl
  | cons a l ih =>
    rw [List.find?_cons] at h
    unfold modifyFirst
    split at h
    · cases h
    · rename_i hp
      simp [hp, ih h]

/-- **The table, split at the entry the search finds.** -/
theorem find?_split {p : α → Bool} {l : List α} {a : α} (h : l.find? p = some a) :
    ∃ l₁ l₂, l = l₁ ++ a :: l₂ ∧ p a = true ∧ ∀ x ∈ l₁, p x = false := by
  obtain ⟨hp, l₁, l₂, rfl, hl₁⟩ := List.find?_eq_some_iff_append.mp h
  exact ⟨l₁, l₂, rfl, hp, fun x hx => by simpa using hl₁ x hx⟩

/-- Where keys are distinct the search by key finds the entry. -/
theorem find?_key {p : α → Bool} {l : List α} {a : α} (k : α → β) (hl : (l.map k).Nodup)
    (ha : a ∈ l) (hp : ∀ x, p x = true ↔ k x = k a) : l.find? p = some a := by
  cases hf : l.find? p with
  | none => exact absurd ((hp a).mpr rfl) (List.find?_eq_none.mp hf a ha)
  | some x =>
    have hx : k x = k a := (hp x).mp (List.find?_some hf)
    rw [List.inj_on_of_nodup_map hl (List.mem_of_find?_eq_some hf) ha hx]

theorem modifyFirst_append {p : α → Bool} (f : α → α) {l₁ l₂ : List α} {a : α} (hp : p a = true)
    (hl₁ : ∀ x ∈ l₁, p x = false) : modifyFirst p f (l₁ ++ a :: l₂) = l₁ ++ f a :: l₂ := by
  induction l₁ with
  | nil => simp [modifyFirst, hp]
  | cons x l₁ ih =>
    have hx : p x = false := hl₁ x List.mem_cons_self
    have ih' := ih fun y hy => hl₁ y (List.mem_cons_of_mem _ hy)
    simp [modifyFirst, hx, ih']

/-- The entry at an index of the changed table. -/
theorem getElem?_modifyFirst (p : α → Bool) (f : α → α) (l : List α) (i : Nat) :
    (modifyFirst p f l)[i]? = if l.findIdx? p = some i then l[i]?.map f else l[i]? := by
  induction l generalizing i with
  | nil => simp [modifyFirst]
  | cons a l ih =>
    by_cases hp : p a = true
    · cases i <;> simp [modifyFirst, hp, List.findIdx?_cons]
    · cases i with
      | zero => simp [modifyFirst, hp, List.findIdx?_cons]
      | succ i => simp [modifyFirst, hp, List.findIdx?_cons, ih]

/-- The change as a write at the index of the search. -/
theorem modifyFirst_eq_set {p : α → Bool} (f : α → α) {l : List α} {i : Nat} {a : α}
    (hi : l.findIdx? p = some i) (ha : l[i]? = some a) : modifyFirst p f l = l.set i (f a) := by
  apply List.ext_getElem?
  intro k
  rw [getElem?_modifyFirst, hi, List.getElem?_set]
  by_cases hk : i = k
  · subst hk
    have hlt : i < l.length := (List.getElem?_eq_some_iff.mp ha).1
    rw [if_pos rfl, if_pos rfl, if_pos hlt, ha]
    rfl
  · rw [if_neg hk, if_neg fun e => hk (Option.some.inj e)]

/-- The search and the index of the search. -/
theorem find?_iff_findIdx? {p : α → Bool} {l : List α} {a : α} :
    l.find? p = some a ↔ ∃ i, l.findIdx? p = some i ∧ l[i]? = some a := by
  induction l with
  | nil => simp
  | cons b l ih =>
    by_cases hp : p b = true
    · simp [hp, List.findIdx?_cons]
    · simp [hp, List.findIdx?_cons, ih]

/-- The changed table, up to order. -/
theorem modifyFirst_perm {p : α → Bool} (f : α → α) {l : List α} {a : α} (h : l.find? p = some a) :
    (modifyFirst p f l).Perm (f a :: l.eraseP p) := by
  induction l with
  | nil => cases h
  | cons b l ih =>
    by_cases hp : p b = true
    · obtain rfl : b = a := by simpa [hp] using h
      simp [modifyFirst, hp]
    · rw [List.find?_cons_of_neg hp] at h
      simp only [modifyFirst, hp, List.eraseP_cons_of_neg, not_false_eq_true, Bool.false_eq_true,
        if_false]
      exact ((ih h).cons b).trans (List.Perm.swap (f a) b _)

theorem modifyFirst_found_mem {p : α → Bool} {f : α → α} {l : List α} {a : α}
    (h : l.find? p = some a) : f a ∈ modifyFirst p f l := by
  obtain ⟨l₁, l₂, rfl, hp, hl₁⟩ := find?_split h
  rw [modifyFirst_append f hp hl₁]
  exact List.mem_append_right l₁ List.mem_cons_self

/-- Where keys are distinct, a changed table holds the other entries as they were and the change of the
    entry with the key. -/
theorem mem_modifyFirst_key {p : α → Bool} {f : α → α} {l : List α} {x : α} (k : α → β) {b : β}
    (hp : ∀ a, p a = true ↔ k a = b) (hl : (l.map k).Nodup) :
    x ∈ modifyFirst p f l ↔ (x ∈ l ∧ k x ≠ b) ∨ ∃ a ∈ l, k a = b ∧ x = f a := by
  induction l with
  | nil => simp [modifyFirst]
  | cons c l ih =>
    rw [List.map_cons, List.nodup_cons] at hl
    by_cases hc : k c = b
    · -- the search stops here, and no later entry has the key
      have hrest : ∀ y ∈ l, k y ≠ b := fun y hy e =>
        hl.1 (hc.trans e.symm ▸ List.mem_map_of_mem hy)
      rw [modifyFirst, if_pos ((hp c).mpr hc), List.mem_cons]
      constructor
      · rintro (rfl | hx)
        · exact Or.inr ⟨c, List.mem_cons_self, hc, rfl⟩
        · exact Or.inl ⟨List.mem_cons_of_mem _ hx, hrest x hx⟩
      · rintro (⟨hx, hne⟩ | ⟨a, ha, hab, rfl⟩)
        · rcases List.mem_cons.mp hx with rfl | hx
          · exact absurd hc hne
          · exact Or.inr hx
        · rcases List.mem_cons.mp ha with rfl | ha
          · exact Or.inl rfl
          · exact absurd hab (hrest a ha)
    · have hpc : ¬ p c = true := fun h => hc ((hp c).mp h)
      rw [modifyFirst, if_neg hpc, List.mem_cons, ih hl.2]
      constructor
      · rintro (rfl | ⟨hx, hne⟩ | ⟨a, ha, hab, rfl⟩)
        · exact Or.inl ⟨List.mem_cons_self, hc⟩
        · exact Or.inl ⟨List.mem_cons_of_mem _ hx, hne⟩
        · exact Or.inr ⟨a, List.mem_cons_of_mem _ ha, hab, rfl⟩
      · rintro (⟨hx, hne⟩ | ⟨a, ha, hab, rfl⟩)
        · rcases List.mem_cons.mp hx with rfl | hx
          · exact Or.inl rfl
          · exact Or.inr (Or.inl ⟨hx, hne⟩)
        · rcases List.mem_cons.mp ha with rfl | ha
          · exact absurd hab hc
          · exact Or.inr (Or.inr ⟨a, ha, hab, rfl⟩)

/-- What holds all over a table holds all over the changed one exactly when the change keeps it. -/
theorem forall_mem_modifyFirst {P : α → Prop} {p : α → Bool} {f : α → α} {l : List α}
    (h : ∀ a ∈ l, P a) :
    (∀ x ∈ modifyFirst p f l, P x) ↔ ∀ a, l.find? p = some a → P (f a) := by
  cases hf : l.find? p with
  | none =>
    rw [modifyFirst_of_none f hf]
    exact iff_of_true h fun a ha => by cases ha
  | some a =>
    have hmem : ∀ x, x ∈ modifyFirst p f l ↔ x = f a ∨ x ∈ l.eraseP p := fun x => by
      rw [(modifyFirst_perm f hf).mem_iff, List.mem_cons]
    constructor
    · intro hall b hb
      cases hb
      exact hall _ ((hmem _).mpr (Or.inl rfl))
    · intro hfa x hx
      rcases (hmem x).mp hx with rfl | hx
      · exact hfa a rfl
      · exact h x (List.mem_of_mem_eraseP hx)

/-- Where keys are distinct, the loop that stops at the first hit changes every hit. -/
theorem modifyFirst_eq_map {p : α → Bool} (f : α → α) {l : List α} (k : α → β) {b : β}
    (hp : ∀ a, p a = true ↔ k a = b) (hl : (l.map k).Nodup) :
    modifyFirst p f l = l.map fun a => if p a then f a else a := by
  induction l with
  | nil => rfl
  | cons c l ih =>
    rw [List.map_cons, List.nodup_cons] at hl
    by_cases hc : p c = true
    · have hrest : ∀ y ∈ l, ¬ p y = true := fun y hy hpy =>
        hl.1 (((hp c).mp hc).trans ((hp y).mp hpy).symm ▸ List.mem_map_of_mem hy)
      have hsame : (l.map fun a => if p a then f a else a) = l :=
        (List.map_congr_left fun y hy => if_neg (hrest y hy)).trans (List.map_id' l)
      rw [modifyFirst, if_pos hc, List.map_cons, if_pos hc, hsame]
    · rw [modifyFirst, if_neg hc, List.map_cons, if_neg hc, ih hl.2]

/-- A narrower search that stops at the same entry. -/
theorem modifyFirst_narrow {p q : α → Bool} (f : α → α) {l : List α} {a : α}
    (h : l.find? p = some a) (hqp : ∀ x, q x = true → p x = true) (hq : q a = true) :
    modifyFirst q f l = modifyFirst p f l := by
  obtain ⟨l₁, l₂, rfl, hp, hl₁⟩ := find?_split h
  rw [modifyFirst_append f hp hl₁, modifyFirst_append f hq]
  intro x hx
  cases hqx : q x with
  | false => rfl
  | true => exact absurd (hqp x hqx) (by simp [hl₁ x hx])

/-- A search that looks for none of the changed entries. -/
theorem find?_modifyFirst_other {p q : α → Bool} {f : α → α}
    (hpq : ∀ a, p a = true → q a = false ∧ q (f a) = false) (l : List α) :
    (modifyFirst p f l).find? q = l.find? q := by
  induction l with
  | nil => rfl
  | cons a l ih =>
    unfold modifyFirst
    split
    · rename_i hp
      simp [hpq a hp]
    · rw [List.find?_cons, List.find?_cons, ih]

/-- A search whose hit is the entry that is changed. -/
theorem find?_modifyFirst_hit {p q : α → Bool} {f : α → α} {l : List α} {a : α}
    (h : l.find? q = some a) (hpq : ∀ x, p x = true → q x = true) (hp : p a = true)
    (hq : q (f a) = true) : (modifyFirst p f l).find? q = some (f a) := by
  induction l with
  | nil => cases h
  | cons b l ih =>
    by_cases hqb : q b = true
    · obtain rfl : b = a := by simpa [hqb] using h
      simp [modifyFirst, hp, hq]
    · have hpb : ¬ p b = true := fun hpb => hqb (hpq b hpb)
      rw [List.find?_cons_of_neg hqb] at h
      rw [modifyFirst, if_neg hpb, List.find?_cons_of_neg hqb]
      exact ih h

/-- A write at an index, seen by key. -/
theorem mem_set_key {l : List α} {i : Nat} {a x y : α} (k : α → β) (hl : (l.map k).Nodup)
    (hi : l[i]? = some a) (h : y ∈ l.set i x) : (y ∈ l ∧ k y ≠ k a) ∨ y = x := by
  induction l generalizing i with
  | nil => simp at h
  | cons c l ih =>
    rw [List.map_cons, List.nodup_cons] at hl
    cases i with
    | zero =>
      obtain rfl : c = a := by simpa using hi
      rcases List.mem_cons.mp h with rfl | h
      · exact Or.inr rfl
      · exact Or.inl ⟨List.mem_cons_of_mem _ h, fun e => hl.1 (e ▸ List.mem_map_of_mem h)⟩
    | succ i =>
      rcases List.mem_cons.mp h with rfl | h
      · refine Or.inl ⟨List.mem_cons_self, fun e => hl.1 ?_⟩
        rw [e]
        exact List.mem_map_of_mem (List.mem_of_getElem? hi)
      · rcases ih hl.2 hi h with ⟨hm, hne⟩ | rfl
        · exact Or.inl ⟨List.mem_cons_of_mem _ hm, hne⟩
        · exact Or.inr rfl

/-- An entry with another key than the overwritten one is still there. -/
theorem mem_set_of_key {l : List α} {i : Nat} {a x y : α} (k : α → β) (hi : l[i]? = some a)
    (hy : y ∈ l) (hk : k y ≠ k a) : y ∈ l.set i x := by
  obtain ⟨j, hj⟩ := List.mem_iff_getElem?.mp hy
  have hij : i ≠ j := by
    intro e
    rw [e, hj] at hi
    exact hk (congrArg k (Option.some.inj hi))
  exact List.mem_iff_getElem?.mpr ⟨j, by rw [List.getElem?_set_ne hij, hj]⟩

/-- A write that keeps the key keeps all keys. -/
theorem map_set_key {l : List α} {i : Nat} {a x : α} (k : α → β) (hi : l[i]? = some a)
    (hk : k x = k a) : (l.set i x).map k = l.map k := by
  obtain ⟨hlt, rfl⟩ := List.getElem?_eq_some_iff.mp hi
  have hlt' : i < (l.map k).length := by simpa using hlt
  have hget : k l[i] = (l.map k)[i] := by simp
  rw [List.map_set, hk, hget]
  exact List.set_getElem_self hlt'

/-- **Switching the found entry off**: where `p` entries are in the view `q` and the change takes
    them out of it, the view loses the found entry and nothing else. -/
theorem filter_modifyFirst_off {p q : α → Bool} {f : α → α} (hpq : ∀ a, p a = true → q a = true)
    (hf : ∀ a, q (f a) = false) (l : List α) :
    (modifyFirst p f l).filter q = (l.filter q).eraseP p := by
  induction l with
  | nil => rfl
  | cons a l ih =>
    by_cases hp : p a = true
    · simp [modifyFirst, hp, hpq a hp, hf a]
    · by_cases hq : q a = true
      · simp [modifyFirst, hp, hq, ih]
      · simp [modifyFirst, hp, hq, ih]

/-- A change that keeps the view `q`, at an entry inside it: the view is changed at its first `r`
    entry, where `r` is what the search looks for inside the view. -/
theorem filter_modifyFirst_in {p q r : α → Bool} {f : α → α} (hpq : ∀ a, p a = true → q a = true)
    (hr : ∀ a, q a = true → p a = r a) (hf : ∀ a, q (f a) = q a) (l : List α) :
    (modifyFirst p f l).filter q = modifyFirst r f (l.filter q) := by
  induction l with
  | nil => rfl
  | cons a l ih =>
    by_cases hp : p a = true
    · have hq := hpq a hp
      simp [modifyFirst, hp, hq, hf a, ← hr a hq]
    · by_cases hq : q a = true
      · simp [modifyFirst, hp, hq, ← hr a hq, ih]
      · simp [modifyFirst, hp, hq, ih]

/-- A change that keeps the view, at an entry outside it. -/
theorem filter_modifyFirst_out {p q : α → Bool} {f : α → α} (hpq : ∀ a, p a = true → q a = false)
    (hf : ∀ a, q (f a) = q a) (l : List α) : (modifyFirst p f l).filter q = l.filter q := by
  induction l with
  | nil => rfl
  | cons a l ih =>
    by_cases hp : p a = true
    · simp [modifyFirst, hp, hpq a hp, hf a]
    · by_cases hq : q a = true
      · simp [modifyFirst, hp, hq, ih]
      · simp [modifyFirst, hp, hq, ih]

/-- Entries treated one by one, in a view that the treatment keeps. -/
theorem filter_filterMap_key {q : α → Bool} {g : α → Option α}
    (hg : ∀ a b, g a = some b → q b = q a) (l : List α) :
    (l.filterMap g).filter q = (l.filter q).filterMap g := by
  induction l with
  | nil => rfl
  | cons a l ih =>
    cases ha : g a with
    | none => by_cases hq : q a = true <;> simp [ha, hq, ih]
    | some b =>
      have hb := hg a b ha
      by_cases hq : q a = true
      · simp [ha, hb, hq, ih]
      · simp [ha, hb, hq, ih]

theorem filterMap_cons_toList (f : α → Option β) (a : α) (l : List α) :
    (a :: l).filterMap f = (f a).toList ++ l.filterMap f := by
  cases h : f a <;> simp [h]

/-- An entry with a new key at the end. -/
theorem nodup_map_snoc {l : List α} {a : α} (k : α → β) (hl : (l.map k).Nodup)
    (ha : ∀ x ∈ l, k x ≠ k a) : ((l ++ [a]).map k).Nodup := by
  rw [List.map_append, List.map_singleton, ← List.concat_eq_append]
  refine List.Nodup.concat (fun hm => ?_) hl
  obtain ⟨x, hx, e⟩ := List.mem_map.mp hm
  exact ha x hx e

/-- A list of distinct entries is among its first `n` exactly when it is not longer. -/
theorem subset_take_iff {l : List α} (hl : l.Nodup) (n : Nat) :
    (∀ a ∈ l, a ∈ l.take n) ↔ l.length ≤ n := by
  constructor
  · intro h
    have hle := (List.subperm_of_subset hl h).length_le
    rw [List.length_take] at hle
    exact Nat.le_trans hle (Nat.min_le_left _ _)
  · intro h a ha
    rwa [List.take_of_length_le h]

/-! ## 2. `place` -/

/-- **What `place` does when it succeeds.** -/
theorem place_cases {p : α → Bool} {cap : Nat} {a : α} {l l' : List α}
    (h : place p cap a l = some l') :
    (∃ l₁ x l₂, l = l₁ ++ x :: l₂ ∧ p x = true ∧ (∀ y ∈ l₁, p y = false) ∧ l' = l₁ ++ a :: l₂) ∨
    ((∀ x ∈ l, p x = false) ∧ l.length < cap ∧ l' = l ++ [a]) := by
  unfold place at h
  split at h
  · rename_i hany
    left
    cases hf : l.find? p with
    | none =>
      exfalso
      obtain ⟨x, hx, hp⟩ := List.any_eq_true.mp hany
      exact (List.find?_eq_none.mp hf) x hx hp
    | some x =>
      obtain ⟨l₁, l₂, rfl, hp, hl₁⟩ := find?_split hf
      rw [modifyFirst_append _ hp hl₁] at h
      exact ⟨l₁, x, l₂, rfl, hp, hl₁, (Option.some.inj h).symm⟩
  · rename_i hany
    split at h
    · rename_i hlen
      right
      refine ⟨fun x hx => ?_, hlen, (Option.some.inj h).symm⟩
      cases hp : p x with
      | false => rfl
      | true => exact absurd (List.any_eq_true.mpr ⟨x, hx, hp⟩) hany
    · cases h

/-- `place` fails only on a full table without a `p` entry. -/
theorem place_none {p : α → Bool} {cap : Nat} {a : α} {l : List α} (h : place p cap a l = none) :
    (∀ x ∈ l, p x = false) ∧ cap ≤ l.length := by
  unfold place at h
  split at h
  · cases h
  · rename_i hany
    split at h
    · cases h
    · rename_i hlen
      refine ⟨fun x hx => ?_, Nat.le_of_not_lt hlen⟩
      cases hp : p x with
      | false => rfl
      | true => exact absurd (List.any_eq_true.mpr ⟨x, hx, hp⟩) hany

theorem length_place_le {p : α → Bool} {cap : Nat} {a : α} {l l' : List α}
    (h : place p cap a l = some l') (hl : l.length ≤ cap) : l'.length ≤ cap := by
  rcases place_cases h with ⟨l₁, x, l₂, rfl, _, _, rfl⟩ | ⟨_, hlt, rfl⟩
  · simpa using hl
  · simp
    omega

/-- Every entry after `place` is the new one or an old one. -/
theorem mem_of_mem_place {p : α → Bool} {cap : Nat} {a x : α} {l l' : List α}
    (h : place p cap a l = some l') (hx : x ∈ l') : x = a ∨ x ∈ l := by
  rcases place_cases h with ⟨l₁, y, l₂, rfl, _, _, rfl⟩ | ⟨_, _, rfl⟩
  · simp only [List.mem_append, List.mem_cons] at hx ⊢
    rcases hx with h | h | h
    · exact Or.inr (Or.inl h)
    · exact Or.inl h
    · exact Or.inr (Or.inr (Or.inr h))
  · simp only [List.mem_append, List.mem_singleton] at hx
    exact hx.symm

/-- **Filling a free slot**: where no `p` entry is in the view `q` and the new entry is, the view
    gains the new entry and nothing else. -/
theorem filter_place_perm {p q : α → Bool} {cap : Nat} {a : α} {l l' : List α}
    (h : place p cap a l = some l') (hpq : ∀ x, p x = true → q x = false) (ha : q a = true) :
    (l'.filter q).Perm (a :: l.filter q) := by
  rcases place_cases h with ⟨l₁, x, l₂, rfl, hp, _, rfl⟩ | ⟨_, _, rfl⟩
  · simp only [List.filter_append, List.filter_cons, ha, hpq x hp, if_true]
    exact List.perm_middle
  · simp only [List.filter_append, List.filter_cons, ha, if_true, List.filter_nil]
    exact List.perm_append_singleton a _

/-- **Overwriting by key** keeps keys distinct: the overwritten entry has the new one's key. -/
theorem nodup_map_place {p : α → Bool} {cap : Nat} {a : α} {l l' : List α} (k : α → β)
    (h : place p cap a l = some l') (hp : ∀ x, p x = true ↔ k x = k a) (hl : (l.map k).Nodup) :
    (l'.map k).Nodup := by
  rcases place_cases h with ⟨l₁, x, l₂, rfl, hx, _, rfl⟩ | ⟨hno, _, rfl⟩
  · simpa [(hp x).mp hx] using hl
  · refine nodup_map_snoc k hl fun x hx e => ?_
    have := (hp x).mpr e
    rw [hno x hx] at this
    cases this

/-- Overwriting by key keeps every key that was there. -/
theorem map_subset_place {p : α → Bool} {cap : Nat} {a : α} {l l' : List α} (k : α → β)
    (h : place p cap a l = some l') (hp : ∀ x, p x = true → k x = k a) {b : β}
    (hb : b ∈ l.map k) : b ∈ l'.map k := by
  rcases place_cases h with ⟨l₁, x, l₂, rfl, hx, _, rfl⟩ | ⟨_, _, rfl⟩
  · simpa [hp x hx] using hb
  · simp only [List.map_append, List.mem_append]
    exact Or.inl hb

/-! ## 3. Tables in step

What relates two tables entry by entry (`List.Forall₂`), and what the operations make of it. -/

/-- Entries that agree in `k` with their partners. -/
theorem map_eq_of_forall₂ {R : α → α → Prop} {k : α → β} {l l' : List α} (h : List.Forall₂ R l l')
    (hk : ∀ a b, R a b → k b = k a) : l'.map k = l.map k := by
  induction h with
  | nil => rfl
  | cons hab _ ih => rw [List.map_cons, List.map_cons, hk _ _ hab, ih]

/-- What relates every entry to itself and the found entry to its change relates the tables. -/
theorem forall₂_modifyFirst {R : α → α → Prop} {p : α → Bool} {f : α → α} {l : List α}
    (hr : ∀ a, R a a) (hf : ∀ a, l.find? p = some a → R a (f a)) :
    List.Forall₂ R l (modifyFirst p f l) := by
  induction l with
  | nil => exact List.Forall₂.nil
  | cons a l ih =>
    unfold modifyFirst
    split
    · rename_i hp
      exact List.Forall₂.cons (hf a (by simp [hp])) (List.forall₂_same.mpr fun x _ => hr x)
    · rename_i hp
      exact List.Forall₂.cons (hr a) (ih fun b hb => hf b (by simp [hp, hb]))

/-- Two tables in step: searches that stop at the same index and changes that keep the relation. -/
theorem forall₂_modifyFirst_both {R : α → β → Prop} {p : α → Bool} {q : β → Bool} {f : α → α}
    {g : β → β} {l : List α} {l' : List β} (h : List.Forall₂ R l l')
    (hpq : ∀ a b, R a b → p a = q b) (hfg : ∀ a b, R a b → p a = true → R (f a) (g b)) :
    List.Forall₂ R (modifyFirst p f l) (modifyFirst q g l') := by
  induction h with
  | nil => exact List.Forall₂.nil
  | @cons a b l l' hab htail ih =>
    rw [modifyFirst, modifyFirst, ← hpq a b hab]
    split
    · rename_i hp
      exact List.Forall₂.cons (hfg a b hab hp) htail
    · exact List.Forall₂.cons hab ih

/-- A change that keeps the relation to another table. -/
theorem forall₂_modifyFirst_left {R : α → β → Prop} {p : α → Bool} {f : α → α} {l : List α}
    {l' : List β} (h : List.Forall₂ R l l') (hf : ∀ a b, R a b → R (f a) b) :
    List.Forall₂ R (modifyFirst p f l) l' := by
  induction h with
  | nil => exact List.Forall₂.nil
  | @cons a b l l' hab htail ih =>
    rw [modifyFirst]
    split
    · exact List.Forall₂.cons (hf a b hab) htail
    · exact List.Forall₂.cons hab ih

/-- Two tables in step: the same search succeeds in both. -/
theorem forall₂_any {R : α → β → Prop} {p : α → Bool} {q : β → Bool} {l : List α} {l' : List β}
    (h : List.Forall₂ R l l') (hpq : ∀ a b, R a b → p a = q b) : l.any p = l'.any q := by
  induction h with
  | nil => rfl
  | cons hab _ ih => rw [List.any_cons, List.any_cons, hpq _ _ hab, ih]

/-- Every entry has its counterpart in a table in step, and the other way round. -/
theorem forall₂_exists_right {R : α → β → Prop} {l : List α} {l' : List β} {a : α}
    (h : List.Forall₂ R l l') (ha : a ∈ l) : ∃ b ∈ l', R a b := by
  obtain ⟨i, hi, rfl⟩ := List.getElem_of_mem ha
  have hi' : i < l'.length := h.length_eq ▸ hi
  exact ⟨l'[i], List.getElem_mem hi', h.get hi hi'⟩

theorem forall₂_exists_left {R : α → β → Prop} {l : List α} {l' : List β} {b : β}
    (h : List.Forall₂ R l l') (hb : b ∈ l') : ∃ a ∈ l, R a b := by
  obtain ⟨i, hi, rfl⟩ := List.getElem_of_mem hb
  have hi' : i < l.length := h.length_eq ▸ hi
  exact ⟨l[i], List.getElem_mem hi', h.get hi' hi⟩

/-- A view that no entry enters does not grow. -/
theorem countP_le_of_forall₂ {R : α → β → Prop} {p : α → Bool} {q : β → Bool} {l : List α}
    {l' : List β} (h : List.Forall₂ R l l') (hqp : ∀ a b, R a b → q b = true → p a = true) :
    l'.countP q ≤ l.countP p := by
  induction h with
  | nil => exact Nat.le_refl 0
  | @cons a b l l' hab _ ih =>
    rw [List.countP_cons, List.countP_cons]
    by_cases hq : q b = true
    · rw [if_pos hq, if_pos (hqp a b hab hq)]
      exact Nat.succ_le_succ ih
    · rw [if_neg hq]
      exact Nat.le_add_right_of_le ih

/-- A view that no entry leaves grows by the entries that are new to it. -/
theorem countP_zip_of_forall₂ {R : α → β → Prop} {p : α → Bool} {q : β → Bool} {l : List α}
    {l' : List β} (h : List.Forall₂ R l l') (hpq : ∀ a b, R a b → p a = true → q b = true) :
    (l.zip l').countP (fun e => !p e.1 && q e.2) + l.countP p = l'.countP q := by
  induction h with
  | nil => rfl
  | @cons a b l l' hab _ ih =>
    have hhead := hpq a b hab
    simp only [List.zip_cons_cons, List.countP_cons]
    cases hp : p a with
    | true =>
      rw [hhead hp]
      simp only [Bool.not_true, Bool.false_and, Bool.false_eq_true, if_false, if_true]
      omega
    | false =>
      cases hq : q b <;> simp <;> omega

end VoidOsMerger
