/-
  File:      VoidOsMerger/Base/Slots.lean
  Subject:   A FIXED ARRAY AND AN `int` COUNT OF THE SLOTS IN USE.

  The loops `for (int i = 0; i < count; i++)` over such an array and the write of one slot, with
  `none` for an access outside the array. While the count is within the array they are the list
  operations on the slots in use (`used`), and leave the slots behind them alone (`spare`).
-/
import Mathlib.Data.List.Basic
import Mathlib.Data.List.TakeDrop
import Mathlib.Data.List.Nodup
import Mathlib.Data.List.Perm.Subperm

namespace VoidOsMerger

variable {α β : Type}

/-- The slots in use. -/
def used {n : Nat} (v : Vector α n) (count : Int) : List α :=
  v.toList.take count.toNat

/-- The slots behind them. -/
def spare {n : Nat} (v : Vector α n) (count : Int) : List α :=
  v.toList.drop count.toNat

/-- The loop that stops at the first slot with `p`; the answer is its index. -/
def scanSlots (p : α → Bool) : List α → Int → Option (Option Nat)
  | [], count => if count ≤ 0 then some none else none
  | a :: l, count =>
    if count ≤ 0 then some none
    else if p a then some (some 0)
    else (scanSlots p l (count - 1)).map (Option.map (· + 1))

/-- The loop that visits every slot in use. -/
def foldSlots (f : β → α → β) : List α → Int → β → Option β
  | [], count, b => if count ≤ 0 then some b else none
  | a :: l, count, b => if count ≤ 0 then some b else foldSlots f l (count - 1) (f b a)

/-- The write of slot `i`. -/
def writeSlot {n : Nat} (v : Vector α n) (i : Int) (a : α) : Option (Vector α n) :=
  if 0 ≤ i ∧ i < n then some (v.setIfInBounds i.toNat a) else none

/-- The `memmove` that closes the gap at slot `i`: the slots in use behind it move down by one. -/
def moveDown {n : Nat} (v : Vector α n) (i count : Nat) : Vector α n :=
  Vector.ofFn fun k =>
    have := k.isLt
    if h : i ≤ k.val ∧ k.val + 1 < count ∧ k.val + 1 < n then v[k.val + 1] else v[k]

theorem take_toNat_succ {count : Int} (h : ¬ count ≤ 0) (a : α) (l : List α) :
    (a :: l).take count.toNat = a :: l.take (count - 1).toNat := by
  have : count.toNat = (count - 1).toNat + 1 := by omega
  rw [this, List.take_succ_cons]

theorem scanSlots_eq (p : α → Bool) : ∀ (l : List α) {count : Int}, count ≤ l.length →
    scanSlots p l count = some ((l.take count.toNat).findIdx? p)
  | [], count, h => by
      rw [scanSlots, if_pos (by simpa using h)]
      simp
  | a :: l, count, h => by
      unfold scanSlots
      split
      · rename_i hc
        simp [Int.toNat_of_nonpos hc]
      · rename_i hc
        rw [take_toNat_succ hc, List.findIdx?_cons]
        split
        · rfl
        · have hl : count - 1 ≤ l.length := by
            rw [List.length_cons] at h
            omega
          rw [scanSlots_eq p l hl, Option.map_some]

theorem foldSlots_eq (f : β → α → β) : ∀ (l : List α) {count : Int} (b : β), count ≤ l.length →
    foldSlots f l count b = some ((l.take count.toNat).foldl f b)
  | [], count, b, h => by
      rw [foldSlots, if_pos (by simpa using h)]
      simp
  | a :: l, count, b, h => by
      unfold foldSlots
      split
      · rename_i hc
        simp [Int.toNat_of_nonpos hc]
      · rename_i hc
        have hl : count - 1 ≤ l.length := by
          rw [List.length_cons] at h
          omega
        rw [take_toNat_succ hc, List.foldl_cons, foldSlots_eq f l (f b a) hl]

/-! ## Scans that fail -/

/-- A key that no entry has, where there are more keys than entries. -/
theorem exists_fresh {κ : Type} (key : α → κ) (ofNat : Nat → κ) (l : List α)
    (hinj : ∀ i j, i ≤ l.length → j ≤ l.length → ofNat i = ofNat j → i = j) :
    ∃ k, ∀ a ∈ l, key a ≠ k := by
  by_contra hall
  have hsub : (List.range (l.length + 1)).map ofNat ⊆ l.map key := fun k _ => by
    by_contra hk
    exact hall ⟨k, fun a ha e => hk (List.mem_map.mpr ⟨a, ha, e⟩)⟩
  have hnodup : ((List.range (l.length + 1)).map ofNat).Nodup := by
    refine List.Nodup.map_on (fun i hi j hj e => ?_) List.nodup_range
    rw [List.mem_range] at hi hj
    exact hinj i j (Nat.le_of_lt_succ hi) (Nat.le_of_lt_succ hj) e
  have hle := (List.subperm_of_subset hnodup hsub).length_le
  rw [List.length_map, List.length_range, List.length_map] at hle
  exact absurd hle (Nat.not_succ_le_self _)

/-- A scan for an absent key runs past the array. -/
theorem scanSlots_past {p : α → Bool} : ∀ {l : List α} {count : Int},
    (l.length : Int) < count → (∀ a ∈ l, p a = false) → scanSlots p l count = none
  | [], count, hc, _ => by
      rw [scanSlots, if_neg]
      simpa using hc
  | a :: l, count, hc, hp => by
      rw [List.length_cons] at hc
      rw [scanSlots, if_neg (by omega), if_neg (by simp [hp a List.mem_cons_self]),
        scanSlots_past (by omega) fun b hb => hp b (List.mem_cons_of_mem _ hb)]
      rfl

/-- A scan over no slots finds nothing. -/
theorem scanSlots_nonpos (p : α → Bool) (l : List α) {count : Int} (h : count ≤ 0) :
    scanSlots p l count = some none := by
  cases l <;> rw [scanSlots, if_pos h]

/-! ## The slots in use -/

section Used

variable {n : Nat} {v : Vector α n} {count : Int}

theorem length_used (h : count ≤ n) : (used v count).length = count.toNat := by
  rw [used, List.length_take, Vector.length_toList]
  omega

theorem used_set (i : Nat) (a : α) :
    used (v.setIfInBounds i a) count = (used v count).set i a := by
  rw [used, Vector.toList_setIfInBounds, used, List.take_set]

/-- The slot a scan has found. -/
theorem used_findIdx {p : α → Bool} {i : Nat} (h : (used v count).findIdx? p = some i) :
    ∃ a, v[i]? = some a ∧ (used v count)[i]? = some a ∧ p a = true := by
  obtain ⟨hlt, hp, _⟩ := List.findIdx?_eq_some_iff_getElem.mp h
  have hi : i < count.toNat := by
    rw [used, List.length_take] at hlt
    omega
  have hget : (used v count)[i]? = some (used v count)[i] := List.getElem?_eq_getElem hlt
  refine ⟨(used v count)[i], ?_, hget, hp⟩
  rw [← Vector.getElem?_toList, ← hget]
  exact (List.getElem?_take_of_lt hi).symm

theorem writeSlot_eq {i : Int} (a : α) (h₀ : 0 ≤ i) (hn : i < n) :
    writeSlot v i a = some (v.setIfInBounds i.toNat a) := if_pos ⟨h₀, hn⟩

/-- Writing the first free slot and counting it appends to the slots in use. -/
theorem used_set_end (a : α) (h₀ : 0 ≤ count) (hn : count < n) :
    used (v.setIfInBounds count.toNat a) (count + 1) = used v count ++ [a] := by
  have hlen : count.toNat < v.toList.length := by
    rw [Vector.length_toList]
    omega
  have hsucc : (count + 1).toNat = count.toNat + 1 := by omega
  rw [used, Vector.toList_setIfInBounds, hsucc, List.take_add_one, List.getElem?_set_self hlen,
    List.take_set_of_le (Nat.le_refl _)]
  rfl

theorem spare_set_end (a : α) (h₀ : 0 ≤ count) :
    spare (v.setIfInBounds count.toNat a) (count + 1) = (spare v count).drop 1 := by
  have hsucc : (count + 1).toNat = count.toNat + 1 := by omega
  rw [spare, Vector.toList_setIfInBounds, hsucc, List.drop_set_of_lt (Nat.lt_succ_self _), spare,
    List.drop_drop]

/-- Closing the gap removes the slot from those in use. -/
theorem used_moveDown {i : Nat} {count : Nat} (hi : i < count) (hn : count ≤ n) :
    used (moveDown v i count) ((count - 1 : Nat) : Int) = (used v (count : Int)).eraseIdx i := by
  apply List.ext_getElem?
  intro k
  unfold used
  rw [Int.toNat_natCast, Int.toNat_natCast, List.getElem?_eraseIdx, List.getElem?_take,
    List.getElem?_take, List.getElem?_take, Vector.getElem?_toList, Vector.getElem?_toList,
    Vector.getElem?_toList]
  by_cases hk : k < count - 1
  · have hkn : k < n := by omega
    have hkn' : k + 1 < n := by omega
    rw [if_pos hk, moveDown, Vector.getElem?_ofFn, dif_pos hkn]
    by_cases hik : k < i
    · rw [if_pos hik, if_pos (by omega), dif_neg (by simp only; omega), Vector.getElem?_eq_getElem hkn]
      rfl
    · rw [if_neg hik, if_pos (by omega), dif_pos (by simp only; omega),
        Vector.getElem?_eq_getElem hkn']
  · rw [if_neg hk]
    by_cases hik : k < i
    · omega
    · rw [if_neg hik, if_neg (by omega)]

theorem spare_set {i : Nat} (a : α) (hi : i < (used v count).length) :
    spare (v.setIfInBounds i a) count = spare v count := by
  have hlt : i < count.toNat := by
    rw [used, List.length_take] at hi
    omega
  rw [spare, Vector.toList_setIfInBounds, List.drop_set_of_lt hlt, spare]

end Used

end VoidOsMerger
