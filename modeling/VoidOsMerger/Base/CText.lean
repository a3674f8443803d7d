/-
  File:      VoidOsMerger/Base/CText.lean
  Subject:   C strings, fixed `char` buffers, and `double` arithmetic as a parameter.

  * `CStr` -- what a `const char *` points to, up to its NUL: bytes, none of them NUL;
  * `NulBuf n` -- a `char buf[n]` that holds a NUL somewhere (every reader of it as a string stops
    inside it); `NulBuf.str` is the string it holds, `NulBuf.tail` the string at an offset;
  * `NulBuf.copy` -- `strncpy(dst, src, n)` into a zero-filled `char dst[n + 1]`;
  * `CStr.take`, `CStr.drop` -- the string after a NUL is written into it, and from a later byte on;
    `CStr.byte` -- one of its bytes or the NUL;
  * `strcmp`, `strchr`, `atoi`, `strtoul` -- as the C library documents them;
  * `trimmed` -- a text without the white space around it;
  * `DoubleArith` -- the `double` operations a program uses, as an interface. A statement over an
    arbitrary instance holds whatever the rounding; `Option ℚ` is the exact instance, with `none`
    for what a division by zero gives (every comparison with it is false).
-/
import Mathlib.Algebra.GroupWithZero.Nat
import Mathlib.Algebra.Ring.Int.Defs
import Mathlib.Data.Rat.Defs
import Mathlib.Data.List.TakeWhile
import Mathlib.Data.List.DropRight

namespace VoidOsMerger

/-! ## 1. Strings -/

/-- The bytes a `const char *` points to, up to its NUL. -/
structure CStr where
  bytes : List UInt8
  noNul : ∀ b ∈ bytes, b ≠ 0
  deriving DecidableEq

theorem noNul_nil : ∀ b ∈ ([] : List UInt8), b ≠ 0 := fun _ h => absurd h List.not_mem_nil

@[ext] theorem CStr.ext {s t : CStr} (h : s.bytes = t.bytes) : s = t := by
  cases s
  cases t
  cases h
  rfl

/-- `strlen`. -/
def CStr.strlen (s : CStr) : Nat := s.bytes.length

/-- `strcmp` on the bytes before the NULs: the difference of the first bytes that differ, the
    terminating NUL counting as byte 0. -/
def strcmpBytes : List UInt8 → List UInt8 → Int
  | [], [] => 0
  | [], b :: _ => -(b.toNat : Int)
  | a :: _, [] => a.toNat
  | a :: as, b :: bs => if a = b then strcmpBytes as bs else (a.toNat : Int) - b.toNat

def strcmp (s t : CStr) : Int := strcmpBytes s.bytes t.bytes

theorem toNat_pos_of_ne_zero {b : UInt8} (h : b ≠ 0) : 0 < b.toNat := by
  refine Nat.pos_of_ne_zero fun e => h ?_
  exact UInt8.toNat_inj.mp (by simpa using e)

theorem strcmpBytes_eq_zero_iff : ∀ (s t : List UInt8), (∀ b ∈ s, b ≠ 0) → (∀ b ∈ t, b ≠ 0) →
    (strcmpBytes s t = 0 ↔ s = t)
  | [], [], _, _ => by simp [strcmpBytes]
  | [], b :: t, _, ht => by
      have hb := toNat_pos_of_ne_zero (ht b List.mem_cons_self)
      simp only [strcmpBytes, reduceCtorEq, iff_false]
      omega
  | a :: s, [], hs, _ => by
      have ha := toNat_pos_of_ne_zero (hs a List.mem_cons_self)
      simp only [strcmpBytes, reduceCtorEq, iff_false]
      omega
  | a :: s, b :: t, hs, ht => by
      have ih := strcmpBytes_eq_zero_iff s t (fun x hx => hs x (List.mem_cons_of_mem _ hx))
        (fun x hx => ht x (List.mem_cons_of_mem _ hx))
      by_cases hab : a = b
      · subst hab
        simp [strcmpBytes, ih]
      · have hne : a.toNat ≠ b.toNat := fun e => hab (UInt8.toNat_inj.mp e)
        simp only [strcmpBytes, hab, if_false, List.cons.injEq, false_and, iff_false]
        omega

/-- **`strcmp` answers 0 exactly on equal strings.** -/
@[simp] theorem strcmp_eq_zero_iff (s t : CStr) : strcmp s t = 0 ↔ s = t := by
  unfold strcmp
  rw [strcmpBytes_eq_zero_iff s.bytes t.bytes s.noNul t.noNul]
  exact ⟨CStr.ext, fun e => e ▸ rfl⟩

/-- `s[n] = '\0'` -/
def CStr.take (n : Nat) (s : CStr) : CStr :=
  ⟨s.bytes.take n, fun b hb => s.noNul b (List.mem_of_mem_take hb)⟩

/-- `s + n` -/
def CStr.drop (n : Nat) (s : CStr) : CStr :=
  ⟨s.bytes.drop n, fun b hb => s.noNul b (List.mem_of_mem_drop hb)⟩

/-- The bytes of an ASCII text. -/
def asciiBytes (text : String) : List UInt8 := text.toList.map fun c => UInt8.ofNat c.toNat

/-- `s[i]`, the NUL at the end included. -/
def CStr.byte (s : CStr) (i : Nat) : UInt8 := s.bytes.getD i 0

theorem CStr.byte_eq_zero_iff (s : CStr) (i : Nat) : s.byte i = 0 ↔ s.bytes.length ≤ i := by
  unfold CStr.byte
  rw [List.getD_eq_getElem?_getD]
  cases h : s.bytes[i]? with
  | none => simpa using h
  | some b =>
    obtain ⟨hi, rfl⟩ := List.getElem?_eq_some_iff.mp h
    exact iff_of_false (s.noNul _ (List.getElem_mem hi)) (Nat.not_le.mpr hi)

/-- `strchr`, for a byte that is not NUL: the offset of its first occurrence. -/
def strchr (s : CStr) (c : UInt8) : Option Nat := s.bytes.findIdx? (· == c)

theorem strchr_of_append {s : CStr} {c : UInt8} {l t : List UInt8} (hs : s.bytes = l ++ c :: t)
    (hl : c ∉ l) : strchr s c = some l.length := by
  have hnone : l.findIdx? (· == c) = none :=
    List.findIdx?_eq_none_iff.mpr fun b hb => beq_eq_false_iff_ne.mpr fun h => hl (h ▸ hb)
  rw [strchr, hs, List.findIdx?_append, hnone, List.findIdx?_cons, if_pos (beq_self_eq_true c),
    Option.none_or, Option.map_some, Nat.zero_add]

/-- Nothing before the first occurrence is one. -/
theorem strchr_eq_some {s : CStr} {c : UInt8} {n : Nat} (h : strchr s c = some n) :
    s.bytes[n]? = some c ∧ c ∉ s.bytes.take n := by
  obtain ⟨hlt, hc, hbefore⟩ := List.findIdx?_eq_some_iff_getElem.mp h
  refine ⟨?_, fun hmem => ?_⟩
  · rw [List.getElem?_eq_getElem hlt, beq_iff_eq.mp hc]
  · obtain ⟨i, hi, rfl⟩ := List.getElem_of_mem hmem
    rw [List.length_take, Nat.lt_min] at hi
    exact hbefore i hi.1 (by simp)

theorem strchr_eq_none {s : CStr} {c : UInt8} (h : strchr s c = none) : c ∉ s.bytes := by
  intro hmem
  exact absurd (List.findIdx?_eq_none_iff.mp h c hmem) (by simp)

/-! ## 2. Buffers -/

/-- The string at the start of some bytes, up to their first NUL. -/
def CStr.upTo (l : List UInt8) : CStr :=
  ⟨l.takeWhile (· ≠ 0), fun x hx => by simpa using List.mem_takeWhile_imp hx⟩

/-- Nothing after a NUL belongs to the string. -/
theorem CStr.upTo_append_zero (l t : List UInt8) : CStr.upTo (l ++ 0 :: t) = CStr.upTo l := by
  apply CStr.ext
  show (l ++ 0 :: t).takeWhile (· ≠ 0) = l.takeWhile (· ≠ 0)
  induction l with
  | nil => simp
  | cons b l ih =>
    rw [List.cons_append, List.takeWhile_cons, List.takeWhile_cons, ih]

/-- A `char buf[n]` that holds a NUL. -/
structure NulBuf (n : Nat) where
  bytes : List UInt8
  size : bytes.length = n
  nul : (0 : UInt8) ∈ bytes
  deriving DecidableEq

/-- The string that starts at offset `k` of the buffer. -/
def NulBuf.tail {n : Nat} (b : NulBuf n) (k : Nat) : CStr :=
  CStr.upTo (b.bytes.drop k)

/-- The string a buffer holds. -/
def NulBuf.str {n : Nat} (b : NulBuf n) : CStr := b.tail 0

theorem takeWhile_length_lt : ∀ (l : List UInt8), (0 : UInt8) ∈ l →
    (l.takeWhile (· ≠ 0)).length < l.length
  | [], h => absurd h List.not_mem_nil
  | a :: l, h => by
      by_cases ha : a = 0
      · simp [ha]
      · have hl : (0 : UInt8) ∈ l := by
          rcases List.mem_cons.mp h with e | h'
          · exact absurd e.symm ha
          · exact h'
        have ih := takeWhile_length_lt l hl
        simp only [ne_eq, ha, not_false_eq_true, decide_true, List.takeWhile_cons_of_pos,
          List.length_cons]
        simp only [ne_eq] at ih
        omega

/-- The string in a `char buf[n]` is shorter than `n`. -/
theorem NulBuf.strlen_lt {n : Nat} (b : NulBuf n) : b.str.strlen < n := by
  have h := takeWhile_length_lt b.bytes b.nul
  rw [b.size] at h
  simpa [NulBuf.str, NulBuf.tail, CStr.upTo, CStr.strlen] using h

/-- `strncpy(dst, s, n)` into a zero-filled `char dst[n + 1]`: at most `n` bytes are copied and the
    last byte stays NUL. -/
def NulBuf.copy (n : Nat) (s : CStr) : NulBuf (n + 1) where
  bytes := s.bytes.take n ++ List.replicate (n + 1 - (s.bytes.take n).length) 0
  size := by
    rw [List.length_append, List.length_replicate, List.length_take]
    omega
  nul := by
    rw [List.mem_append]
    refine Or.inr (List.mem_replicate.mpr ⟨?_, rfl⟩)
    rw [List.length_take]
    omega

theorem takeWhile_append_zeros (l : List UInt8) (hl : ∀ b ∈ l, b ≠ 0) (k : Nat) :
    (l ++ List.replicate k 0).takeWhile (· ≠ 0) = l := by
  rw [List.takeWhile_append_of_pos (by simpa using hl)]
  cases k <;> simp [List.replicate_succ]

/-- The copy holds the string, cut at `n` bytes. -/
theorem NulBuf.copy_str_bytes (n : Nat) (s : CStr) : (NulBuf.copy n s).str.bytes = s.bytes.take n := by
  show ((NulBuf.copy n s).bytes.drop 0).takeWhile (· ≠ 0) = s.bytes.take n
  rw [List.drop_zero]
  exact takeWhile_append_zeros _ (fun b hb => s.noNul b (List.mem_of_mem_take hb)) _

/-- A string that fits is copied whole. -/
theorem NulBuf.copy_str {n : Nat} {s : CStr} (h : s.strlen ≤ n) : (NulBuf.copy n s).str = s := by
  apply CStr.ext
  rw [NulBuf.copy_str_bytes]
  exact List.take_of_length_le h

/-- A buffer's string is copied whole into a buffer of the same size. -/
@[simp] theorem NulBuf.copy_str_self {n : Nat} (b : NulBuf (n + 1)) :
    (NulBuf.copy n b.str).str = b.str :=
  NulBuf.copy_str (Nat.lt_succ_iff.mp b.strlen_lt)

/-! ## 3. `atoi` and `strtoul` -/

/-- `isspace` in the C locale. -/
def isSpace (b : UInt8) : Bool := b == 32 || (9 ≤ b && b ≤ 13)

/-- A text without the white space at its ends. -/
def trimmed (l : List UInt8) : List UInt8 := (l.dropWhile isSpace).rdropWhile isSpace

theorem rdropWhile_append_of_pos {α : Type} {p : α → Bool} (x : List α) {w : List α}
    (hw : ∀ b ∈ w, p b = true) : (x ++ w).rdropWhile p = x.rdropWhile p := by
  unfold List.rdropWhile
  rw [List.reverse_append, List.dropWhile_append_of_pos fun b hb => hw b (List.mem_reverse.mp hb)]

/-- Dropping from the end stops at the latest at an element that stays. -/
theorem rdropWhile_append_cons {α : Type} {p : α → Bool} (x : List α) {b : α} (hb : p b = false)
    (l : List α) : (x ++ b :: l).rdropWhile p = x ++ b :: l.rdropWhile p := by
  induction l using List.reverseRecOn with
  | nil => exact List.rdropWhile_concat_neg p x b (by simp [hb])
  | append_singleton l c ih =>
    rw [← List.cons_append, ← List.append_assoc]
    by_cases hc : p c = true
    · rw [List.rdropWhile_concat_pos p _ c hc, List.rdropWhile_concat_pos p _ c hc, ih]
    · rw [List.rdropWhile_concat_neg p _ c hc, List.rdropWhile_concat_neg p _ c hc,
        List.append_assoc, List.cons_append]

section Trimmed

variable {x w : List UInt8}

theorem trimmed_prepend (hw : ∀ b ∈ w, isSpace b = true) : trimmed (w ++ x) = trimmed x := by
  unfold trimmed
  rw [List.dropWhile_append_of_pos hw]

theorem trimmed_append (hw : ∀ b ∈ w, isSpace b = true) : trimmed (x ++ w) = trimmed x := by
  unfold trimmed
  rw [List.dropWhile_append]
  split
  · rename_i hx
    rw [List.dropWhile_eq_nil_iff.mpr hw, List.isEmpty_iff.mp hx]
  · rw [rdropWhile_append_of_pos _ hw]

theorem trimmed_rdropWhile : trimmed (x.rdropWhile isSpace) = trimmed x := by
  have hsplit : x.rdropWhile isSpace ++ x.rtakeWhile isSpace = x := List.rdropWhile_append_rtakeWhile
  conv_rhs => rw [← hsplit]
  rw [trimmed_append fun _ => List.mem_rtakeWhile_imp]

/-- A text that neither starts nor ends with white space is left as it is. -/
theorem trimmed_eq_self (hfirst : ∀ b ∈ x.head?, isSpace b = false)
    (hlast : ∀ b ∈ x.getLast?, isSpace b = false) : trimmed x = x := by
  have hdrop : x.dropWhile isSpace = x := by
    cases x with
    | nil => rfl
    | cons b l => exact List.dropWhile_cons_of_neg (by simp [hfirst b rfl])
  unfold trimmed
  rw [hdrop, List.rdropWhile_eq_self_iff]
  intro hne
  rw [hlast _ (List.getLast?_eq_some_getLast hne)]
  exact Bool.false_ne_true

end Trimmed

/-- `isdigit`. -/
def isDigit (b : UInt8) : Bool := 48 ≤ b && b ≤ 57

/-- The leading decimal digits of a string, as a number. -/
def digitsValue (l : List UInt8) : Nat :=
  (l.takeWhile isDigit).foldl (fun n b => 10 * n + (b.toNat - 48)) 0

/-- `atoi`: white space, an optional sign, digits. Where the value is not an `int` the C result is
    undefined; the model returns the number itself. -/
def atoi (s : CStr) : Int :=
  match s.bytes.dropWhile isSpace with
  | [] => 0
  | b :: l =>
    if b = 45 then -(digitsValue l : Int)
    else if b = 43 then digitsValue l
    else digitsValue (b :: l)

/-- From the digits on no byte is white space. -/
theorem not_isSpace_of_range {b : UInt8} (h : 48 ≤ b.toNat) : isSpace b = false := by
  have hne : (b == 32) = false := by
    rw [beq_eq_false_iff_ne]
    rintro rfl
    exact absurd h (by decide)
  have hgt : decide (b ≤ 13) = false := by
    rw [decide_eq_false_iff_not, UInt8.le_iff_toNat_le]
    exact Nat.not_le.mpr (Nat.lt_of_lt_of_le (by decide) h)
  rw [isSpace, hne, hgt, Bool.and_false, Bool.or_false]

theorem dropWhile_isSpace {b : UInt8} (h : isSpace b = false) (l : List UInt8) :
    (b :: l).dropWhile isSpace = b :: l :=
  List.dropWhile_cons_of_neg (by rw [h]; exact Bool.false_ne_true)

/-- `atoi` of a string that starts with neither white space nor a sign. -/
theorem atoi_unsigned {s : CStr} {b : UInt8} {l : List UInt8} (hs : s.bytes = b :: l)
    (hb : 48 ≤ b.toNat) : atoi s = digitsValue (b :: l) := by
  have hsign : ∀ c : UInt8, c.toNat < 48 → b ≠ c := by
    rintro c hc rfl
    omega
  unfold atoi
  rw [hs, dropWhile_isSpace (not_isSpace_of_range hb)]
  dsimp only
  rw [if_neg (hsign 45 (by decide)), if_neg (hsign 43 (by decide))]

/-- `strtoul(s, NULL, 10)` with an `unsigned long` of 64 bits: a value that does not fit gives the
    largest one, a sign is applied to the unsigned value. -/
def strtoul (s : CStr) : UInt64 :=
  let fit (n : Nat) : Option UInt64 := if n < 2 ^ 64 then some (UInt64.ofNat n) else none
  let ulongMax : UInt64 := 0xFFFFFFFFFFFFFFFF
  match s.bytes.dropWhile isSpace with
  | [] => 0
  | b :: l =>
    if b = 45 then ((fit (digitsValue l)).map fun v => 0 - v).getD ulongMax
    else if b = 43 then (fit (digitsValue l)).getD ulongMax
    else (fit (digitsValue (b :: l))).getD ulongMax

theorem range_of_isDigit {b : UInt8} (h : isDigit b = true) : 48 ≤ b.toNat := by
  have hle : 48 ≤ b := of_decide_eq_true (Bool.and_eq_true_iff.mp h).1
  exact UInt8.le_iff_toNat_le.mp hle

/-- `strtoul` of a decimal number that fits. -/
theorem strtoul_decimal {s : CStr} (hs : s.bytes ≠ []) (hdigits : ∀ b ∈ s.bytes, isDigit b = true)
    (hfit : digitsValue s.bytes < 2 ^ 64) : (strtoul s).toNat = digitsValue s.bytes := by
  cases hbytes : s.bytes with
  | nil => exact absurd hbytes hs
  | cons b l =>
    rw [hbytes] at hdigits hfit
    have hb := range_of_isDigit (hdigits b List.mem_cons_self)
    have hsign : ∀ c : UInt8, c.toNat < 48 → b ≠ c := by
      rintro c hc rfl
      omega
    unfold strtoul
    rw [hbytes, dropWhile_isSpace (not_isSpace_of_range hb)]
    dsimp only
    rw [if_neg (hsign 45 (by decide)), if_neg (hsign 43 (by decide)), if_pos hfit, Option.getD_some]
    exact UInt64.toNat_ofNat_of_lt' hfit

/-- `(uint32_t)n` for an `int`. -/
def uint32OfInt (n : Int) : UInt32 := UInt32.ofNat (n % 2 ^ 32).toNat

theorem uint32OfInt_toNat {n : Int} (h₀ : 0 ≤ n) (h₁ : n < 2 ^ 32) : (uint32OfInt n).toNat = n := by
  have hmod : n % 2 ^ 32 = n := Int.emod_eq_of_lt h₀ h₁
  have hlt : n.toNat < 2 ^ 32 := by omega
  rw [uint32OfInt, hmod, UInt32.toNat_ofNat_of_lt' hlt]
  exact Int.toNat_of_nonneg h₀

/-- `(uint64_t)n` for an `int`. -/
def uint64OfInt (n : Int) : UInt64 := UInt64.ofNat (n % 2 ^ 64).toNat

theorem uint64OfInt_toNat {n : Int} (h₀ : 0 ≤ n) (h₁ : n < 2 ^ 64) : (uint64OfInt n).toNat = n := by
  have hmod : n % 2 ^ 64 = n := Int.emod_eq_of_lt h₀ h₁
  have hlt : n.toNat < 2 ^ 64 := by omega
  rw [uint64OfInt, hmod, UInt64.toNat_ofNat_of_lt' hlt]
  exact Int.toNat_of_nonneg h₀

/-! ## 4. `double` arithmetic -/

/-- The `double` operations as an interface: conversion of an `int`, `+`, `*`, `/`, `>`, `>=`. -/
class DoubleArith (F : Type) where
  ofInt : Int → F
  add : F → F → F
  mul : F → F → F
  div : F → F → F
  gt : F → F → Bool
  ge : F → F → Bool

/-- Exact arithmetic; `none` is the result of a division by zero. -/
instance : DoubleArith (Option ℚ) where
  ofInt n := some n
  add x y := do return (← x) + (← y)
  mul x y := do return (← x) * (← y)
  div x y := do
    let b ← y
    if b = 0 then none else return (← x) / b
  gt x y :=
    match x, y with
    | some a, some b => decide (b < a)
    | _, _ => false
  ge x y :=
    match x, y with
    | some a, some b => decide (b ≤ a)
    | _, _ => false

namespace DoubleArith

@[simp] theorem ofInt_exact (n : Int) : (ofInt n : Option ℚ) = some (n : ℚ) := rfl

@[simp] theorem add_exact (a b : ℚ) : add (some a) (some b) = some (a + b) := rfl

@[simp] theorem mul_exact (a b : ℚ) : mul (some a) (some b) = some (a * b) := rfl

theorem div_exact (a : ℚ) {b : ℚ} (hb : b ≠ 0) : div (some a) (some b) = some (a / b) := if_neg hb

@[simp] theorem gt_exact (a b : ℚ) : gt (some a) (some b) = decide (b < a) := rfl

@[simp] theorem ge_exact (a b : ℚ) : ge (some a) (some b) = decide (b ≤ a) := rfl

@[simp] theorem ge_none_exact (y : Option ℚ) : ge none y = false := rfl

end DoubleArith

end VoidOsMerger
