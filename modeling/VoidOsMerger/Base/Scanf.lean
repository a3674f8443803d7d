/-
  File:      VoidOsMerger/Base/Scanf.lean
  Subject:   THE DIRECTIVES OF `fscanf` on the bytes that are left of a file: white space, `%ns`, `%llu`
             and literal bytes.

  A conversion answers what it read and what is left, or `none` where it fails. The lemmas say what the
  conversions read of a text that was put together from words, numbers and white space.

  * `scanWord_append`, `scanUll_append` -- a word, or a decimal number, behind white space is read whole;
    `SpacedNumber` -- such a number;
  * `scanLiteral_append`, `scanLiteral_other` -- literal bytes, and where the first one differs;
  * `scanWord_shorter`, `scanUll_le`, `scanLiteral_le` -- what is left.
-/
import VoidOsMerger.Base.CText

namespace VoidOsMerger

/-! ## 1. The directives -/

/-- White space in a format. -/
def skipSpace (input : List UInt8) : List UInt8 := input.dropWhile isSpace

/-- `%ns`: white space, then at most `width` bytes up to the next white space, at least one. -/
def scanWord (width : Nat) (input : List UInt8) : Option (List UInt8 × List UInt8) :=
  let input := skipSpace input
  let word := (input.take width).takeWhile (!isSpace ·)
  if word.isEmpty then none else some (word, input.drop word.length)

/-- The value of digits behind a sign, as `strtoull` has it. -/
def ullOf (negative : Bool) (n : Nat) : UInt64 :=
  if n < 2 ^ 64 then if negative then 0 - UInt64.ofNat n else UInt64.ofNat n
  else 0xFFFFFFFFFFFFFFFF

def scanDigits (negative : Bool) (input : List UInt8) : Option (UInt64 × List UInt8) :=
  if (input.takeWhile isDigit).isEmpty then none
  else some (ullOf negative (digitsValue input), input.dropWhile isDigit)

/-- `%llu`: white space, an optional sign, digits. -/
def scanUll (input : List UInt8) : Option (UInt64 × List UInt8) :=
  match skipSpace input with
  | [] => none
  | b :: rest =>
    if b = 45 then scanDigits true rest
    else if b = 43 then scanDigits false rest
    else scanDigits false (b :: rest)

/-- Literal bytes of a format, as far as they match. -/
def scanLiteral : List UInt8 → List UInt8 → List UInt8
  | [], input => input
  | _ :: _, [] => []
  | c :: cs, b :: input => if b = c then scanLiteral cs input else b :: input

/-! ## 2. White space -/

/-- A text that does not go on with a byte of this kind. -/
def ScanStops (p : UInt8 → Bool) (text : List UInt8) : Prop := ∀ b ∈ text.head?, p b = false

theorem skipSpace_append {gap : List UInt8} (h : ∀ b ∈ gap, isSpace b = true) (text : List UInt8) :
    skipSpace (gap ++ text) = skipSpace text :=
  List.dropWhile_append_of_pos h

theorem skipSpace_stops {text : List UInt8} (h : ScanStops isSpace text) : skipSpace text = text := by
  cases text with
  | nil => rfl
  | cons b text => exact dropWhile_isSpace (h b rfl) text

theorem scanStops_skipSpace (text : List UInt8) : ScanStops isSpace (skipSpace text) := by
  intro b hb
  have h := List.head?_dropWhile_not isSpace text
  rw [show (text.dropWhile isSpace).head? = some b from hb] at h
  simpa using h

theorem skipSpace_skipSpace (text : List UInt8) : skipSpace (skipSpace text) = skipSpace text :=
  skipSpace_stops (scanStops_skipSpace text)

theorem skipSpace_length (text : List UInt8) : (skipSpace text).length ≤ text.length :=
  (List.dropWhile_sublist isSpace).length_le

/-- White space is no digit. -/
theorem scanStops_digit_of_space {text : List UInt8} (h : ∀ b ∈ text.head?, isSpace b = true) :
    ScanStops isDigit text := by
  intro b hb
  rw [Bool.eq_false_iff]
  intro hdigit
  exact absurd (h b hb) (by rw [not_isSpace_of_range (range_of_isDigit hdigit)]; exact Bool.false_ne_true)

/-- Words of a text are read as far as its parts go. -/
theorem takeWhile_part {p : UInt8 → Bool} {part text : List UInt8} (hpart : ∀ b ∈ part, p b = true)
    (htext : ScanStops p text) :
    (part ++ text).takeWhile p = part ∧ (part ++ text).dropWhile p = text := by
  have hrest : text.takeWhile p = [] ∧ text.dropWhile p = text := by
    cases text with
    | nil => exact ⟨rfl, rfl⟩
    | cons b text =>
      have hb : ¬ p b = true := by rw [htext b rfl]; exact Bool.false_ne_true
      exact ⟨List.takeWhile_cons_of_neg hb, List.dropWhile_cons_of_neg hb⟩
  rw [List.takeWhile_append_of_pos hpart, List.dropWhile_append_of_pos hpart, hrest.1, hrest.2,
    List.append_nil]
  exact ⟨rfl, rfl⟩

/-! ## 3. Words -/

theorem scanWord_skipSpace (width : Nat) (text : List UInt8) :
    scanWord width (skipSpace text) = scanWord width text := by
  unfold scanWord
  rw [skipSpace_skipSpace]

/-- A word of at most `width` bytes, up to white space. -/
theorem scanWord_append {width : Nat} {gap word text : List UInt8} (hgap : ∀ b ∈ gap, isSpace b = true)
    (hne : word ≠ []) (hword : ∀ b ∈ word, isSpace b = false) (hlen : word.length ≤ width)
    (htext : ∀ b ∈ text.head?, isSpace b = true) :
    scanWord width (gap ++ (word ++ text)) = some (word, text) := by
  have hstart : ScanStops isSpace (word ++ text) := by
    cases word with
    | nil => exact absurd rfl hne
    | cons b word =>
      intro c hc
      rw [← Option.some.inj hc]
      exact hword b List.mem_cons_self
  have hstop : ScanStops (!isSpace ·) (text.take (width - word.length)) := by
    intro b hb
    cases hk : width - word.length with
    | zero =>
      rw [hk, List.take_zero] at hb
      exact absurd hb (Option.not_mem_none b)
    | succ k =>
      rw [hk, List.head?_take, if_neg (Nat.succ_ne_zero k)] at hb
      exact congrArg Bool.not (htext b hb)
  have htake : ((word ++ text).take width).takeWhile (!isSpace ·) = word := by
    rw [List.take_append, List.take_of_length_le hlen]
    exact (takeWhile_part (fun b hb => congrArg Bool.not (hword b hb)) hstop).1
  unfold scanWord
  rw [skipSpace_append hgap, skipSpace_stops hstart]
  dsimp only
  rw [htake, if_neg (by rw [List.isEmpty_iff]; exact hne), List.drop_left]

theorem scanWord_shorter {width : Nat} {input word rest : List UInt8}
    (h : scanWord width input = some (word, rest)) : rest.length < input.length := by
  unfold scanWord at h
  dsimp only at h
  split at h
  · exact absurd h (Option.some_ne_none _).symm
  · rename_i hne
    obtain ⟨rfl, rfl⟩ := Prod.mk.inj (Option.some.inj h)
    have hword : 0 < (((skipSpace input).take width).takeWhile (!isSpace ·)).length :=
      List.length_pos_iff.mpr fun e => hne (List.isEmpty_iff.mpr e)
    have hle : (((skipSpace input).take width).takeWhile (!isSpace ·)).length ≤
        (skipSpace input).length :=
      ((List.takeWhile_sublist _).trans (List.take_sublist _ _)).length_le
    have := skipSpace_length input
    rw [List.length_drop]
    omega

/-! ## 4. Numbers -/

/-- A decimal number that fits, up to a byte that is no digit. -/
theorem scanUll_append {gap digits text : List UInt8} (hgap : ∀ b ∈ gap, isSpace b = true)
    (hne : digits ≠ []) (hdigits : ∀ b ∈ digits, isDigit b = true) (hfit : digitsValue digits < 2 ^ 64)
    (htext : ScanStops isDigit text) :
    scanUll (gap ++ (digits ++ text)) = some (UInt64.ofNat (digitsValue digits), text) := by
  obtain ⟨htake, hdrop⟩ := takeWhile_part hdigits htext
  have hvalue : digitsValue (digits ++ text) = digitsValue digits := by
    unfold digitsValue
    rw [htake, List.takeWhile_eq_self_iff.mpr hdigits]
  have hscan : scanDigits false (digits ++ text) =
      some (UInt64.ofNat (digitsValue digits), text) := by
    unfold scanDigits ullOf
    rw [htake, hvalue, hdrop, if_neg (by rw [List.isEmpty_iff]; exact hne), if_pos hfit,
      if_neg Bool.false_ne_true]
  cases digits with
  | nil => exact absurd rfl hne
  | cons b digits =>
    have hb := range_of_isDigit (hdigits b List.mem_cons_self)
    have hsign : ∀ c : UInt8, c.toNat < 48 → b ≠ c := by
      rintro c hc rfl
      omega
    have hstart : skipSpace (gap ++ (b :: digits ++ text)) = b :: (digits ++ text) := by
      rw [skipSpace_append hgap]
      exact dropWhile_isSpace (not_isSpace_of_range hb) _
    unfold scanUll
    rw [hstart]
    dsimp only
    rw [if_neg (hsign 45 (by decide)), if_neg (hsign 43 (by decide))]
    exact hscan

theorem plain_of_all {word : List UInt8} (h : word.all (!isSpace ·) = true) :
    ∀ b ∈ word, isSpace b = false := fun b hb => (Bool.not_eq_true' _).mp (List.all_eq_true.mp h b hb)

/-- A decimal number that fits, behind white space. -/
structure SpacedNumber where
  gap : List UInt8
  gap_nonempty : gap ≠ []
  gap_space : ∀ b ∈ gap, isSpace b = true
  digits : List UInt8
  digits_nonempty : digits ≠ []
  digits_all : ∀ b ∈ digits, isDigit b = true
  digits_fit : digitsValue digits < 2 ^ 64

theorem blank_nonempty : ([32] : List UInt8) ≠ [] := List.cons_ne_nil _ _

theorem blank_space : ∀ b ∈ ([32] : List UInt8), isSpace b = true := List.all_eq_true.mp rfl

/-- The decimal digits of a number that fits. -/
def isNumeral (digits : List UInt8) : Bool :=
  !digits.isEmpty && digits.all isDigit && digitsValue digits < 2 ^ 64

theorem isNumeral_iff {digits : List UInt8} : isNumeral digits = true ↔
    (digits ≠ [] ∧ ∀ b ∈ digits, isDigit b = true) ∧ digitsValue digits < 2 ^ 64 := by
  unfold isNumeral
  rw [Bool.and_eq_true, Bool.and_eq_true, List.all_eq_true, decide_eq_true_eq]
  simp

namespace SpacedNumber

/-- A numeral behind one blank. -/
def ofNumeral (digits : List UInt8) (h : isNumeral digits = true) : SpacedNumber where
  gap := [32]
  gap_nonempty := blank_nonempty
  gap_space := blank_space
  digits := digits
  digits_nonempty := (isNumeral_iff.mp h).1.1
  digits_all := (isNumeral_iff.mp h).1.2
  digits_fit := (isNumeral_iff.mp h).2

def text (n : SpacedNumber) : List UInt8 := n.gap ++ n.digits

def value (n : SpacedNumber) : UInt64 := UInt64.ofNat (digitsValue n.digits)

theorem head_space (n : SpacedNumber) (rest : List UInt8) :
    ∀ b ∈ (n.text ++ rest).head?, isSpace b = true := by
  intro b hb
  rw [text, List.append_assoc, List.head?_append_of_ne_nil _ n.gap_nonempty] at hb
  exact n.gap_space b (List.mem_of_mem_head? hb)

theorem scan (n : SpacedNumber) {rest : List UInt8} (hrest : ScanStops isDigit rest) :
    scanUll (n.text ++ rest) = some (n.value, rest) := by
  rw [text, List.append_assoc]
  exact scanUll_append n.gap_space n.digits_nonempty n.digits_all n.digits_fit hrest

end SpacedNumber

theorem scanDigits_le {negative : Bool} {input rest : List UInt8} {n : UInt64}
    (h : scanDigits negative input = some (n, rest)) : rest.length ≤ input.length := by
  unfold scanDigits at h
  split at h
  · exact absurd h (Option.some_ne_none _).symm
  · rw [← (Prod.mk.inj (Option.some.inj h)).2]
    exact (List.dropWhile_sublist _).length_le

theorem scanUll_le {input rest : List UInt8} {n : UInt64} (h : scanUll input = some (n, rest)) :
    rest.length ≤ input.length := by
  have hskip := skipSpace_length input
  unfold scanUll at h
  split at h
  · exact absurd h (Option.some_ne_none _).symm
  · rename_i b input' hinput
    rw [hinput, List.length_cons] at hskip
    split at h
    · exact Nat.le_trans (scanDigits_le h) (by omega)
    · split at h
      · exact Nat.le_trans (scanDigits_le h) (by omega)
      · exact Nat.le_trans (scanDigits_le h) (by rw [List.length_cons]; omega)

/-! ## 5. Literal bytes -/

theorem scanLiteral_append (literal text : List UInt8) : scanLiteral literal (literal ++ text) = text := by
  induction literal with
  | nil => rfl
  | cons c literal ih => exact (if_pos rfl).trans ih

/-- Where the first byte differs nothing is taken. -/
theorem scanLiteral_other {c : UInt8} {text : List UInt8} (h : ∀ b ∈ text.head?, b ≠ c)
    (literal : List UInt8) : scanLiteral (c :: literal) text = text := by
  cases text with
  | nil => rfl
  | cons b text => exact if_neg (h b rfl)

theorem scanLiteral_le : ∀ literal input : List UInt8, (scanLiteral literal input).length ≤ input.length
  | [], _ => Nat.le_refl _
  | _ :: _, [] => Nat.le_refl _
  | c :: literal, b :: input => by
      unfold scanLiteral
      split
      · exact Nat.le_succ_of_le (scanLiteral_le literal input)
      · exact Nat.le_refl _

end VoidOsMerger
