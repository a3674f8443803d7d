/-
  File:      VoidOsMerger/Base/Utf8.lean
  Subject:   UTF-8 WITH REPLACEMENT: decoding that never fails.

  The decoder reads one byte at a time. A byte that cannot continue the sequence read so far ends it
  with U+FFFD and is read again as a first byte; a sequence cut off by the end is one U+FFFD.
-/
import Mathlib.Init

namespace VoidOsMerger

/-- What the decoder waits for: nothing, or `need` more bytes of a sequence with value `acc` so far,
    the next of them between `lo` and `hi`. -/
inductive Utf8State
  | idle
  | pending (need : Nat) (acc : Nat) (lo hi : UInt8)
  deriving DecidableEq, Repr

/-- U+FFFD -/
def replacementChar : Char := Char.ofNat 0xFFFD

/-- A first byte: the characters it completes, and what to wait for. The ranges leave out overlong
    forms, surrogates and what lies beyond U+10FFFF. -/
def utf8First (b : UInt8) : List Char × Utf8State :=
  if b < 0x80 then ([Char.ofNat b.toNat], .idle)
  else if b < 0xC2 then ([replacementChar], .idle)
  else if b < 0xE0 then ([], .pending 1 (b.toNat - 0xC0) 0x80 0xBF)
  else if b = 0xE0 then ([], .pending 2 0 0xA0 0xBF)
  else if b = 0xED then ([], .pending 2 0xD 0x80 0x9F)
  else if b < 0xF0 then ([], .pending 2 (b.toNat - 0xE0) 0x80 0xBF)
  else if b = 0xF0 then ([], .pending 3 0 0x90 0xBF)
  else if b < 0xF4 then ([], .pending 3 (b.toNat - 0xF0) 0x80 0xBF)
  else if b = 0xF4 then ([], .pending 3 4 0x80 0x8F)
  else ([replacementChar], .idle)

/-- One byte. -/
def utf8Step : Utf8State → UInt8 → List Char × Utf8State
  | .idle, b => utf8First b
  | .pending need acc lo hi, b =>
    if lo ≤ b ∧ b ≤ hi then
      let acc := acc * 64 + (b.toNat - 0x80)
      if need ≤ 1 then ([Char.ofNat acc], .idle) else ([], .pending (need - 1) acc 0x80 0xBF)
    else
      let r := utf8First b
      (replacementChar :: r.1, r.2)

/-- The rest of the text from a state on. -/
def utf8Chars : Utf8State → List UInt8 → List Char
  | .idle, [] => []
  | .pending .., [] => [replacementChar]
  | s, b :: bs => (utf8Step s b).1 ++ utf8Chars (utf8Step s b).2 bs

/-- `bytes.decode("utf-8", errors="replace")` -/
def utf8DecodeReplace (bytes : List UInt8) : String :=
  String.ofList (utf8Chars .idle bytes)

/-- The rest of the text from a state on; `none` where the decoding with replacement would put U+FFFD
    for bytes that are not UTF-8. -/
def utf8CharsStrict : Utf8State → List UInt8 → Option (List Char)
  | .idle, [] => some []
  | .pending .., [] => none
  | .idle, b :: bs =>
    if (0x80 ≤ b ∧ b < 0xC2) ∨ 0xF4 < b then none
    else (utf8CharsStrict (utf8First b).2 bs).map ((utf8First b).1 ++ ·)
  | .pending need acc lo hi, b :: bs =>
    if lo ≤ b ∧ b ≤ hi then
      let r := utf8Step (.pending need acc lo hi) b
      (utf8CharsStrict r.2 bs).map (r.1 ++ ·)
    else none

/-- `bytes.decode()`; `none` is a `UnicodeDecodeError`. -/
def utf8Decode (bytes : List UInt8) : Option (List Char) := utf8CharsStrict .idle bytes

/-- ASCII bytes as characters. -/
def asciiText (bytes : List UInt8) : String :=
  String.ofList (bytes.map fun b => Char.ofNat b.toNat)

theorem utf8Chars_ascii : ∀ {bytes : List UInt8}, (∀ b ∈ bytes, b < 0x80) →
    utf8Chars .idle bytes = bytes.map fun b => Char.ofNat b.toNat
  | [], _ => rfl
  | b :: bs, h => by
      have hb : utf8Step .idle b = ([Char.ofNat b.toNat], .idle) := by
        show utf8First b = _
        rw [utf8First, if_pos (h b List.mem_cons_self)]
      rw [utf8Chars, hb, utf8Chars_ascii fun x hx => h x (List.mem_cons_of_mem b hx)]
      rfl

/-- **ASCII decodes to itself.** -/
theorem utf8DecodeReplace_ascii {bytes : List UInt8} (h : ∀ b ∈ bytes, b < 0x80) :
    utf8DecodeReplace bytes = asciiText bytes := by
  rw [utf8DecodeReplace, utf8Chars_ascii h]
  rfl

-- an e with an acute accent, a byte that starts nothing, a sequence that is cut off
example : utf8Chars .idle [0xC3, 0xA9, 0xFF, 0xE2, 0x82] =
    [Char.ofNat 0xE9, replacementChar, replacementChar] := by decide

end VoidOsMerger
