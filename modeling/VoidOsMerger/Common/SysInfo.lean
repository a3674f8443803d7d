/-
  File:      VoidOsMerger/Common/SysInfo.lean
  Subject:   THE MEMORY OF A LINUX HOST (linux_probe_memory of common/src/sys_info.c).

  `/proc/meminfo` is read with `fscanf(f, "%63s %llu kB", key, &val)` until fewer than two conversions
  succeed. A line without a unit ends the format at its literal: the two conversions have succeeded, and
  the next key is left, unless it starts with a `k`, which the literal takes.

  * `linuxProbeMemory` -- the function, from the bytes of the file;
  * `probeLoop_line` -- one line of the file;
  * **`meminfo_reads_back`** -- of a file of such lines the last total and the last free memory are read,
    whatever stands behind the first line that cannot be read.
-/
import VoidOsMerger.Base.Scanf
import VoidOsMerger.Config.Model
import Mathlib.Data.List.Induction

namespace VoidOsMerger

/-! ## 1. The function -/

/-- What the function writes. -/
structure ProbedMemory where
  totalMb : UInt64
  freeMb : UInt64
  deriving DecidableEq, Repr

/-- What the loop does with a key and a value. -/
def ProbedMemory.update (mem : ProbedMemory) (key : CStr) (val : UInt64) : ProbedMemory :=
  if strcmp key (literal "MemTotal:") = 0 then { mem with totalMb := val / 1024 }
  else if strcmp key (literal "MemAvailable:") = 0 || strcmp key (literal "MemFree:") = 0 then
    { mem with freeMb := val / 1024 }
  else mem

/-- The literal of the format. -/
def kB : List UInt8 := [107, 66]

theorem probe_shorter {input l l' : List UInt8} {key : List UInt8} {val : UInt64}
    (hkey : scanWord 63 input = some (key, l)) (hval : scanUll l = some (val, l')) :
    (scanLiteral kB (skipSpace l')).length < input.length := by
  have h₁ := scanWord_shorter hkey
  have h₂ := scanUll_le hval
  have h₃ := scanLiteral_le kB (skipSpace l')
  have h₄ := skipSpace_length l'
  omega

/-- The loop on what is left of the file. -/
def probeLoop (input : List UInt8) (mem : ProbedMemory) : ProbedMemory :=
  match _hkey : scanWord 63 input with
  | none => mem
  | some (key, l) =>
    match _hval : scanUll l with
    | none => mem
    | some (val, l') => probeLoop (scanLiteral kB (skipSpace l')) (mem.update (CStr.upTo key) val)
termination_by input.length
decreasing_by exact probe_shorter _hkey _hval

/-- `linux_probe_memory`; `none` is a file that cannot be opened. -/
def linuxProbeMemory (file : Option (List UInt8)) (mem : ProbedMemory) : ProbedMemory :=
  match file with
  | none => mem
  | some input => probeLoop input mem

theorem probeLoop_some {input l l' : List UInt8} {key : List UInt8} {val : UInt64}
    (hkey : scanWord 63 input = some (key, l)) (hval : scanUll l = some (val, l'))
    (mem : ProbedMemory) :
    probeLoop input mem =
      probeLoop (scanLiteral kB (skipSpace l')) (mem.update (CStr.upTo key) val) := by
  rw [probeLoop]
  split
  · rename_i h
    exact absurd (h.symm.trans hkey) (Option.some_ne_none _).symm
  · rename_i key₁ l₁ h
    obtain ⟨rfl, rfl⟩ := Prod.mk.inj (Option.some.inj (h.symm.trans hkey))
    split
    · rename_i h'
      exact absurd (h'.symm.trans hval) (Option.some_ne_none _).symm
    · rename_i val₁ l₁' h'
      obtain ⟨rfl, rfl⟩ := Prod.mk.inj (Option.some.inj (h'.symm.trans hval))
      rfl

/-- No entry can be read. -/
def NoEntry (input : List UInt8) : Prop := ∀ key l, scanWord 63 input = some (key, l) → scanUll l = none

theorem probeLoop_none {input : List UInt8} (h : NoEntry input) (mem : ProbedMemory) :
    probeLoop input mem = mem := by
  rw [probeLoop]
  split
  · rfl
  · rename_i key l hkey
    split
    · rfl
    · rename_i val l' hval
      exact absurd ((h key l hkey).symm.trans hval) (Option.some_ne_none _).symm

/-- White space in front is nothing. -/
theorem probeLoop_skipSpace (input : List UInt8) (mem : ProbedMemory) :
    probeLoop (skipSpace input) mem = probeLoop input mem := by
  cases hkey : scanWord 63 input with
  | none =>
    have hnone : ∀ l, scanWord 63 l = none → probeLoop l mem = mem := fun l hl =>
      probeLoop_none (fun key l' h => absurd (hl.symm.trans h) (Option.some_ne_none _).symm) mem
    rw [hnone input hkey, hnone _ ((scanWord_skipSpace 63 input).trans hkey)]
  | some r =>
    obtain ⟨key, l⟩ := r
    have hkey' := (scanWord_skipSpace 63 input).trans hkey
    cases hval : scanUll l with
    | none =>
      have hnone : ∀ l', scanWord 63 l' = some (key, l) → probeLoop l' mem = mem := fun l' hl' =>
        probeLoop_none (fun key₁ l₁ h => by
          obtain ⟨rfl, rfl⟩ := Prod.mk.inj (Option.some.inj (h.symm.trans hl'))
          exact hval) mem
      rw [hnone input hkey, hnone _ hkey']
    | some r' =>
      obtain ⟨val, l'⟩ := r'
      rw [probeLoop_some hkey hval, probeLoop_some hkey' hval]

/-! ## 2. Lines -/

/-- A line of the file: a key, white space, a decimal number, perhaps a unit with white space before it,
    and the white space that ends the line. -/
structure MeminfoLine where
  key : CStr
  key_nonempty : key.bytes ≠ []
  key_plain : ∀ b ∈ key.bytes, isSpace b = false
  key_short : key.bytes.length ≤ 63
  number : SpacedNumber
  unit : Option (List UInt8)
  unit_space : ∀ space ∈ unit, ∀ b ∈ space, isSpace b = true
  stop : List UInt8
  stop_nonempty : stop ≠ []
  stop_space : ∀ b ∈ stop, isSpace b = true

namespace MeminfoLine

/-- The unit as it stands in the file. -/
def unitText (line : MeminfoLine) : List UInt8 :=
  match line.unit with
  | none => []
  | some space => space ++ kB

def text (line : MeminfoLine) : List UInt8 :=
  line.key.bytes ++ (line.number.text ++ (line.unitText ++ line.stop))

end MeminfoLine

/-- The text of a file. -/
def meminfoText (lines : List MeminfoLine) : List UInt8 := lines.flatMap MeminfoLine.text

/-- Behind a line without a unit no key starts with a `k`. -/
def Separated : List MeminfoLine → List UInt8 → Prop
  | [], _ => True
  | line :: lines, rest =>
    (line.unit = none → (skipSpace (meminfoText lines ++ rest)).head? ≠ some 107) ∧
      Separated lines rest

theorem upTo_key (key : CStr) : CStr.upTo key.bytes = key :=
  CStr.ext (List.takeWhile_eq_self_iff.mpr fun b hb => decide_eq_true (key.noNul b hb))

/-- Nonempty white space in front of a text. -/
theorem head_space {space : List UInt8} (hne : space ≠ []) (h : ∀ b ∈ space, isSpace b = true)
    (text : List UInt8) : ∀ b ∈ (space ++ text).head?, isSpace b = true := by
  intro b hb
  rw [List.head?_append_of_ne_nil _ hne] at hb
  exact h b (List.mem_of_mem_head? hb)

/-- The number ends where the unit or the line does. -/
theorem unit_stops (line : MeminfoLine) (rest : List UInt8) :
    ScanStops isDigit (line.unitText ++ (line.stop ++ rest)) := by
  unfold MeminfoLine.unitText
  cases hunit : line.unit with
  | none => exact scanStops_digit_of_space (head_space line.stop_nonempty line.stop_space rest)
  | some space =>
    cases space with
    | nil =>
      intro b hb
      rw [← Option.some.inj hb]
      decide
    | cons c space =>
      rw [List.append_assoc]
      exact scanStops_digit_of_space
        (head_space (List.cons_ne_nil c space) (line.unit_space _ hunit) _)

/-- The unit is taken, and without one nothing but white space. -/
theorem probeLoop_unit (line : MeminfoLine) {rest : List UInt8}
    (hrest : line.unit = none → (skipSpace rest).head? ≠ some 107) (mem : ProbedMemory) :
    probeLoop (scanLiteral kB (skipSpace (line.unitText ++ (line.stop ++ rest)))) mem =
      probeLoop rest mem := by
  have hstop : skipSpace (line.stop ++ rest) = skipSpace rest := skipSpace_append line.stop_space rest
  unfold MeminfoLine.unitText
  cases hunit : line.unit with
  | none =>
    have hhead : ∀ b ∈ (skipSpace rest).head?, b ≠ 107 := fun b hb e =>
      hrest hunit (hb.trans (congrArg some e))
    rw [List.nil_append, hstop, kB, scanLiteral_other hhead, probeLoop_skipSpace]
  | some space =>
    have hstart : ScanStops isSpace (kB ++ (line.stop ++ rest)) := by
      intro b hb
      rw [← Option.some.inj hb]
      decide
    rw [List.append_assoc, skipSpace_append (line.unit_space space hunit), skipSpace_stops hstart,
      scanLiteral_append, ← probeLoop_skipSpace, hstop, probeLoop_skipSpace]

/-- **One line.** Its key and value are taken, and the rest of the file is left up to white space. -/
theorem probeLoop_line (line : MeminfoLine) {rest : List UInt8}
    (hrest : line.unit = none → (skipSpace rest).head? ≠ some 107) (mem : ProbedMemory) :
    probeLoop (line.text ++ rest) mem = probeLoop rest (mem.update line.key line.number.value) := by
  have htext : line.text ++ rest =
      [] ++ (line.key.bytes ++ (line.number.text ++ (line.unitText ++ (line.stop ++ rest)))) := by
    simp [MeminfoLine.text]
  have hkey : scanWord 63 (line.text ++ rest) =
      some (line.key.bytes, line.number.text ++ (line.unitText ++ (line.stop ++ rest))) := by
    rw [htext]
    exact scanWord_append (fun _ hb => absurd hb List.not_mem_nil) line.key_nonempty line.key_plain
      line.key_short (line.number.head_space _)
  rw [probeLoop_some hkey (line.number.scan (unit_stops line rest)), upTo_key,
    probeLoop_unit line hrest]

/-- The loop goes through the lines. -/
theorem probeLoop_lines : ∀ (lines : List MeminfoLine) (rest : List UInt8) (mem : ProbedMemory),
    Separated lines rest →
    probeLoop (meminfoText lines ++ rest) mem =
      probeLoop rest (lines.foldl (fun mem line => mem.update line.key line.number.value) mem)
  | [], _, _, _ => rfl
  | line :: lines, rest, mem, h => by
      have htext : meminfoText (line :: lines) ++ rest = line.text ++ (meminfoText lines ++ rest) := by
        simp [meminfoText]
      rw [htext, probeLoop_line line h.1, probeLoop_lines lines rest _ h.2]
      rfl

/-! ## 3. The file -/

/-- The value of the last line with such a key, in MB. -/
def lastMb (p : CStr → Bool) (lines : List MeminfoLine) : Option UInt64 :=
  (lines.filter fun line => p line.key).getLast?.map fun line => line.number.value / 1024

theorem lastMb_concat (p : CStr → Bool) (lines : List MeminfoLine) (line : MeminfoLine) :
    lastMb p (lines ++ [line]) =
      if p line.key then some (line.number.value / 1024) else lastMb p lines := by
  unfold lastMb
  rw [List.filter_append]
  split
  · rename_i hp
    have hline : [line].filter (fun line => p line.key) = [line] := List.filter_cons_of_pos hp
    rw [hline, List.getLast?_concat]
    rfl
  · rename_i hp
    have hline : [line].filter (fun line => p line.key) = [] := List.filter_cons_of_neg hp
    rw [hline, List.append_nil]

def isTotal (key : CStr) : Bool := key = literal "MemTotal:"

def isFree (key : CStr) : Bool := key = literal "MemAvailable:" || key = literal "MemFree:"

theorem update_eq (mem : ProbedMemory) (key : CStr) (val : UInt64) :
    mem.update key val =
      { totalMb := if isTotal key then val / 1024 else mem.totalMb
        freeMb := if isFree key then val / 1024 else mem.freeMb } := by
  have hfree : isFree (literal "MemTotal:") = false := by decide
  unfold ProbedMemory.update
  by_cases htotal : key = literal "MemTotal:"
  · rw [if_pos ((strcmp_eq_zero_iff _ _).mpr htotal), htotal, hfree]
    rfl
  · have hnot : isTotal key = false := decide_eq_false htotal
    have hcmp : (decide (strcmp key (literal "MemAvailable:") = 0) ||
        decide (strcmp key (literal "MemFree:") = 0)) = isFree key := by
      simp only [strcmp_eq_zero_iff]
      rfl
    rw [if_neg fun h => htotal ((strcmp_eq_zero_iff _ _).mp h), hcmp, hnot]
    cases isFree key <;> rfl

theorem foldl_update (lines : List MeminfoLine) (mem : ProbedMemory) :
    lines.foldl (fun mem line => mem.update line.key line.number.value) mem =
      { totalMb := (lastMb isTotal lines).getD mem.totalMb
        freeMb := (lastMb isFree lines).getD mem.freeMb } := by
  induction lines using List.reverseRecOn with
  | nil => rfl
  | append_singleton lines line ih =>
    rw [List.foldl_append, ih, List.foldl_cons, List.foldl_nil, update_eq, lastMb_concat,
      lastMb_concat]
    dsimp only
    congr 1
    · split <;> rfl
    · split <;> rfl

/-- **The memory of a host is read back.** Of a file of such lines, followed by anything from which no
    entry can be read, the function takes the value of the last `MemTotal:` line and of the last
    `MemAvailable:` or `MemFree:` line, in MB, and leaves what it was given where there is none. -/
theorem meminfo_reads_back (lines : List MeminfoLine) (rest : List UInt8) (hsep : Separated lines rest)
    (hrest : NoEntry rest) (mem : ProbedMemory) :
    linuxProbeMemory (some (meminfoText lines ++ rest)) mem =
      { totalMb := (lastMb isTotal lines).getD mem.totalMb
        freeMb := (lastMb isFree lines).getD mem.freeMb } := by
  change probeLoop (meminfoText lines ++ rest) mem = _
  rw [probeLoop_lines lines rest mem hsep, probeLoop_none hrest, foldl_update]

/-- What a line asks of its key. -/
structure PlainKey (key : CStr) : Prop where
  nonempty : key.bytes ≠ []
  plain : ∀ b ∈ key.bytes, isSpace b = false
  short : key.bytes.length ≤ 63

theorem plainKey_total : PlainKey (literal "MemTotal:") :=
  ⟨by decide, plain_of_all (by decide), by decide⟩

theorem plainKey_pages : PlainKey (literal "HugePages_Total:") :=
  ⟨by decide, plain_of_all (by decide), by decide⟩

theorem numeral_2048 : isNumeral [50, 48, 52, 56] = true := by decide

theorem lineFeed_space : ∀ b ∈ ([10] : List UInt8), isSpace b = true := List.all_eq_true.mp rfl

theorem blankUnit_space (hasUnit : Bool) :
    ∀ space ∈ (if hasUnit then some [32] else none : Option (List UInt8)),
      ∀ b ∈ space, isSpace b = true := by
  intro space hspace
  cases hasUnit with
  | true =>
    rw [← Option.some.inj hspace]
    exact blank_space
  | false => exact absurd hspace (Option.not_mem_none space)

/-- The number 2048 behind a blank. -/
def sampleNumber : SpacedNumber := .ofNumeral _ numeral_2048

/-- A line with that number. -/
def sampleLine (key : CStr) (hkey : PlainKey key) (hasUnit : Bool) : MeminfoLine where
  key := key
  key_nonempty := hkey.nonempty
  key_plain := hkey.plain
  key_short := hkey.short
  number := sampleNumber
  unit := if hasUnit then some [32] else none
  unit_space := blankUnit_space hasUnit
  stop := [10]
  stop_nonempty := List.cons_ne_nil _ _
  stop_space := lineFeed_space

/-- A page count without a unit, and the total. -/
def sampleLines : List MeminfoLine :=
  [sampleLine _ plainKey_pages false, sampleLine _ plainKey_total true]

theorem meminfo_reads_back_sampleLines :
    linuxProbeMemory (some (meminfoText sampleLines ++ [])) ⟨0, 7⟩ = ⟨2, 7⟩ := by
  have hsep : Separated sampleLines [] :=
    ⟨fun _ => by decide, fun h => absurd h (Option.some_ne_none _), trivial⟩
  have hend : NoEntry [] := fun key l h => absurd h (Option.some_ne_none _).symm
  rw [meminfo_reads_back sampleLines [] hsep hend ⟨0, 7⟩]
  decide

end VoidOsMerger
