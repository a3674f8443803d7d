/-
  File:      VoidOsMerger/Agent/Stat.lean
  Subject:   THE COUNTERS OF `/proc/stat` (sample_cpu_ticks of agent/src/heartbeat.c).

  One `fscanf` reads a label and eight numbers from the beginning of the file; a sample is taken when all
  nine conversions succeed.

  * `scanUlls_numbers` -- numbers behind white space are read one by one;
  * **`cpu_line_reads_back`** -- of a line of a label and numbers the first eight are the sample, and with
    fewer there is none.
-/
import VoidOsMerger.Agent.Heartbeat
import VoidOsMerger.Base.Scanf

namespace VoidOsMerger

/-! ## 1. The function -/

/-- `n` times `%llu`, up to the first that fails. -/
def scanUlls : Nat → List UInt8 → List UInt64
  | 0, _ => []
  | n + 1, input =>
    match scanUll input with
    | none => []
    | some (val, rest) => val :: scanUlls n rest

/-- The eight counters, where there are eight. -/
def CpuTicks.ofList : List UInt64 → Option CpuTicks
  | user :: nice :: system :: idle :: iowait :: irq :: softirq :: steal :: _ =>
    some ⟨user, nice, system, idle, iowait, irq, softirq, steal⟩
  | _ => none

/-- `sample_cpu_ticks`; `none` where it answers `false`, and a file that cannot be opened is `none`. -/
def sampleCpuTicks (file : Option (List UInt8)) : Option CpuTicks :=
  match file with
  | none => none
  | some input =>
    match scanWord 15 input with
    | none => none
    | some (_, rest) => CpuTicks.ofList (scanUlls 8 rest)

/-! ## 2. Lines -/

theorem numbers_head {numbers : List SpacedNumber} (hne : numbers ≠ []) (rest : List UInt8) :
    ∀ b ∈ (numbers.flatMap SpacedNumber.text ++ rest).head?, isSpace b = true := by
  cases numbers with
  | nil => exact absurd rfl hne
  | cons n numbers =>
    rw [List.flatMap_cons, List.append_assoc]
    exact n.head_space _

/-- What follows a number in such a text is no digit. -/
theorem numbers_stop (numbers : List SpacedNumber) {rest : List UInt8} (hrest : ScanStops isDigit rest) :
    ScanStops isDigit (numbers.flatMap SpacedNumber.text ++ rest) := by
  cases numbers with
  | nil => exact hrest
  | cons n numbers => exact scanStops_digit_of_space (numbers_head (List.cons_ne_nil n numbers) rest)

/-- **Numbers are read one by one**, as many as are asked for and there are. -/
theorem scanUlls_numbers : ∀ (k : Nat) (numbers : List SpacedNumber) {rest : List UInt8},
    ScanStops isDigit rest → scanUll rest = none →
    scanUlls k (numbers.flatMap SpacedNumber.text ++ rest) = (numbers.map SpacedNumber.value).take k
  | 0, _, _, _, _ => List.take_zero.symm
  | k + 1, [], rest, _, hnone => by
      unfold scanUlls
      rw [List.flatMap_nil, List.nil_append, hnone]
      rfl
  | k + 1, n :: numbers, rest, hstop, hnone => by
      unfold scanUlls
      rw [List.flatMap_cons, List.append_assoc, n.scan (numbers_stop numbers hstop)]
      dsimp only
      rw [scanUlls_numbers k numbers hstop hnone]
      rfl

theorem ofList_take (l : List UInt64) : CpuTicks.ofList (l.take 8) = CpuTicks.ofList l := by
  match l with
  | [] | [_] | [_, _] | [_, _, _] | [_, _, _, _] | [_, _, _, _, _] | [_, _, _, _, _, _]
  | [_, _, _, _, _, _, _] => rfl
  | _ :: _ :: _ :: _ :: _ :: _ :: _ :: _ :: _ => rfl

/-- **The counters are read back.** Of a file that begins with a label of at most fifteen bytes and
    decimal numbers that fit, white space before each, and goes on with something that is no number, the
    sample is the first eight numbers; with fewer there is none. -/
theorem cpu_line_reads_back (label : List UInt8) (hlabel : label ≠ [])
    (hplain : ∀ b ∈ label, isSpace b = false) (hshort : label.length ≤ 15)
    (numbers : List SpacedNumber) (hnumbers : numbers ≠ []) (rest : List UInt8)
    (hstop : ScanStops isDigit rest) (hrest : scanUll rest = none) :
    sampleCpuTicks (some (label ++ (numbers.flatMap SpacedNumber.text ++ rest))) =
      CpuTicks.ofList (numbers.map SpacedNumber.value) := by
  have hword : scanWord 15 ([] ++ (label ++ (numbers.flatMap SpacedNumber.text ++ rest))) =
      some (label, numbers.flatMap SpacedNumber.text ++ rest) :=
    scanWord_append (fun _ hb => absurd hb List.not_mem_nil) hlabel hplain hshort
      (numbers_head hnumbers rest)
  rw [List.nil_append] at hword
  unfold sampleCpuTicks
  dsimp only
  rw [hword]
  dsimp only
  rw [scanUlls_numbers 8 numbers hstop hrest, ofList_take]

theorem numeral_7 : isNumeral [55] = true := by decide

/-- The number 7. -/
def spacedSeven : SpacedNumber := .ofNumeral _ numeral_7

theorem cpu_line_reads_back_sevens :
    sampleCpuTicks (some ([99, 112, 117] ++
      ((List.replicate 10 spacedSeven).flatMap SpacedNumber.text ++ [10]))) =
        some ⟨7, 7, 7, 7, 7, 7, 7, 7⟩ := by
  rw [cpu_line_reads_back [99, 112, 117] (List.cons_ne_nil _ _) (plain_of_all rfl) (by decide)
    (List.replicate 10 spacedSeven) (List.cons_ne_nil _ _) [10]
    (scanStops_digit_of_space (by simp [isSpace])) (by decide)]
  decide

end VoidOsMerger
