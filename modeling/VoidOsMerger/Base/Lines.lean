/-
  File:      VoidOsMerger/Base/Lines.lean
  Subject:   A TEXT READ THROUGH A BUFFER OF FIXED SIZE (`fgets`), AND ITS LINES.

  A read ends behind a newline or when the buffer is full, so that a long line takes several reads and
  a reader that treats every buffer alike does not see where a line starts.

  * `fgetsAll n text` -- the buffers of all the reads, of at most `n` characters each;
  * `fileLines text` -- the lines, without their newlines; the last one may lack it; `keptLines text` --
    the lines with their newlines;
  * **`foldl_fgetsAll`** -- a reader that ignores a final newline works line by line: on each line as
    on a text of its own.
-/
import Mathlib.Data.List.TakeWhile

namespace VoidOsMerger

variable {α : Type} [DecidableEq α] (nl : α)

/-! ## 1. Reads -/

/-- How many characters one read takes: up to a newline, at most `n`. -/
def fgetsLen : Nat → List α → Nat
  | 0, _ => 0
  | _ + 1, [] => 0
  | n + 1, a :: text => if a = nl then 1 else fgetsLen n text + 1

/-- The buffers of at most `fuel` reads. -/
def reads (n : Nat) : Nat → List α → List (List α)
  | 0, _ => []
  | _ + 1, [] => []
  | fuel + 1, a :: text =>
    let k := fgetsLen nl n (a :: text)
    (a :: text).take k :: reads n fuel ((a :: text).drop k)

/-- The buffers of all reads: there are not more of them than characters. -/
def fgetsAll (n : Nat) (text : List α) : List (List α) := reads nl n text.length text

theorem fgetsLen_pos {n : Nat} (hn : 0 < n) (a : α) (text : List α) :
    0 < fgetsLen nl n (a :: text) := by
  cases n with
  | zero => exact absurd hn (Nat.lt_irrefl 0)
  | succ n =>
    unfold fgetsLen
    split <;> exact Nat.succ_pos _

/-- More fuel than characters makes no difference. -/
theorem reads_fuel {n : Nat} (hn : 0 < n) : ∀ (fuel : Nat) (text : List α), text.length ≤ fuel →
    reads nl n fuel text = fgetsAll nl n text := by
  intro fuel
  induction fuel using Nat.strong_induction_on with
  | _ fuel ih =>
    intro text hle
    cases text with
    | nil => cases fuel <;> rfl
    | cons a text =>
      cases fuel with
      | zero => exact absurd hle (Nat.not_succ_le_zero _)
      | succ fuel =>
        have hpos := fgetsLen_pos nl hn a text
        have hrest : ((a :: text).drop (fgetsLen nl n (a :: text))).length ≤ text.length := by
          rw [List.length_drop, List.length_cons]
          omega
        have htext : text.length ≤ fuel := Nat.le_of_succ_le_succ hle
        have hmore := ih fuel (Nat.lt_succ_self fuel) _ (hrest.trans htext)
        have hless := ih text.length (Nat.lt_succ_of_le htext) _ hrest
        show _ :: reads nl n fuel _ = _ :: reads nl n text.length _
        rw [hmore, hless]

/-- One read and the rest. -/
theorem fgetsAll_step {n : Nat} (hn : 0 < n) {text : List α} (htext : text ≠ []) :
    fgetsAll nl n text =
      text.take (fgetsLen nl n text) :: fgetsAll nl n (text.drop (fgetsLen nl n text)) := by
  cases text with
  | nil => exact absurd rfl htext
  | cons a text =>
    have hpos := fgetsLen_pos nl hn a text
    have hrest : ((a :: text).drop (fgetsLen nl n (a :: text))).length ≤ text.length := by
      rw [List.length_drop, List.length_cons]
      omega
    show _ :: reads nl n text.length _ = _
    rw [reads_fuel nl hn _ _ hrest]

/-- Without a newline in reach a read fills the buffer. -/
theorem fgetsLen_long : ∀ {n : Nat} {l : List α} (rest : List α), nl ∉ l → n ≤ l.length →
    fgetsLen nl n (l ++ rest) = n
  | 0, _, _, _, _ => by simp [fgetsLen]
  | n + 1, [], _, _, hlen => absurd hlen (Nat.not_succ_le_zero n)
  | n + 1, a :: l, rest, hnl, hlen => by
      obtain ⟨ha, hl⟩ := List.ne_and_not_mem_of_not_mem_cons hnl
      rw [List.cons_append, fgetsLen, if_neg (Ne.symm ha),
        fgetsLen_long rest hl (Nat.le_of_succ_le_succ hlen)]

/-- A read of a short line takes the newline with it. -/
theorem fgetsLen_line : ∀ {n : Nat} {l : List α} (rest : List α), nl ∉ l → l.length < n →
    fgetsLen nl n (l ++ nl :: rest) = l.length + 1
  | 0, _, _, _, hlen => absurd hlen (Nat.not_lt_zero _)
  | n + 1, [], _, _, _ => if_pos rfl
  | n + 1, a :: l, rest, hnl, hlen => by
      obtain ⟨ha, hl⟩ := List.ne_and_not_mem_of_not_mem_cons hnl
      rw [List.cons_append, fgetsLen, if_neg (Ne.symm ha),
        fgetsLen_line rest hl (Nat.lt_of_succ_lt_succ hlen), List.length_cons]

/-- A read of a short last line takes it all. -/
theorem fgetsLen_last : ∀ {n : Nat} {l : List α}, nl ∉ l → l.length ≤ n →
    fgetsLen nl n l = l.length
  | 0, l, _, hlen => (Nat.le_zero.mp hlen).symm
  | n + 1, [], _, _ => rfl
  | n + 1, a :: l, hnl, hlen => by
      obtain ⟨ha, hl⟩ := List.ne_and_not_mem_of_not_mem_cons hnl
      rw [fgetsLen, if_neg (Ne.symm ha), fgetsLen_last hl (Nat.le_of_succ_le_succ hlen),
        List.length_cons]

/-! ## 2. Lines -/

/-- The lines of a text, without their newlines. -/
def fileLines : List α → List (List α)
  | [] => []
  | a :: text =>
    if a = nl then [] :: fileLines text
    else match fileLines text with
      | [] => [[a]]
      | l :: ls => (a :: l) :: ls

theorem fileLines_line : ∀ {l : List α} (rest : List α), nl ∉ l →
    fileLines nl (l ++ nl :: rest) = l :: fileLines nl rest
  | [], _, _ => if_pos rfl
  | a :: l, rest, hnl => by
      obtain ⟨ha, hl⟩ := List.ne_and_not_mem_of_not_mem_cons hnl
      rw [List.cons_append, fileLines, if_neg (Ne.symm ha), fileLines_line rest hl]

theorem fileLines_last : ∀ {l : List α}, nl ∉ l → l ≠ [] → fileLines nl l = [l]
  | [], _, hne => absurd rfl hne
  | a :: l, hnl, _ => by
      obtain ⟨ha, hl⟩ := List.ne_and_not_mem_of_not_mem_cons hnl
      rw [fileLines, if_neg (Ne.symm ha)]
      cases l with
      | nil => rfl
      | cons b l => rw [fileLines_last hl (List.cons_ne_nil b l)]

/-- The lines of a text, each with its newline; the last one may lack it. -/
def keptLines : List α → List (List α)
  | [] => []
  | a :: text =>
    if a = nl then [a] :: keptLines text
    else match keptLines text with
      | [] => [[a]]
      | l :: ls => (a :: l) :: ls

theorem keptLines_line : ∀ {l : List α} (rest : List α), nl ∉ l →
    keptLines nl (l ++ nl :: rest) = (l ++ [nl]) :: keptLines nl rest
  | [], _, _ => if_pos rfl
  | a :: l, rest, hnl => by
      obtain ⟨ha, hl⟩ := List.ne_and_not_mem_of_not_mem_cons hnl
      rw [List.cons_append, keptLines, if_neg (Ne.symm ha), keptLines_line rest hl]
      rfl

theorem keptLines_last : ∀ {l : List α}, nl ∉ l → l ≠ [] → keptLines nl l = [l]
  | [], _, hne => absurd rfl hne
  | a :: l, hnl, _ => by
      obtain ⟨ha, hl⟩ := List.ne_and_not_mem_of_not_mem_cons hnl
      rw [keptLines, if_neg (Ne.symm ha)]
      cases l with
      | nil => rfl
      | cons b l => rw [keptLines_last hl (List.cons_ne_nil b l)]

/-- A text is empty, or a last line, or a line with its newline and more text. -/
theorem text_cases (text : List α) :
    text = [] ∨ (text ≠ [] ∧ nl ∉ text) ∨ ∃ l rest, text = l ++ nl :: rest ∧ nl ∉ l := by
  by_cases hmem : nl ∈ text
  · obtain ⟨l, rest, rfl, hl⟩ := List.eq_append_cons_of_mem hmem
    exact Or.inr (Or.inr ⟨l, rest, rfl, hl⟩)
  · by_cases hnil : text = []
    · exact Or.inl hnil
    · exact Or.inr (Or.inl ⟨hnil, hmem⟩)

theorem not_mem_of_mem_fileLines {text l : List α} (h : l ∈ fileLines nl text) : nl ∉ l := by
  induction hlen : text.length using Nat.strong_induction_on generalizing text with
  | _ k ih =>
    rcases text_cases nl text with rfl | ⟨hne, hnl⟩ | ⟨l', rest, rfl, hl'⟩
    · cases h
    · rw [fileLines_last nl hnl hne, List.mem_singleton] at h
      rwa [h]
    · rw [fileLines_line nl rest hl', List.mem_cons] at h
      rcases h with rfl | h
      · exact hl'
      · refine ih rest.length ?_ h rfl
        rw [← hlen, List.length_append, List.length_cons]
        omega

/-- The lines hold nothing that the text does not. -/
theorem mem_of_mem_fileLines {text l : List α} (h : l ∈ fileLines nl text) {a : α} (ha : a ∈ l) :
    a ∈ text := by
  induction hlen : text.length using Nat.strong_induction_on generalizing text with
  | _ k ih =>
    rcases text_cases nl text with rfl | ⟨hne, hnl⟩ | ⟨l', rest, rfl, hl'⟩
    · cases h
    · rw [fileLines_last nl hnl hne, List.mem_singleton] at h
      rwa [← h]
    · rw [fileLines_line nl rest hl', List.mem_cons] at h
      rcases h with rfl | h
      · exact List.mem_append_left _ ha
      · have hrest : a ∈ rest := ih rest.length (by
          rw [← hlen, List.length_append, List.length_cons]
          omega) h rfl
        exact List.mem_append_right _ (List.mem_cons_of_mem _ hrest)

/-! ## 3. A reader that ignores a final newline -/

section Reader

variable {σ : Type} {step : σ → List α → σ} {n : Nat}

/-- A short line is read at once. -/
theorem foldl_fgetsAll_short (hn : 0 < n) (hnil : ∀ s, step s [] = s) {l : List α} (hnl : nl ∉ l)
    (hlen : l.length ≤ n) (s : σ) : (fgetsAll nl n l).foldl step s = step s l := by
  by_cases hl : l = []
  · subst hl
    exact (hnil s).symm
  · rw [fgetsAll_step nl hn hl, fgetsLen_last nl hnl hlen, List.take_length, List.drop_length]
    rfl

/-- The reads of a line with its newline do what the reads of the line alone do. -/
theorem foldl_fgetsAll_line (hn : 0 < n) (hnil : ∀ s, step s [] = s)
    (hend : ∀ s l, step s (l ++ [nl]) = step s l) {l : List α} (hnl : nl ∉ l) (rest : List α) (s : σ) :
    (fgetsAll nl n (l ++ nl :: rest)).foldl step s =
      (fgetsAll nl n rest).foldl step ((fgetsAll nl n l).foldl step s) := by
  -- by induction on the number of buffers the line fills
  induction hk : l.length using Nat.strong_induction_on generalizing l s with
  | _ k ih =>
    have hne : l ++ nl :: rest ≠ [] := List.append_ne_nil_of_right_ne_nil l (List.cons_ne_nil nl rest)
    rw [fgetsAll_step nl hn hne]
    by_cases hlen : l.length < n
    · have htake : (l ++ nl :: rest).take (l.length + 1) = l ++ [nl] := by
        simp [List.take_append, List.take_of_length_le]
      have hdrop : (l ++ nl :: rest).drop (l.length + 1) = rest := by
        simp [List.drop_append]
      rw [fgetsLen_line nl rest hnl hlen, htake, hdrop, List.foldl_cons, hend,
        foldl_fgetsAll_short nl hn hnil hnl hlen.le]
    · have hlen : n ≤ l.length := Nat.le_of_not_lt hlen
      have hl : l ≠ [] := by
        rintro rfl
        exact absurd (hn.trans_le hlen) (Nat.lt_irrefl 0)
      have hshort : (l.drop n).length < k := by
        rw [List.length_drop, ← hk]
        omega
      have hwhole : fgetsLen nl n l = n := by
        simpa using fgetsLen_long nl [] hnl hlen
      rw [fgetsLen_long nl (nl :: rest) hnl hlen, List.take_append_of_le_length hlen,
        List.drop_append_of_le_length hlen, List.foldl_cons,
        ih _ hshort (fun h => hnl (List.mem_of_mem_drop h)) (step s (l.take n)) rfl,
        fgetsAll_step nl hn hl, hwhole, List.foldl_cons]

/-- **A reader that ignores a final newline works line by line.** -/
theorem foldl_fgetsAll (hn : 0 < n) (hnil : ∀ s, step s [] = s)
    (hend : ∀ s l, step s (l ++ [nl]) = step s l) (text : List α) (s : σ) :
    (fgetsAll nl n text).foldl step s =
      (fileLines nl text).foldl (fun s l => (fgetsAll nl n l).foldl step s) s := by
  induction hk : text.length using Nat.strong_induction_on generalizing text s with
  | _ k ih =>
    rcases text_cases nl text with rfl | ⟨hne, hnl⟩ | ⟨l, rest, rfl, hl⟩
    · rfl
    · rw [fileLines_last nl hnl hne]
      rfl
    · have hshort : rest.length < k := by
        rw [← hk, List.length_append, List.length_cons]
        omega
      rw [foldl_fgetsAll_line nl hn hnil hend hl, fileLines_line nl rest hl, List.foldl_cons,
        ih _ hshort rest _ rfl]

end Reader

end VoidOsMerger
