/-
  File:      VoidOsMerger/Webui/Requests.lean
  Subject:   HOW THE DASHBOARD READS A REQUEST (`http_handler`, webui/server.py).

  The stream is what the client sends before it closes the connection; at its end `readline` returns
  the empty bytes object, again and again. A line longer than the limit of the reader raises an
  exception. `int` is an argument: the number it makes of a text, or nothing for a `ValueError`. The
  loop over the header lines has fuel for so many calls of `readline`; `none` is a loop that goes on.

  * `headerLoop_first` -- one call of `readline` and what follows from its line;
  * `headerLoop_exhausted` -- at the end of the stream the loop goes on for ever;
  * **`request_reader_ends_iff`** -- when the reader of a request ends.
-/
import VoidOsMerger.Base.Lines
import VoidOsMerger.Base.Utf8
import Mathlib.Data.List.DropRight

namespace VoidOsMerger

/-! ## 1. Python -/

inductive RequestError
  | valueError
  | unicodeDecodeError
  deriving DecidableEq, Repr

/-- The white space of `str.strip` and `str.split`. -/
def pySpace (c : Char) : Bool :=
  let n := c.toNat
  (9 ≤ n && n ≤ 13) || (28 ≤ n && n ≤ 32) || n == 0x85 || n == 0xA0 || n == 0x1680 ||
    (0x2000 ≤ n && n ≤ 0x200A) || n == 0x2028 || n == 0x2029 || n == 0x202F || n == 0x205F || n == 0x3000

/-- `s.strip()` -/
def pyStrip (s : List Char) : List Char := (s.dropWhile pySpace).rdropWhile pySpace

/-- `s.split()`, `word` read so far. -/
def pySplit (word : List Char) : List Char → List (List Char)
  | [] => if word = [] then [] else [word]
  | c :: s =>
    if pySpace c then (if word = [] then [] else [word]) ++ pySplit [] s else pySplit (word ++ [c]) s

/-- `c.lower()` on ASCII. The letters of `content-length:` are the lower case of no other character. -/
def asciiLower (c : Char) : Char := if 'A' ≤ c ∧ c ≤ 'Z' then Char.ofNat (c.toNat + 32) else c

/-- `await reader.readline()`: the line, and the stream behind it. -/
def readline (limit : Nat) (stream : List UInt8) : Except RequestError (List UInt8 × List UInt8) :=
  let content := stream.takeWhile (· ≠ 10)
  if limit < content.length then .error .valueError
  else
    match stream.dropWhile (· ≠ 10) with
    | [] => .ok (content, [])
    | newline :: rest => .ok (content ++ [newline], rest)

/-! ## 2. The reader -/

section Reader

variable (pyInt : List Char → Option Int) (limit : Nat)

/-- `header_str.lower().startswith("content-length:")` -/
def isContentLength (headerStr : List Char) : Bool :=
  "content-length:".toList.isPrefixOf (headerStr.map asciiLower)

/-- `header_str.split(":")[1]` of a text with a colon. -/
def afterColon (headerStr : List Char) : List Char :=
  ((headerStr.dropWhile (· ≠ ':')).drop 1).takeWhile (· ≠ ':')

/-- A header line that is not blank: the content length it gives, if any. -/
def headerField (headerLine : List UInt8) : Except RequestError (Option Int) :=
  match utf8Decode headerLine with
  | none => .error .unicodeDecodeError
  | some text =>
    let headerStr := pyStrip text
    if isContentLength headerStr then
      match pyInt (pyStrip (afterColon headerStr)) with
      | none => .error .valueError
      | some n => .ok (some n)
    else .ok none

/-- `header_line == b"\r\n" or header_line == b"\n"` -/
def isBlank (headerLine : List UInt8) : Bool := headerLine = [13, 10] || headerLine = [10]

/-- The `while True` loop over the header lines: `content_length`, and the stream behind the blank
    line. -/
def headerLoop : Nat → List UInt8 → Int → Option (Except RequestError (Int × List UInt8))
  | 0, _, _ => none
  | fuel + 1, stream, contentLength =>
    match readline limit stream with
    | .error e => some (.error e)
    | .ok (headerLine, rest) =>
      if isBlank headerLine then some (.ok (contentLength, rest))
      else
        match headerField pyInt headerLine with
        | .error e => some (.error e)
        | .ok field => headerLoop fuel rest (field.getD contentLength)

/-- What the handler knows of a request before it reads the body. -/
structure Request where
  method : List Char
  path : List Char
  contentLength : Int
  rest : List UInt8

/-- `http_handler` up to the body; a request line of less than two words closes the connection. -/
def readRequest (fuel : Nat) (stream : List UInt8) : Option (Except RequestError (Option Request)) :=
  match readline limit stream with
  | .error e => some (.error e)
  | .ok (requestLine, rest) =>
    match utf8Decode requestLine with
    | none => some (.error .unicodeDecodeError)
    | some text =>
      match pySplit [] (pyStrip text) with
      | method :: path :: _ =>
        (headerLoop pyInt limit fuel rest 0).map fun r =>
          r.map fun p => some ⟨method, path, p.1, p.2⟩
      | _ => some (.ok none)

/-! ## 3. One line -/

/-- A line that ends the loop: a blank one, or one that raises an exception. -/
def StopsAt (headerLine : List UInt8) : Prop :=
  limit < (headerLine.takeWhile (· ≠ 10)).length ∨ isBlank headerLine = true ∨
    ∃ e, headerField pyInt headerLine = .error e

theorem takeWhile_line {l : List UInt8} (hl : 10 ∉ l) (rest : List UInt8) :
    (l ++ 10 :: rest).takeWhile (· ≠ 10) = l ∧ (l ++ 10 :: rest).dropWhile (· ≠ 10) = 10 :: rest := by
  have hall : ∀ b ∈ l, decide (b ≠ 10) = true := fun b hb => by
    simpa using fun h : b = 10 => hl (h ▸ hb)
  rw [List.takeWhile_append_of_pos hall, List.dropWhile_append_of_pos hall]
  simp

theorem takeWhile_last {l : List UInt8} (hl : 10 ∉ l) :
    l.takeWhile (· ≠ 10) = l ∧ l.dropWhile (· ≠ 10) = [] := by
  have hall : ∀ b ∈ l, decide (b ≠ 10) = true := fun b hb => by
    simpa using fun h : b = 10 => hl (h ▸ hb)
  exact ⟨List.takeWhile_eq_self_iff.mpr hall, List.dropWhile_eq_nil_iff.mpr hall⟩

theorem readline_line {l : List UInt8} (hl : 10 ∉ l) (rest : List UInt8) :
    readline limit (l ++ 10 :: rest) =
      if limit < ((l ++ [10]).takeWhile (· ≠ 10)).length then .error .valueError
      else .ok (l ++ [10], rest) := by
  unfold readline
  rw [(takeWhile_line hl rest).1, (takeWhile_line hl rest).2, (takeWhile_line hl []).1]

theorem readline_last {l : List UInt8} (hl : 10 ∉ l) :
    readline limit l =
      if limit < (l.takeWhile (· ≠ 10)).length then .error .valueError else .ok (l, []) := by
  unfold readline
  rw [(takeWhile_last hl).1, (takeWhile_last hl).2]

variable {pyInt limit} {stream headerLine rest : List UInt8}

/-- **One call of `readline`.** The loop ends with a line that stops it, and else goes on with the
    stream behind the line. -/
theorem headerLoop_first
    (hread : readline limit stream =
      if limit < (headerLine.takeWhile (· ≠ 10)).length then .error .valueError
      else .ok (headerLine, rest)) (contentLength : Int) :
    (StopsAt pyInt limit headerLine →
      ∀ fuel, ∃ r, headerLoop pyInt limit (fuel + 1) stream contentLength = some r) ∧
    (¬ StopsAt pyInt limit headerLine →
      ∃ contentLength', ∀ fuel, headerLoop pyInt limit (fuel + 1) stream contentLength =
        headerLoop pyInt limit fuel rest contentLength') := by
  unfold StopsAt
  simp only [headerLoop, hread]
  by_cases hlong : limit < (headerLine.takeWhile (· ≠ 10)).length
  · rw [if_pos hlong]
    exact ⟨fun _ _ => ⟨_, rfl⟩, fun h => absurd (Or.inl hlong) h⟩
  · rw [if_neg hlong]
    dsimp only
    by_cases hblank : isBlank headerLine = true
    · simp only [if_pos hblank]
      exact ⟨fun _ _ => ⟨_, rfl⟩, fun h => absurd (Or.inr (Or.inl hblank)) h⟩
    · simp only [if_neg hblank]
      cases hfield : headerField pyInt headerLine with
      | error e => exact ⟨fun _ _ => ⟨_, rfl⟩, fun h => absurd (Or.inr (Or.inr ⟨e, rfl⟩)) h⟩
      | ok field =>
        refine ⟨fun h => ?_, fun _ => ⟨_, fun _ => rfl⟩⟩
        rcases h with h | h | ⟨e, h⟩
        · exact absurd h hlong
        · exact absurd h hblank
        · cases h

/-! ## 4. The loop -/

/-- **At the end of the stream the loop goes on for ever.** -/
theorem headerLoop_exhausted : ∀ (fuel : Nat) (contentLength : Int),
    headerLoop pyInt limit fuel [] contentLength = none
  | 0, _ => rfl
  | fuel + 1, contentLength => headerLoop_exhausted fuel contentLength

/-- With a line in front of `rest` the loop ends there or later. -/
theorem headerLoop_line_iff
    (hread : readline limit stream =
      if limit < (headerLine.takeWhile (· ≠ 10)).length then .error .valueError
      else .ok (headerLine, rest)) {contentLength : Int}
    (hrest : ∀ contentLength', (∃ fuel r, headerLoop pyInt limit fuel rest contentLength' = some r) ↔
      ∃ line ∈ keptLines 10 rest, StopsAt pyInt limit line) :
    (∃ fuel r, headerLoop pyInt limit fuel stream contentLength = some r) ↔
      StopsAt pyInt limit headerLine ∨ ∃ line ∈ keptLines 10 rest, StopsAt pyInt limit line := by
  by_cases hstops : StopsAt pyInt limit headerLine
  · obtain ⟨r, hr⟩ := (headerLoop_first hread contentLength).1 hstops 0
    exact iff_of_true ⟨1, r, hr⟩ (Or.inl hstops)
  · obtain ⟨contentLength', hgoes⟩ := (headerLoop_first hread contentLength).2 hstops
    rw [or_iff_right hstops, ← hrest contentLength']
    constructor
    · rintro ⟨fuel, r, hr⟩
      cases fuel with
      | zero => cases hr
      | succ fuel => exact ⟨fuel, r, (hgoes fuel).symm.trans hr⟩
    · rintro ⟨fuel, r, hr⟩
      exact ⟨fuel + 1, r, (hgoes fuel).trans hr⟩

/-- The loop ends exactly when one of the lines left stops it. -/
theorem headerLoop_ends_iff (stream : List UInt8) (contentLength : Int) :
    (∃ fuel r, headerLoop pyInt limit fuel stream contentLength = some r) ↔
      ∃ headerLine ∈ keptLines 10 stream, StopsAt pyInt limit headerLine := by
  -- by the length of the stream: each line leaves a shorter one
  induction hlen : stream.length using Nat.strong_induction_on generalizing stream contentLength with
  | _ k ih =>
    rcases text_cases 10 stream with rfl | ⟨hne, hnl⟩ | ⟨l, rest, rfl, hl⟩
    · refine iff_of_false ?_ (by simp [keptLines])
      rintro ⟨fuel, r, hr⟩
      rw [headerLoop_exhausted] at hr
      cases hr
    · have hless : ([] : List UInt8).length < k := hlen ▸ List.length_pos_iff.mpr hne
      rw [keptLines_last 10 hnl hne,
        headerLoop_line_iff (readline_last limit hnl) fun c => ih _ hless [] c rfl]
      simp [keptLines]
    · have hless : rest.length < k := by
        rw [← hlen, List.length_append, List.length_cons]
        omega
      rw [keptLines_line 10 rest hl,
        headerLoop_line_iff (readline_line limit hl rest) fun c => ih _ hless rest c rfl]
      simp

end Reader

/-! ## 5. Requests -/

/-- The request line is read and has at least two words; `rest` is the stream behind it. -/
def EntersHeaders (limit : Nat) (stream rest : List UInt8) : Prop :=
  ∃ requestLine text, readline limit stream = .ok (requestLine, rest) ∧
    utf8Decode requestLine = some text ∧ 2 ≤ (pySplit [] (pyStrip text)).length

section RequestLine

variable (pyInt : List Char → Option Int) {limit : Nat} {stream : List UInt8}

/-- Behind a request line of two words the header loop runs. -/
theorem readRequest_enters {rest : List UInt8} (h : EntersHeaders limit stream rest) :
    ∃ method path, ∀ fuel, readRequest pyInt limit fuel stream =
      (headerLoop pyInt limit fuel rest 0).map fun r =>
        r.map fun p => some ⟨method, path, p.1, p.2⟩ := by
  obtain ⟨requestLine, text, hread, hdecode, htwo⟩ := h
  unfold readRequest
  rw [hread]
  dsimp only
  rw [hdecode]
  dsimp only
  rcases hparts : pySplit [] (pyStrip text) with _ | ⟨method, _ | ⟨path, more⟩⟩
  · exact absurd htwo (by simp [hparts])
  · exact absurd htwo (by simp [hparts])
  · exact ⟨method, path, fun _ => rfl⟩

/-- Any other request line ends the reader. -/
theorem readRequest_leaves (h : ∀ rest, ¬ EntersHeaders limit stream rest) :
    ∃ r, ∀ fuel, readRequest pyInt limit fuel stream = some r := by
  unfold readRequest
  cases hread : readline limit stream with
  | error e => exact ⟨_, fun _ => rfl⟩
  | ok first =>
    obtain ⟨requestLine, rest⟩ := first
    dsimp only
    cases hdecode : utf8Decode requestLine with
    | none => exact ⟨_, fun _ => rfl⟩
    | some text =>
      dsimp only
      rcases hparts : pySplit [] (pyStrip text) with _ | ⟨method, _ | ⟨path, more⟩⟩
      · exact ⟨_, fun _ => rfl⟩
      · exact ⟨_, fun _ => rfl⟩
      · exact absurd ⟨requestLine, text, hread, hdecode, by simp [hparts]⟩ (h rest)

end RequestLine

/-- **When the reader of a request ends.** It does exactly when, behind a request line of at least
    two words, one of the lines is blank or raises an exception. -/
theorem request_reader_ends_iff (pyInt : List Char → Option Int) (limit : Nat)
    (stream : List UInt8) :
    (∃ fuel r, readRequest pyInt limit fuel stream = some r) ↔
      ∀ rest, EntersHeaders limit stream rest →
        ∃ headerLine ∈ keptLines 10 rest, StopsAt pyInt limit headerLine := by
  constructor
  · rintro ⟨fuel, r, hr⟩ rest henters
    obtain ⟨method, path, hloop⟩ := readRequest_enters pyInt henters
    obtain ⟨r', hr', -⟩ := Option.map_eq_some_iff.mp ((hloop fuel).symm.trans hr)
    exact (headerLoop_ends_iff rest 0).mp ⟨fuel, r', hr'⟩
  · intro hstops
    by_cases henters : ∃ rest, EntersHeaders limit stream rest
    · obtain ⟨rest, henters⟩ := henters
      obtain ⟨method, path, hloop⟩ := readRequest_enters pyInt henters
      obtain ⟨fuel, r, hr⟩ := (headerLoop_ends_iff rest 0).mpr (hstops rest henters)
      exact ⟨fuel, _, by rw [hloop, hr]; rfl⟩
    · obtain ⟨r, hr⟩ := readRequest_leaves pyInt (not_exists.mp henters)
      exact ⟨0, r, hr 0⟩

/-- `Host: x` -/
def hostLine : List UInt8 := [72, 111, 115, 116, 58, 32, 120, 13, 10]

/-- `GET / HTTP/1.1`, one header line, and the end of the stream. -/
def cutRequest : List UInt8 :=
  [71, 69, 84, 32, 47, 32, 72, 84, 84, 80, 47, 49, 46, 49, 13, 10] ++ hostLine

/-- Whatever `int` makes of a text, no number of calls ends it. -/
theorem cutRequest_goes_on (pyInt : List Char → Option Int) (fuel : Nat) :
    readRequest pyInt 65536 fuel cutRequest = none := by
  have hrequest : readRequest pyInt 65536 fuel cutRequest =
      (headerLoop pyInt 65536 fuel hostLine 0).map fun r =>
        r.map fun p => some ⟨['G', 'E', 'T'], ['/'], p.1, p.2⟩ := rfl
  have hloop : headerLoop pyInt 65536 fuel hostLine 0 = none := by
    cases fuel with
    | zero => rfl
    | succ fuel =>
      have hhost : headerLoop pyInt 65536 (fuel + 1) hostLine 0 =
          headerLoop pyInt 65536 fuel [] 0 := rfl
      rw [hhost, headerLoop_exhausted]
  rw [hrequest, hloop]
  rfl

/-- **A request without its blank line** is read for ever. -/
theorem cut_request_never_ends :
    ¬ ∀ (pyInt : List Char → Option Int) (limit : Nat) (stream : List UInt8),
      ∃ fuel r, readRequest pyInt limit fuel stream = some r := by
  intro h
  obtain ⟨fuel, r, hr⟩ := h (fun _ => none) 65536 cutRequest
  rw [cutRequest_goes_on] at hr
  cases hr

end VoidOsMerger
