/-
  File:      VoidOsMerger/Config/Model.lean
  Subject:   THE CONFIGURATION FILE (common/src/config.c).

  The file is read through a line buffer of 256 bytes; each buffer is stripped of its comment, trimmed,
  and taken for a section header or an entry. The section is what the last header left.

  * `vomConfigLoad` -- the whole load, from the bytes of the file;
  * `stripComment_bytes`, `trimWhitespace_bytes` -- the two functions on a line as operations on its
    bytes;
  * `loadLine_eq` -- what a buffer does depends only on its stripped and trimmed text;
  * `vomConfigLoad_lines` -- the load works line by line, on a line of at most 255 bytes at once.
-/
import VoidOsMerger.Base.CText
import VoidOsMerger.Base.Lines

namespace VoidOsMerger

/-! ## 1. The configuration -/

structure VomConfig where
  clusterName : NulBuf 128
  masterEndpoint : NulBuf 128
  workerId : NulBuf 128
  heartbeatIntervalSec : UInt32
  advertisedCapabilities : NulBuf 128
  logLevel : NulBuf 128
  deriving DecidableEq

/-- A string literal of the source. -/
def literal (s : String) : CStr := CStr.upTo (s.toList.map fun c => UInt8.ofNat c.toNat)

/-- `vom_config_defaults` -/
def vomConfigDefaults : VomConfig where
  clusterName := NulBuf.copy 127 (literal "vom-default-cluster")
  masterEndpoint := NulBuf.copy 127 (literal "tcp://127.0.0.1:5555")
  workerId := NulBuf.copy 127 (literal "worker-default")
  heartbeatIntervalSec := 5
  advertisedCapabilities := NulBuf.copy 127 (literal "")
  logLevel := NulBuf.copy 127 (literal "info")

/-- `set_config_entry`; each field ends with the NUL of `vom_config_defaults`, which `strncpy` never
    reaches. -/
def setConfigEntry (config : VomConfig) (sec key val : CStr) : VomConfig :=
  if strcmp sec (literal "cluster") = 0 ∧ strcmp key (literal "name") = 0 then
    { config with clusterName := NulBuf.copy 127 val }
  else if strcmp sec (literal "master") = 0 ∧
      strcmp key (literal "endpoint") = 0 then
    { config with masterEndpoint := NulBuf.copy 127 val }
  else if strcmp sec (literal "worker") = 0 ∧ strcmp key (literal "id") = 0 then
    { config with workerId := NulBuf.copy 127 val }
  else if strcmp sec (literal "worker") = 0 ∧
      strcmp key (literal "heartbeat_interval") = 0 then
    { config with heartbeatIntervalSec := (strtoul val).toUInt32 }
  else if strcmp sec (literal "worker") = 0 ∧
      strcmp key (literal "capabilities") = 0 then
    { config with advertisedCapabilities := NulBuf.copy 127 val }
  else if strcmp sec (literal "logging") = 0 ∧
      strcmp key (literal "level") = 0 then
    { config with logLevel := NulBuf.copy 127 val }
  else config

/-! ## 2. Lines -/

/-- `trim_whitespace`: the second loop stops at the first byte that is left. -/
def trimWhitespace (str : CStr) : CStr :=
  let str := str.drop (str.bytes.takeWhile isSpace).length
  match str.bytes with
  | [] => str
  | _ :: l => str.take (1 + (l.rdropWhile isSpace).length)

/-- `strip_comment` -/
def stripComment (str : CStr) : CStr :=
  match strchr str 35, strchr str 59 with
  | some hash, some semi => str.take (if hash < semi then hash else semi)
  | some hash, none => str.take hash
  | none, some semi => str.take semi
  | none, none => str

/-- The variables of the loop of `vom_config_load`. -/
structure LoadState where
  out : VomConfig
  currentSection : NulBuf 64
  deriving DecidableEq

/-- The body of the loop after comment and white space are gone. -/
def loadText (st : LoadState) (s : CStr) : LoadState :=
  match s.bytes with
  | [] => st
  | b :: _ =>
    if b = 91 then
      match strchr s 93 with
      | none => st
      | some closing =>
        { st with currentSection := NulBuf.copy 63 (trimWhitespace ((s.take closing).drop 1)) }
    else
      match strchr s 61 with
      | none => st
      | some eq =>
        { st with
          out := setConfigEntry st.out st.currentSection.str (trimWhitespace (s.take eq))
            (trimWhitespace (s.drop (eq + 1))) }

/-- The body of the loop. -/
def loadLine (st : LoadState) (line : List UInt8) : LoadState :=
  loadText st (trimWhitespace (stripComment (CStr.upTo line)))

def loadStart : LoadState := ⟨vomConfigDefaults, NulBuf.copy 63 (literal "")⟩

/-- `vom_config_load`; `none` is a file that cannot be opened. -/
def vomConfigLoad : Option (List UInt8) → Bool × VomConfig
  | none => (false, vomConfigDefaults)
  | some file => (true, ((fgetsAll 10 255 file).foldl loadLine loadStart).out)

/-! ## 3. What a buffer does -/

theorem trimWhitespace_bytes (str : CStr) : (trimWhitespace str).bytes = trimmed str.bytes := by
  have hdrop : (str.drop (str.bytes.takeWhile isSpace).length).bytes =
      str.bytes.dropWhile isSpace := by
    have hsplit : str.bytes.takeWhile isSpace ++ str.bytes.dropWhile isSpace = str.bytes :=
      List.takeWhile_append_dropWhile
    calc str.bytes.drop (str.bytes.takeWhile isSpace).length
        = (str.bytes.takeWhile isSpace ++ str.bytes.dropWhile isSpace).drop
            (str.bytes.takeWhile isSpace).length := by rw [hsplit]
      _ = str.bytes.dropWhile isSpace := List.drop_left
  unfold trimWhitespace trimmed
  dsimp only
  split
  · rename_i hnil
    rw [hnil, ← hdrop, hnil]
    rfl
  · rename_i b l hcons
    have hb : isSpace b = false := by
      have hhead := List.head?_dropWhile_not isSpace str.bytes
      rw [← hdrop, hcons] at hhead
      simpa using hhead
    show (str.drop _).bytes.take _ = _
    rw [← hdrop, hcons, ← List.nil_append (b :: l), rdropWhile_append_cons [] hb l, List.nil_append,
      List.nil_append, Nat.add_comm, List.take_succ_cons,
      ← List.prefix_iff_eq_take.mp (List.rdropWhile_prefix isSpace l)]

/-- A byte that does not start a comment. -/
def isPlain (b : UInt8) : Bool := b ≠ 35 && b ≠ 59

theorem takeWhile_eq_take {α : Type} {p : α → Bool} {l : List α} {n : Nat} {a : α}
    (hbefore : ∀ b ∈ l.take n, p b = true) (ha : l[n]? = some a) (hp : p a = false) :
    l.takeWhile p = l.take n := by
  obtain ⟨hlt, rfl⟩ := List.getElem?_eq_some_iff.mp ha
  conv_lhs => rw [← List.take_append_drop n l]
  rw [List.takeWhile_append_of_pos hbefore, List.drop_eq_getElem_cons hlt,
    List.takeWhile_cons_of_neg (by simp [hp]), List.append_nil]

/-- `strip_comment` cuts at the first `#` or `;`. -/
theorem stripComment_bytes (str : CStr) :
    (stripComment str).bytes = str.bytes.takeWhile isPlain := by
  have hplain : ∀ {l : List UInt8}, (35 : UInt8) ∉ l → (59 : UInt8) ∉ l →
      ∀ b ∈ l, isPlain b = true := by
    intro l h35 h59 b hb
    simp only [isPlain, Bool.and_eq_true, decide_eq_true_eq]
    exact ⟨fun h => h35 (h ▸ hb), fun h => h59 (h ▸ hb)⟩
  have htake : ∀ {m n : Nat} {c : UInt8}, m ≤ n → c ∉ str.bytes.take n → c ∉ str.bytes.take m :=
    fun hmn hn hm => hn ((List.take_subset_take_left _ hmn) hm)
  unfold stripComment
  split
  · rename_i hash semi hhash hsemi
    obtain ⟨hash_at, hash_first⟩ := strchr_eq_some hhash
    obtain ⟨semi_at, semi_first⟩ := strchr_eq_some hsemi
    split
    · rename_i hlt
      exact (takeWhile_eq_take (hplain hash_first (htake hlt.le semi_first)) hash_at rfl).symm
    · rename_i hge
      exact (takeWhile_eq_take (hplain (htake (Nat.le_of_not_lt hge) hash_first) semi_first)
        semi_at rfl).symm
  · rename_i hash hhash hsemi
    obtain ⟨hash_at, hash_first⟩ := strchr_eq_some hhash
    exact (takeWhile_eq_take (hplain hash_first fun h =>
      strchr_eq_none hsemi (List.mem_of_mem_take h)) hash_at rfl).symm
  · rename_i semi hhash hsemi
    obtain ⟨semi_at, semi_first⟩ := strchr_eq_some hsemi
    exact (takeWhile_eq_take (hplain (fun h => strchr_eq_none hhash (List.mem_of_mem_take h))
      semi_first) semi_at rfl).symm
  · rename_i hhash hsemi
    exact (List.takeWhile_eq_self_iff.mpr
      (hplain (strchr_eq_none hhash) (strchr_eq_none hsemi))).symm

/-- The text of a line: before its comment, and before a NUL. -/
def lineText (line : List UInt8) : List UInt8 := (line.takeWhile isPlain).takeWhile (· ≠ 0)

/-- It does not matter which of the two is looked for first. -/
theorem takeWhile_comm (line : List UInt8) :
    (line.takeWhile (· ≠ 0)).takeWhile isPlain = lineText line := by
  unfold lineText
  rw [List.takeWhile_takeWhile, List.takeWhile_takeWhile]
  exact congrArg (List.takeWhile · line) (funext fun b => decide_eq_decide.mpr and_comm)

/-- The text that is left of a buffer. -/
theorem text_bytes (line : List UInt8) :
    (trimWhitespace (stripComment (CStr.upTo line))).bytes = trimmed (lineText line) := by
  rw [trimWhitespace_bytes, stripComment_bytes]
  exact congrArg trimmed (takeWhile_comm line)

/-- **What a buffer does** depends only on its text without the white space around it. -/
theorem loadLine_eq {line : List UInt8} {s : CStr} (hs : s.bytes = trimmed (lineText line))
    (st : LoadState) : loadLine st line = loadText st s := by
  have hstr : trimWhitespace (stripComment (CStr.upTo line)) = s :=
    CStr.ext ((text_bytes line).trans hs.symm)
  rw [loadLine, hstr]

theorem loadLine_congr {line line' : List UInt8}
    (h : trimmed (lineText line) = trimmed (lineText line')) (st : LoadState) :
    loadLine st line = loadLine st line' := by
  rw [loadLine_eq ((text_bytes line').trans h.symm), loadLine_eq (text_bytes line')]

theorem loadLine_nil (st : LoadState) : loadLine st [] = st :=
  loadLine_eq (s := literal "") rfl st

/-- The newline that ends a buffer is white space. -/
theorem loadLine_newline (st : LoadState) (l : List UInt8) :
    loadLine st (l ++ [10]) = loadLine st l := by
  have hends : lineText (l ++ [10]) = lineText l ∨ lineText (l ++ [10]) = lineText l ++ [10] := by
    unfold lineText
    rw [List.takeWhile_append]
    split
    · rename_i hall
      rw [(List.takeWhile_prefix isPlain).eq_of_length hall, List.takeWhile_append]
      split
      · rename_i hall'
        right
        rw [(List.takeWhile_prefix _).eq_of_length hall']
        rfl
      · exact Or.inl rfl
    · exact Or.inl rfl
  refine loadLine_congr ?_ st
  rcases hends with hsame | hmore
  · rw [hsame]
  · rw [hmore, trimmed_append (by decide +kernel)]

/-- **The load works line by line.** -/
theorem vomConfigLoad_lines (file : List UInt8) :
    vomConfigLoad (some file) =
      (true, ((fileLines 10 file).foldl (fun st l => (fgetsAll 10 255 l).foldl loadLine st)
        loadStart).out) := by
  rw [vomConfigLoad, foldl_fgetsAll 10 (by decide) loadLine_nil loadLine_newline]

/-- A line of at most 255 bytes is one buffer. -/
theorem loadLine_short {l : List UInt8} (hnl : (10 : UInt8) ∉ l) (hlen : l.length ≤ 255)
    (st : LoadState) : (fgetsAll 10 255 l).foldl loadLine st = loadLine st l :=
  foldl_fgetsAll_short 10 (by decide) loadLine_nil hnl hlen st

end VoidOsMerger
