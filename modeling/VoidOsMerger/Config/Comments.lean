/-
  File:      VoidOsMerger/Config/Comments.lean
  Subject:   WHEN COMMENTS HAVE NO EFFECT ON A CONFIGURATION.

  A comment is stripped from each buffer, not from each line: what a comment has in the buffers behind
  the one it starts in is read as configuration.

  * `spill`, `directives` -- that part of a comment, and what the load takes it for;
  * `foldl_spill` -- a line does what its text does, and then what its comment spills;
  * `load_eq_of_inert` -- comments that spill no header and no entry of the configuration;
  * `inertComment_of_fits` -- one that ends in the buffer it starts in is such a comment;
  * `exists_file_header`, `exists_file_entry` -- a file in which any other comment shows;
  * **`comments_no_effect_iff`** -- the conditions on comments under which they have no effect.
-/
import VoidOsMerger.Config.Roundtrip
import Mathlib.Data.List.Forall2

namespace VoidOsMerger

/-! ## 1. What is left of a comment -/

/-- The files have the same number of lines, and these agree, one by one, on the text before the first
    `#` or `;`. -/
def SameBeforeComments (file file' : List UInt8) : Prop :=
  List.Forall₂ (fun l l' => l.takeWhile isPlain = l'.takeWhile isPlain) (fileLines 10 file)
    (fileLines 10 file')

/-- A comment, from its mark to the end of its line. -/
structure IsComment (c : List UInt8) : Prop where
  marked : ∃ b ∈ c.head?, isPlain b = false
  oneLine : (10 : UInt8) ∉ c
  noNul : (0 : UInt8) ∉ c

/-- Every comment of the file satisfies `P`, given the number of bytes before it in its line. -/
def CommentsAre (P : Nat → List UInt8 → Prop) (file : List UInt8) : Prop :=
  ∀ l ∈ fileLines 10 file, l.dropWhile isPlain ≠ [] →
    P (l.takeWhile isPlain).length (l.dropWhile isPlain)

/-- What a comment behind `n` bytes of text has in the buffers after the one it starts in. -/
def spill (n : Nat) (c : List UInt8) : List UInt8 := c.drop (255 - n % 255)

/-- What the text of a buffer tells the load. -/
inductive Directive
  | header (sec : CStr)
  | entry (key val : CStr)
  deriving DecidableEq

def directive (s : CStr) : Option Directive :=
  match s.bytes with
  | [] => none
  | b :: _ =>
    if b = 91 then
      (strchr s 93).map fun closing => .header (trimWhitespace ((s.take closing).drop 1))
    else
      (strchr s 61).map fun eq =>
        .entry (trimWhitespace (s.take eq)) (trimWhitespace (s.drop (eq + 1)))

/-- The directives in the buffers of a line. -/
def directives (l : List UInt8) : List Directive :=
  (fgetsAll 10 255 l).filterMap fun line => directive (trimWhitespace (stripComment (CStr.upTo line)))

def Directive.apply (st : LoadState) : Directive → LoadState
  | .header sec => { st with currentSection := NulBuf.copy 63 sec }
  | .entry key val => { st with out := setConfigEntry st.out st.currentSection.str key val }

def ConfigEntry.all : List ConfigEntry :=
  [.clusterName, .masterEndpoint, .workerId, .heartbeatInterval, .capabilities, .logLevel]

/-- No header, and no entry with a key that `set_config_entry` knows. -/
def Directive.Inert : Directive → Prop
  | .header _ => False
  | .entry key _ => ∀ e ∈ ConfigEntry.all, key ≠ e.key

instance : (d : Directive) → Decidable d.Inert
  | .header _ => inferInstanceAs (Decidable False)
  | .entry key _ => inferInstanceAs (Decidable (∀ e ∈ ConfigEntry.all, key ≠ e.key))

/-- What a comment behind `n` bytes of text spills is no configuration. -/
def InertComment (n : Nat) (c : List UInt8) : Prop := ∀ d ∈ directives (spill n c), d.Inert

instance (n : Nat) (c : List UInt8) : Decidable (InertComment n c) :=
  inferInstanceAs (Decidable (∀ d ∈ directives (spill n c), d.Inert))

/-! ## 2. What a line does -/

theorem ConfigEntry.mem_all (e : ConfigEntry) : e ∈ ConfigEntry.all := by
  cases e <;> decide

theorem loadText_directive (st : LoadState) (s : CStr) :
    loadText st s = (directive s).elim st (Directive.apply st) := by
  unfold loadText directive
  cases s.bytes with
  | nil => rfl
  | cons b l =>
    dsimp only
    split
    · cases strchr s 93 <;> rfl
    · cases strchr s 61 <;> rfl

theorem foldl_directives (l : List UInt8) (st : LoadState) :
    (fgetsAll 10 255 l).foldl loadLine st = (directives l).foldl Directive.apply st := by
  rw [directives, List.foldl_filterMap]
  congr 1
  funext st line
  rw [loadLine, loadText_directive]
  cases directive (trimWhitespace (stripComment (CStr.upTo line))) <;> rfl

/-- A key that is unknown, or that stands outside its section. -/
theorem setConfigEntry_other {sec key : CStr}
    (h : ∀ e : ConfigEntry, ¬ (sec = e.home.name ∧ key = e.key)) (config : VomConfig) (val : CStr) :
    setConfigEntry config sec key val = config := by
  have hcmp : ∀ e : ConfigEntry, ¬ (strcmp sec e.home.name = 0 ∧ strcmp key e.key = 0) := by
    simpa only [strcmp_eq_zero_iff] using h
  exact (if_neg (hcmp .clusterName)).trans <| (if_neg (hcmp .masterEndpoint)).trans <|
    (if_neg (hcmp .workerId)).trans <| (if_neg (hcmp .heartbeatInterval)).trans <|
    (if_neg (hcmp .capabilities)).trans (if_neg (hcmp .logLevel))

theorem Directive.Inert.apply {d : Directive} (h : d.Inert) (st : LoadState) : d.apply st = st := by
  cases d with
  | header sec => exact h.elim
  | entry key val => rw [Directive.apply, setConfigEntry_other fun e he => h e e.mem_all he.2]

theorem foldl_inert {ds : List Directive} (h : ∀ d ∈ ds, d.Inert) (st : LoadState) :
    ds.foldl Directive.apply st = st := by
  induction ds with
  | nil => rfl
  | cons d ds ih =>
    rw [List.forall_mem_cons] at h
    rw [List.foldl_cons, h.1.apply, ih h.2]

/-- The first buffer of a line whose text fills it holds text only. -/
theorem take_of_text {l : List UInt8} {n : Nat} (h : n ≤ (l.takeWhile isPlain).length) :
    l.take n = (l.takeWhile isPlain).take n ∧
      (l.drop n).takeWhile isPlain = (l.takeWhile isPlain).drop n := by
  have hsplit : l.takeWhile isPlain ++ l.dropWhile isPlain = l := List.takeWhile_append_dropWhile
  have hend : (l.dropWhile isPlain).takeWhile isPlain = [] := by
    have hhead := List.head?_dropWhile_not isPlain l
    cases hdrop : l.dropWhile isPlain with
    | nil => rfl
    | cons b r =>
      rw [hdrop] at hhead
      exact List.takeWhile_cons_of_neg (by simpa using hhead)
  constructor
  · conv_lhs => rw [← hsplit]
    exact List.take_append_of_le_length h
  · conv_lhs => rw [← hsplit]
    rw [List.drop_append_of_le_length h, List.takeWhile_append_of_pos, hend, List.append_nil]
    exact fun b hb => List.mem_takeWhile_imp (List.mem_of_mem_drop hb)

/-- The first buffer of a line longer than a buffer. -/
theorem fgetsAll_long {l : List UInt8} (hnl : (10 : UInt8) ∉ l) (hlen : 255 ≤ l.length) :
    fgetsAll 10 255 l = l.take 255 :: fgetsAll 10 255 (l.drop 255) := by
  have hwhole : fgetsLen 10 255 l = 255 := by simpa using fgetsLen_long 10 [] hnl hlen
  rw [fgetsAll_step 10 (by decide) (List.ne_nil_of_length_pos (by omega)), hwhole]

/-- The buffer in which the text of a line ends. -/
theorem loadLine_lastText {l : List UInt8} (hlen : (l.takeWhile isPlain).length < 255)
    (st : LoadState) : loadLine st (l.take 255) = loadLine st (l.takeWhile isPlain) := by
  refine loadLine_congr ?_ st
  have htake : (l.take 255).takeWhile isPlain = l.takeWhile isPlain := by
    rw [← List.take_takeWhile]
    exact List.take_of_length_le hlen.le
  have hself : (l.takeWhile isPlain).takeWhile isPlain = l.takeWhile isPlain :=
    List.takeWhile_eq_self_iff.mpr fun _ => List.mem_takeWhile_imp
  rw [lineText, lineText, htake, hself]

/-- **A line does what its text does, and then what its comment spills.** -/
theorem foldl_spill {l : List UInt8} (hnl : (10 : UInt8) ∉ l) (st : LoadState) :
    (fgetsAll 10 255 l).foldl loadLine st =
      (directives (spill (l.takeWhile isPlain).length (l.dropWhile isPlain))).foldl Directive.apply
        ((fgetsAll 10 255 (l.takeWhile isPlain)).foldl loadLine st) := by
  -- by induction on the text: a full buffer of it is taken off both sides
  induction hk : (l.takeWhile isPlain).length using Nat.strong_induction_on generalizing l st with
  | _ k ih =>
    subst hk
    have hsplit : l.takeWhile isPlain ++ l.dropWhile isPlain = l := List.takeWhile_append_dropWhile
    have hsum := congrArg List.length hsplit
    rw [List.length_append] at hsum
    have hnlText : (10 : UInt8) ∉ l.takeWhile isPlain := fun h => hnl (List.takeWhile_subset _ h)
    by_cases hlen : (l.takeWhile isPlain).length < 255
    · rw [← foldl_directives, loadLine_short hnlText hlen.le, spill, Nat.mod_eq_of_lt hlen]
      by_cases hshort : l.length < 255
      · rw [loadLine_short hnl hshort.le, List.drop_eq_nil_of_le (by omega),
          ← loadLine_lastText hlen, List.take_of_length_le hshort.le]
        rfl
      · have hdrop : l.drop 255 =
            (l.dropWhile isPlain).drop (255 - (l.takeWhile isPlain).length) := by
          conv_lhs => rw [← hsplit]
          rw [List.drop_append, List.drop_eq_nil_of_le hlen.le, List.nil_append]
        rw [fgetsAll_long hnl (by omega), List.foldl_cons, loadLine_lastText hlen, hdrop]
    · have hfull : 255 ≤ (l.takeWhile isPlain).length := Nat.le_of_not_lt hlen
      have htext := take_of_text hfull
      have hrest : (l.drop 255).dropWhile isPlain = l.dropWhile isPlain := by
        have hboth : (l.drop 255).takeWhile isPlain ++ (l.drop 255).dropWhile isPlain =
            (l.takeWhile isPlain).drop 255 ++ l.dropWhile isPlain := by
          rw [List.takeWhile_append_dropWhile, ← List.drop_append_of_le_length hfull, hsplit]
        rw [htext.2] at hboth
        exact List.append_cancel_left hboth
      rw [fgetsAll_long hnl (by omega), fgetsAll_long hnlText hfull, List.foldl_cons,
        List.foldl_cons, htext.1,
        ih _ (by rw [htext.2, List.length_drop]; omega)
          (fun h => hnl (List.mem_of_mem_drop h)) _ rfl,
        htext.2, hrest, List.length_drop, spill, spill, ← Nat.mod_eq_sub_mod hfull]

/-! ## 3. Inert comments -/

/-- The loop of the load over the lines of a file. -/
def loadLines (st : LoadState) (ls : List (List UInt8)) : LoadState :=
  ls.foldl (fun st l => (fgetsAll 10 255 l).foldl loadLine st) st

/-- A line whose comment, if it has one, is inert does what its text does. -/
theorem foldl_text {l : List UInt8} (hnl : (10 : UInt8) ∉ l)
    (hinert : l.dropWhile isPlain ≠ [] →
      InertComment (l.takeWhile isPlain).length (l.dropWhile isPlain)) (st : LoadState) :
    (fgetsAll 10 255 l).foldl loadLine st =
      (fgetsAll 10 255 (l.takeWhile isPlain)).foldl loadLine st := by
  rw [foldl_spill hnl]
  by_cases hnone : l.dropWhile isPlain = []
  · rw [hnone, spill, List.drop_nil]
    rfl
  · exact foldl_inert (hinert hnone) _

/-- Lines that do what their texts do, and have the same texts. -/
theorem loadLines_sameTexts {ls ls' : List (List UInt8)}
    (hsame : List.Forall₂ (fun l l' => l.takeWhile isPlain = l'.takeWhile isPlain) ls ls')
    (htext : ∀ l ∈ ls ++ ls', ∀ st, (fgetsAll 10 255 l).foldl loadLine st =
      (fgetsAll 10 255 (l.takeWhile isPlain)).foldl loadLine st) (st : LoadState) :
    loadLines st ls = loadLines st ls' := by
  induction hsame generalizing st with
  | nil => rfl
  | @cons l l' ls ls' hl _ ih =>
    have hmem : ∀ x ∈ ls ++ ls', x ∈ l :: ls ++ l' :: ls' := by
      simp only [List.mem_append, List.mem_cons]
      tauto
    have hfirst : (fgetsAll 10 255 l).foldl loadLine st = (fgetsAll 10 255 l').foldl loadLine st := by
      rw [htext l (by simp), htext l' (by simp), hl]
    rw [loadLines, loadLines, List.foldl_cons, List.foldl_cons, hfirst]
    exact ih (fun x hx => htext x (hmem x hx)) _

/-- **Inert comments have no effect**, also in files with NUL bytes. -/
theorem load_eq_of_inert {file file' : List UInt8} (hsame : SameBeforeComments file file')
    (hinert : CommentsAre InertComment file) (hinert' : CommentsAre InertComment file') :
    vomConfigLoad (some file) = vomConfigLoad (some file') := by
  have hlines : loadLines loadStart (fileLines 10 file) = loadLines loadStart (fileLines 10 file') := by
    refine loadLines_sameTexts hsame (fun l hl => ?_) loadStart
    rcases List.mem_append.mp hl with hl | hl
    · exact foldl_text (not_mem_of_mem_fileLines 10 hl) (hinert l hl)
    · exact foldl_text (not_mem_of_mem_fileLines 10 hl) (hinert' l hl)
  rw [vomConfigLoad_lines, vomConfigLoad_lines, ← loadLines, ← loadLines, hlines]

/-- A comment that ends in the buffer it starts in is inert. -/
theorem inertComment_of_fits {n : Nat} {c : List UInt8} (h : n % 255 + c.length ≤ 255) :
    InertComment n c := by
  intro d hd
  rw [spill, List.drop_eq_nil_of_le (by omega)] at hd
  cases hd

-- a line of dashes is spilled, and is no configuration
example : InertComment 9 (35 :: List.replicate 400 45) := by decide +kernel

/-! ## 4. Comments that show -/

/-- The field of an entry. -/
def ConfigEntry.field (config : VomConfig) : ConfigEntry → NulBuf 128 ⊕ UInt32
  | .clusterName => .inl config.clusterName
  | .masterEndpoint => .inl config.masterEndpoint
  | .workerId => .inl config.workerId
  | .heartbeatInterval => .inr config.heartbeatIntervalSec
  | .capabilities => .inl config.advertisedCapabilities
  | .logLevel => .inl config.logLevel

/-- What the field holds once the entry is read. -/
def ConfigEntry.stored (val : CStr) : ConfigEntry → NulBuf 128 ⊕ UInt32
  | .heartbeatInterval => .inr (strtoul val).toUInt32
  | _ => .inl (NulBuf.copy 127 val)

theorem ConfigEntry.field_write (e e' : ConfigEntry) (val : CStr) (config : VomConfig) :
    e.field (e'.write val config) = if e' = e then e.stored val else e.field config := by
  cases e <;> cases e' <;> rfl

theorem ConfigEntry.field_set (e : ConfigEntry) (config : VomConfig) (sec key val : CStr) :
    e.field (setConfigEntry config sec key val) =
      if sec = e.home.name ∧ key = e.key then e.stored val else e.field config := by
  by_cases hknown : ∃ e' : ConfigEntry, sec = e'.home.name ∧ key = e'.key
  · obtain ⟨e', rfl, rfl⟩ := hknown
    have hkeys : (e'.home.name = e.home.name ∧ e'.key = e.key) ↔ e' = e := by
      cases e <;> cases e' <;> decide
    rw [setConfigEntry_entry, ConfigEntry.field_write]
    simp only [hkeys]
  · have hnone := not_exists.mp hknown
    rw [setConfigEntry_other hnone, if_neg (hnone e)]

/-- Without a header the section stays. -/
theorem section_foldl {ds : List Directive} (h : ∀ sec, Directive.header sec ∉ ds) (st : LoadState) :
    (ds.foldl Directive.apply st).currentSection = st.currentSection := by
  induction ds generalizing st with
  | nil => rfl
  | cons d ds ih =>
    rw [List.foldl_cons, ih fun sec hsec => h sec (List.mem_cons_of_mem _ hsec)]
    cases d with
    | header sec => exact absurd List.mem_cons_self (h sec)
    | entry key val => rfl

/-- With a header the section is that of the last one. -/
theorem section_foldl_header {ds : List Directive} (h : ∃ sec, Directive.header sec ∈ ds) :
    ∃ last, ∀ st, (ds.foldl Directive.apply st).currentSection = last := by
  induction ds using List.reverseRecOn with
  | nil => simp at h
  | append_singleton ds d ih =>
    simp only [List.foldl_append, List.foldl_cons, List.foldl_nil]
    cases d with
    | header sec => exact ⟨NulBuf.copy 63 sec, fun _ => rfl⟩
    | entry key val => exact ih (by simpa using h)

/-- Without a header, the last entry of a key leaves its value, whatever was there before. -/
theorem field_foldl {e : ConfigEntry} {ds : List Directive} (hnone : ∀ sec, Directive.header sec ∉ ds)
    (h : ∃ val, Directive.entry e.key val ∈ ds) :
    ∃ last, ∀ st : LoadState, st.currentSection.str = e.home.name →
      e.field (ds.foldl Directive.apply st).out = last := by
  induction ds using List.reverseRecOn with
  | nil => simp at h
  | append_singleton ds d ih =>
    have hnone' : ∀ sec, Directive.header sec ∉ ds := fun sec hsec =>
      hnone sec (List.mem_append_left _ hsec)
    simp only [List.foldl_append, List.foldl_cons, List.foldl_nil]
    cases d with
    | header sec => exact absurd (List.mem_append_right _ List.mem_cons_self) (hnone sec)
    | entry key val =>
      by_cases hkey : key = e.key
      · refine ⟨e.stored val, fun st hst => ?_⟩
        rw [Directive.apply, ConfigEntry.field_set, section_foldl hnone', if_pos ⟨hst, hkey⟩]
      · have hbefore : ∃ val, Directive.entry e.key val ∈ ds := by
          obtain ⟨val', hval'⟩ := h
          refine ⟨val', (List.mem_append.mp hval').resolve_right fun hlast => hkey ?_⟩
          exact (Directive.entry.inj (List.mem_singleton.mp hlast)).1.symm
        obtain ⟨last, hlast⟩ := ih hnone' hbefore
        refine ⟨last, fun st hst => ?_⟩
        rw [Directive.apply, ConfigEntry.field_set, if_neg fun hc => hkey hc.2, hlast st hst]

/-- The header of a section, as a line. -/
def headerLine (sec : ConfigSection) : List UInt8 := 91 :: (sec.name.bytes ++ [93])

/-- One of two values that differ in every field. -/
def probe : Bool → CStr
  | true => literal "1"
  | false => literal "2"

def entryLine (e : ConfigEntry) (v : Bool) : List UInt8 := e.key.bytes ++ 61 :: (probe v).bytes

theorem exists_probe_ne (e : ConfigEntry) (f : NulBuf 128 ⊕ UInt32) :
    ∃ v, e.stored (probe v) ≠ f := by
  by_cases h : e.stored (probe true) = f
  · refine ⟨false, h ▸ ?_⟩
    cases e <;> decide +kernel
  · exact ⟨true, h⟩

theorem loadLines_header (st : LoadState) (sec : ConfigSection) (ls : List (List UInt8)) :
    loadLines st (headerLine sec :: ls) =
      loadLines { st with currentSection := NulBuf.copy 63 sec.name } ls := by
  have hline : (fgetsAll 10 255 (headerLine sec)).foldl loadLine st =
      { st with currentSection := NulBuf.copy 63 sec.name } := by
    rw [foldl_directives]
    have hd : directives (headerLine sec) = [.header sec.name] := by cases sec <;> decide +kernel
    rw [hd]
    rfl
  rw [loadLines, List.foldl_cons, hline, loadLines]

theorem loadLines_entry (st : LoadState) (e : ConfigEntry) (v : Bool) (ls : List (List UInt8)) :
    loadLines st (entryLine e v :: ls) =
      loadLines { st with out := setConfigEntry st.out st.currentSection.str e.key (probe v) } ls := by
  have hline : (fgetsAll 10 255 (entryLine e v)).foldl loadLine st =
      { st with out := setConfigEntry st.out st.currentSection.str e.key (probe v) } := by
    rw [foldl_directives]
    have hd : directives (entryLine e v) = [.entry e.key (probe v)] := by
      cases e <;> cases v <;> decide +kernel
    rw [hd]
    rfl
  rw [loadLines, List.foldl_cons, hline, loadLines]

theorem copy_name_str (sec : ConfigSection) : (NulBuf.copy 63 sec.name).str = sec.name :=
  NulBuf.copy_str (by cases sec <;> decide)

/-- Lines without a comment that set one section and one entry. -/
inductive ProbeLine : List UInt8 → Prop
  | header (sec : ConfigSection) : ProbeLine (headerLine sec)
  | entry (e : ConfigEntry) (v : Bool) : ProbeLine (entryLine e v)

theorem ProbeLine.plain {l : List UInt8} (h : ProbeLine l) :
    (∀ b ∈ l, isPlain b = true) ∧ (10 : UInt8) ∉ l ∧ (0 : UInt8) ∉ l := by
  cases h with
  | header sec =>
    cases sec <;> exact ⟨List.all_eq_true.mp rfl, by decide +kernel, by decide +kernel⟩
  | entry e v =>
    cases e <;> cases v <;> exact ⟨List.all_eq_true.mp rfl, by decide +kernel, by decide +kernel⟩

/-- **A header in the spill shows** in an entry of another section behind it. -/
theorem exists_file_header {ds : List Directive} (h : ∃ sec, Directive.header sec ∈ ds) :
    ∃ before after, (∀ l ∈ before ++ after, ProbeLine l) ∧
      (loadLines (ds.foldl Directive.apply (loadLines loadStart before)) after).out ≠
        (loadLines (loadLines loadStart before) after).out := by
  obtain ⟨last, hlast⟩ := section_foldl_header h
  -- an entry whose section is not the one that the comment leaves
  obtain ⟨e, he⟩ : ∃ e : ConfigEntry, last.str ≠ e.home.name := by
    by_cases hcluster : last.str = ConfigEntry.clusterName.home.name
    · exact ⟨.logLevel, hcluster ▸ by decide⟩
    · exact ⟨.clusterName, hcluster⟩
  let st := ds.foldl Directive.apply (loadLines loadStart [headerLine e.home])
  obtain ⟨v, hv⟩ := exists_probe_ne e (e.field st.out)
  refine ⟨[headerLine e.home], [entryLine e v], ?_, fun heq => hv ?_⟩
  · simp only [List.cons_append, List.nil_append, List.forall_mem_cons]
    exact ⟨.header _, .entry _ _, nofun⟩
  · have hfield := congrArg e.field heq
    rw [loadLines_entry, loadLines_entry, loadLines_header] at hfield
    simp only [loadLines, List.foldl_nil, ConfigEntry.field_set, hlast, copy_name_str, he,
      false_and, and_self, if_true, if_false] at hfield
    rw [← hfield]
    simp only [st, loadLines_header]
    rfl

/-- **An entry in the spill shows** where its key has another value before it. -/
theorem exists_file_entry {e : ConfigEntry} {ds : List Directive}
    (hnone : ∀ sec, Directive.header sec ∉ ds) (h : ∃ val, Directive.entry e.key val ∈ ds) :
    ∃ before after, (∀ l ∈ before ++ after, ProbeLine l) ∧
      (loadLines (ds.foldl Directive.apply (loadLines loadStart before)) after).out ≠
        (loadLines (loadLines loadStart before) after).out := by
  obtain ⟨last, hlast⟩ := field_foldl hnone h
  obtain ⟨v, hv⟩ := exists_probe_ne e last
  refine ⟨[headerLine e.home, entryLine e v], [], ?_, fun heq => hv ?_⟩
  · simp only [List.append_nil, List.forall_mem_cons]
    exact ⟨.header _, .entry _ _, nofun⟩
  · have hfield := congrArg e.field heq
    rw [loadLines_header, loadLines_entry] at hfield
    simp only [loadLines, List.foldl_nil] at hfield
    rw [hlast _ (copy_name_str _), ConfigEntry.field_set, if_pos ⟨copy_name_str _, rfl⟩] at hfield
    exact hfield.symm

/-- **What is not inert shows** in some file. -/
theorem exists_file {ds : List Directive} (h : ¬ ∀ d ∈ ds, d.Inert) :
    ∃ before after, (∀ l ∈ before ++ after, ProbeLine l) ∧
      (loadLines (ds.foldl Directive.apply (loadLines loadStart before)) after).out ≠
        (loadLines (loadLines loadStart before) after).out := by
  by_cases hheader : ∃ sec, Directive.header sec ∈ ds
  · exact exists_file_header hheader
  · simp only [not_forall] at h
    obtain ⟨d, hd, hknown⟩ := h
    cases d with
    | header sec => exact absurd ⟨sec, hd⟩ hheader
    | entry key val =>
      simp only [Directive.Inert, not_forall, not_not] at hknown
      obtain ⟨e, _, rfl⟩ := hknown
      exact exists_file_entry (not_exists.mp hheader) ⟨val, hd⟩

/-! ## 5. Files -/

/-- The lines of a file, each with its newline. -/
def fileOf (ls : List (List UInt8)) : List UInt8 := ls.flatMap (· ++ [10])

theorem fileLines_fileOf {ls : List (List UInt8)} (h : ∀ l ∈ ls, (10 : UInt8) ∉ l) :
    fileLines 10 (fileOf ls) = ls := by
  induction ls with
  | nil => rfl
  | cons l ls ih =>
    rw [List.forall_mem_cons] at h
    rw [fileOf, List.flatMap_cons, List.append_assoc, List.singleton_append, fileLines_line 10 _ h.1]
    exact congrArg (l :: ·) (ih h.2)

theorem vomConfigLoad_fileOf {ls : List (List UInt8)} (h : ∀ l ∈ ls, (10 : UInt8) ∉ l) :
    vomConfigLoad (some (fileOf ls)) = (true, (loadLines loadStart ls).out) := by
  rw [vomConfigLoad_lines, fileLines_fileOf h, loadLines]

theorem zero_not_mem_fileOf {ls : List (List UInt8)} (h : ∀ l ∈ ls, (0 : UInt8) ∉ l) :
    (0 : UInt8) ∉ fileOf ls := by
  simp only [fileOf, List.mem_flatMap, List.mem_append, List.mem_singleton, not_exists, not_and,
    not_or]
  exact fun l hl => ⟨h l hl, by decide⟩

/-- A line of blanks does nothing. -/
theorem foldl_blanks (n : Nat) (st : LoadState) :
    (fgetsAll 10 255 (List.replicate n 32)).foldl loadLine st = st := by
  have hblank : ∀ k, loadLine st (List.replicate k 32) = st := by
    intro k
    have hkeep : ∀ p : UInt8 → Bool, p 32 = true →
        (List.replicate k 32).takeWhile p = List.replicate k 32 := fun p hp =>
      List.takeWhile_eq_self_iff.mpr fun b hb => (List.eq_of_mem_replicate hb).symm ▸ hp
    have hwhite : ∀ b ∈ List.replicate k (32 : UInt8), isSpace b = true := fun b hb =>
      (List.eq_of_mem_replicate hb).symm ▸ rfl
    have htrim : trimmed (lineText (List.replicate k 32)) = trimmed (lineText []) := by
      rw [lineText, hkeep isPlain rfl, hkeep _ rfl, ← List.append_nil (List.replicate k 32),
        trimmed_prepend hwhite]
      rfl
    rw [loadLine_congr htrim, loadLine_nil]
  have hnl : ∀ k, (10 : UInt8) ∉ List.replicate k 32 := fun k hk =>
    absurd (List.eq_of_mem_replicate hk) (by decide)
  induction n using Nat.strong_induction_on with
  | _ n ih =>
    by_cases hlen : n ≤ 255
    · rw [loadLine_short (hnl n) (by rwa [List.length_replicate]), hblank]
    · rw [fgetsAll_long (hnl n) (by rw [List.length_replicate]; omega), List.foldl_cons,
        List.take_replicate, List.drop_replicate, hblank, ih (n - 255) (by omega)]

theorem takeWhile_blanks {c : List UInt8} (hc : IsComment c) (n : Nat) :
    (List.replicate n 32 ++ c).takeWhile isPlain = List.replicate n 32 := by
  obtain ⟨b, hb, hmark⟩ := hc.marked
  obtain ⟨r, rfl⟩ := List.head?_eq_some_iff.mp hb
  rw [List.takeWhile_append_of_pos fun a ha => by rw [List.eq_of_mem_replicate ha]; rfl,
    List.takeWhile_cons_of_neg (by simp [hmark]), List.append_nil]

theorem dropWhile_blanks {c : List UInt8} (hc : IsComment c) (n : Nat) :
    (List.replicate n 32 ++ c).dropWhile isPlain = c := by
  have hboth : (List.replicate n 32 ++ c).takeWhile isPlain ++
      (List.replicate n 32 ++ c).dropWhile isPlain = List.replicate n 32 ++ c :=
    List.takeWhile_append_dropWhile
  rw [takeWhile_blanks hc] at hboth
  exact List.append_cancel_left hboth

theorem not_mem_blanks {b : UInt8} (hb : b ≠ 32) {c : List UInt8} (hmem : b ∉ c) (n : Nat) :
    b ∉ List.replicate n 32 ++ c := fun h =>
  (List.mem_append.mp h).elim (fun h => hb (List.eq_of_mem_replicate h)) hmem

/-- The files `exists_file` is about: one line among others that have no comment. -/
structure Among (before after : List (List UInt8)) (l : List UInt8) : Prop where
  probes : ∀ l' ∈ before ++ after, ProbeLine l'
  oneLine : (10 : UInt8) ∉ l
  noNul : (0 : UInt8) ∉ l

section Among

variable {before after : List (List UInt8)} {l : List UInt8}

theorem Among.cases (h : Among before after l) {l' : List UInt8} (hl' : l' ∈ before ++ l :: after) :
    ProbeLine l' ∨ l' = l := by
  rcases List.mem_append.mp hl' with hbefore | hrest
  · exact Or.inl (h.probes l' (List.mem_append_left _ hbefore))
  · rcases List.mem_cons.mp hrest with heq | hafter
    · exact Or.inr heq
    · exact Or.inl (h.probes l' (List.mem_append_right _ hafter))

theorem Among.oneLines (h : Among before after l) :
    ∀ l' ∈ before ++ l :: after, (10 : UInt8) ∉ l' := by
  intro l' hl'
  rcases h.cases hl' with hprobe | rfl
  · exact hprobe.plain.2.1
  · exact h.oneLine

theorem Among.zero_not_mem (h : Among before after l) :
    (0 : UInt8) ∉ fileOf (before ++ l :: after) := by
  refine zero_not_mem_fileOf fun l' hl' => ?_
  rcases h.cases hl' with hprobe | rfl
  · exact hprobe.plain.2.2
  · exact h.noNul

theorem Among.commentsAre (h : Among before after l) {P : Nat → List UInt8 → Prop}
    (hP : l.dropWhile isPlain ≠ [] → P (l.takeWhile isPlain).length (l.dropWhile isPlain)) :
    CommentsAre P (fileOf (before ++ l :: after)) := by
  intro l' hl'
  rw [fileLines_fileOf h.oneLines] at hl'
  rcases h.cases hl' with hprobe | rfl
  · exact fun hcomment => absurd (List.dropWhile_eq_nil_iff.mpr hprobe.plain.1) hcomment
  · exact hP

theorem Among.load (h : Among before after l) :
    vomConfigLoad (some (fileOf (before ++ l :: after))) =
      (true,
        (loadLines ((fgetsAll 10 255 l).foldl loadLine (loadLines loadStart before)) after).out) := by
  rw [vomConfigLoad_fileOf h.oneLines, loadLines, List.foldl_append, List.foldl_cons]
  rfl

theorem Among.same {l' : List UInt8} (h : Among before after l) (h' : Among before after l')
    (heq : l.takeWhile isPlain = l'.takeWhile isPlain) :
    SameBeforeComments (fileOf (before ++ l :: after)) (fileOf (before ++ l' :: after)) := by
  rw [SameBeforeComments, fileLines_fileOf h.oneLines, fileLines_fileOf h'.oneLines]
  have hrefl : ∀ ls : List (List UInt8),
      List.Forall₂ (fun l l' => l.takeWhile isPlain = l'.takeWhile isPlain) ls ls :=
    fun ls => List.forall₂_same.mpr fun _ _ => rfl
  exact List.rel_append (hrefl before) (List.Forall₂.cons heq (hrefl after))

end Among

/-! ## 6. The conditions -/

/-- The comments of a file without NUL are comments. -/
theorem isComment_of_mem {file l : List UInt8} (hnul : (0 : UInt8) ∉ file) (hl : l ∈ fileLines 10 file)
    (hcomment : l.dropWhile isPlain ≠ []) : IsComment (l.dropWhile isPlain) where
  marked := by
    have hhead := List.head?_dropWhile_not isPlain l
    cases hdrop : l.dropWhile isPlain with
    | nil => exact absurd hdrop hcomment
    | cons b r =>
      rw [hdrop] at hhead
      exact ⟨b, rfl, by simpa using hhead⟩
  oneLine h := not_mem_of_mem_fileLines 10 hl ((List.dropWhile_suffix _).subset h)
  noNul h := hnul (mem_of_mem_fileLines 10 hl ((List.dropWhile_suffix _).subset h))

/-- **The conditions on comments under which they have no effect**: where a comment may stand and what
    it may hold has to rule out every comment that spills a header or an entry of the configuration,
    and that is enough. -/
theorem comments_no_effect_iff (P : Nat → List UInt8 → Prop) :
    (∀ file file' : List UInt8, 0 ∉ file → 0 ∉ file' → CommentsAre P file → CommentsAre P file' →
      SameBeforeComments file file' → vomConfigLoad (some file) = vomConfigLoad (some file')) ↔
    ∀ n c, IsComment c → P n c → InertComment n c := by
  constructor
  · intro h n c hc hP
    by_contra hshows
    obtain ⟨before, after, hprobe, hne⟩ := exists_file hshows
    -- the comment behind blanks, against the blanks alone
    have hwith : Among before after (List.replicate n 32 ++ c) :=
      ⟨hprobe, not_mem_blanks (by decide) hc.oneLine n, not_mem_blanks (by decide) hc.noNul n⟩
    have halone : Among before after (List.replicate n 32) :=
      ⟨hprobe, fun h => absurd (List.eq_of_mem_replicate h) (by decide),
        fun h => absurd (List.eq_of_mem_replicate h) (by decide)⟩
    have hblanks : ∀ b ∈ List.replicate n (32 : UInt8), isPlain b = true := fun b hb => by
      rw [List.eq_of_mem_replicate hb]
      rfl
    have heq := h _ _ hwith.zero_not_mem halone.zero_not_mem
      (hwith.commentsAre fun _ => by
        rwa [takeWhile_blanks hc, dropWhile_blanks hc, List.length_replicate])
      (halone.commentsAre fun hcomment => absurd (List.dropWhile_eq_nil_iff.mpr hblanks) hcomment)
      (hwith.same halone ((takeWhile_blanks hc n).trans
        (List.takeWhile_eq_self_iff.mpr hblanks).symm))
    rw [hwith.load, halone.load, foldl_spill hwith.oneLine, takeWhile_blanks hc, dropWhile_blanks hc,
      List.length_replicate, foldl_blanks] at heq
    exact hne (Prod.mk.inj heq).2
  · intro h file file' hnul hnul' hP hP' hsame
    have hinert : ∀ {f : List UInt8}, 0 ∉ f → CommentsAre P f → CommentsAre InertComment f :=
      fun hf hPf l hl hcomment => h _ _ (isComment_of_mem hf hl hcomment) (hPf l hl hcomment)
    exact load_eq_of_inert hsame (hinert hnul hP) (hinert hnul' hP')

/-- A section with an empty comment in it. -/
def emptyComment : List UInt8 := (literal "[cluster]\n#").bytes

/-- The same with a comment of more than one buffer. -/
def longComment : List UInt8 :=
  emptyComment ++ List.replicate 254 45 ++ (literal "name = other").bytes

/-- **The end of a long comment is read as an entry.** -/
theorem long_comment_read : ¬ ∀ file file' : List UInt8, 0 ∉ file → 0 ∉ file' →
    SameBeforeComments file file' → vomConfigLoad (some file) = vomConfigLoad (some file') := by
  intro h
  have hsame : SameBeforeComments emptyComment longComment := by
    unfold SameBeforeComments
    decide +kernel
  have heq := h emptyComment longComment (by decide +kernel) (by decide +kernel) hsame
  exact absurd heq (by decide +kernel)

end VoidOsMerger
