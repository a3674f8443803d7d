/-
  File:      VoidOsMerger/Config/Roundtrip.lean
  Subject:   EVERY CONFIGURATION CAN BE WRITTEN AND READ BACK.

  A layout says how a configuration is written down: the order of its headers and entries, the white
  space around every part, blank lines and comments. The values come from the configuration.

  * `LayoutLine.render` -- a line of the file;
  * `loadLine_render` -- what the load makes of it: nothing, a new section, or one field;
  * **`config_roundtrip`** -- a file with all entries under their sections loads to the configuration.
-/
import VoidOsMerger.Config.Model

namespace VoidOsMerger

/-! ## 1. Layouts -/

/-- White space, in a line. -/
structure Padding where
  bytes : List UInt8
  white : ∀ b ∈ bytes, isSpace b = true

/-- The end of a line: nothing, or a comment. -/
structure Trailer where
  bytes : List UInt8
  marked : ∀ b ∈ bytes.head?, isPlain b = false

inductive ConfigSection
  | cluster | master | worker | logging
  deriving DecidableEq, Repr

def ConfigSection.name : ConfigSection → CStr
  | .cluster => literal "cluster"
  | .master => literal "master"
  | .worker => literal "worker"
  | .logging => literal "logging"

inductive ConfigEntry
  | clusterName | masterEndpoint | workerId | heartbeatInterval | capabilities | logLevel
  deriving DecidableEq, Repr

/-- The section an entry belongs to. -/
def ConfigEntry.home : ConfigEntry → ConfigSection
  | .clusterName => .cluster
  | .masterEndpoint => .master
  | .workerId | .heartbeatInterval | .capabilities => .worker
  | .logLevel => .logging

def ConfigEntry.key : ConfigEntry → CStr
  | .clusterName => literal "name"
  | .masterEndpoint => literal "endpoint"
  | .workerId => literal "id"
  | .heartbeatInterval => literal "heartbeat_interval"
  | .capabilities => literal "capabilities"
  | .logLevel => literal "level"

/-- A number in decimal, leading zeros allowed. -/
structure Decimal (n : UInt32) where
  text : CStr
  nonempty : text.bytes ≠ []
  digits : ∀ b ∈ text.bytes, isDigit b = true
  value : digitsValue text.bytes = n.toNat

/-- What stands on the right of an entry. -/
def ConfigEntry.value (cfg : VomConfig) (interval : Decimal cfg.heartbeatIntervalSec) :
    ConfigEntry → CStr
  | .clusterName => cfg.clusterName.str
  | .masterEndpoint => cfg.masterEndpoint.str
  | .workerId => cfg.workerId.str
  | .heartbeatInterval => interval.text
  | .capabilities => cfg.advertisedCapabilities.str
  | .logLevel => cfg.logLevel.str

inductive LineBody
  | blank
  | header (sec : ConfigSection) (before after : Padding)
  | entry (e : ConfigEntry) (before after : Padding)

structure LayoutLine where
  indent : Padding
  body : LineBody
  behind : Padding
  comment : Trailer

section Render

variable (cfg : VomConfig) (interval : Decimal cfg.heartbeatIntervalSec)

/-- Nothing, `[section]`, or `key = value`. -/
def LineBody.render : LineBody → List UInt8
  | .blank => []
  | .header sec before after => 91 :: (before.bytes ++ sec.name.bytes ++ after.bytes ++ [93])
  | .entry e before after =>
    e.key.bytes ++ before.bytes ++ 61 :: (after.bytes ++ (e.value cfg interval).bytes)

def LayoutLine.render (line : LayoutLine) : List UInt8 :=
  line.indent.bytes ++ line.body.render cfg interval ++ line.behind.bytes ++ line.comment.bytes

end Render

/-- Every entry stands under a header of its section, the current section being `sec`. -/
def UnderHeaders : Option ConfigSection → List LayoutLine → Prop
  | _, [] => True
  | sec, line :: layout =>
    match line.body with
    | .blank => UnderHeaders sec layout
    | .header sec' _ _ => UnderHeaders (some sec') layout
    | .entry e _ _ => sec = some e.home ∧ UnderHeaders sec layout

def LineBody.entries : LineBody → List ConfigEntry
  | .entry e _ _ => [e]
  | _ => []

/-- The entries of a layout, in their order. -/
def layoutEntries (layout : List LayoutLine) : List ConfigEntry :=
  layout.flatMap fun line => line.body.entries

/-- A string that can be written down: no comment mark, and no white space at its ends. -/
structure Writable (s : CStr) : Prop where
  plain : ∀ b ∈ s.bytes, isPlain b = true
  first : ∀ b ∈ s.bytes.head?, isSpace b = false
  last : ∀ b ∈ s.bytes.getLast?, isSpace b = false

instance (s : CStr) : Decidable (Writable s) :=
  decidable_of_iff (s.bytes.all isPlain = true ∧ s.bytes.head?.all (fun b => !isSpace b) = true ∧
      s.bytes.getLast?.all (fun b => !isSpace b) = true) <| by
    simp only [List.all_eq_true, Option.all_eq_true, Bool.not_eq_true']
    exact ⟨fun h => ⟨h.1, h.2.1, h.2.2⟩, fun h => ⟨h.plain, h.first, h.last⟩⟩

/-- Every string of the configuration can be written down. -/
structure VomConfig.Writable (cfg : VomConfig) : Prop where
  clusterName : VoidOsMerger.Writable cfg.clusterName.str
  masterEndpoint : VoidOsMerger.Writable cfg.masterEndpoint.str
  workerId : VoidOsMerger.Writable cfg.workerId.str
  capabilities : VoidOsMerger.Writable cfg.advertisedCapabilities.str
  logLevel : VoidOsMerger.Writable cfg.logLevel.str

/-- The same strings and the same number. -/
structure VomConfig.Same (a b : VomConfig) : Prop where
  clusterName : a.clusterName.str = b.clusterName.str
  masterEndpoint : a.masterEndpoint.str = b.masterEndpoint.str
  workerId : a.workerId.str = b.workerId.str
  heartbeatIntervalSec : a.heartbeatIntervalSec = b.heartbeatIntervalSec
  advertisedCapabilities : a.advertisedCapabilities.str = b.advertisedCapabilities.str
  logLevel : a.logLevel.str = b.logLevel.str

/-! ## 2. The parts of a line -/

theorem trimWhitespace_of_bytes {s t : CStr} (h : trimmed s.bytes = t.bytes) : trimWhitespace s = t :=
  CStr.ext ((trimWhitespace_bytes s).trans h)

/-- The bytes of a kind that has no comment mark in it are plain. -/
theorem isPlain_of_kind {kind : UInt8 → Bool} (h35 : kind 35 = false) (h59 : kind 59 = false)
    {b : UInt8} (hb : kind b = true) : isPlain b = true := by
  have hne : ∀ c, kind c = false → b ≠ c := by
    rintro c hc rfl
    exact absurd (hc.symm.trans hb) Bool.false_ne_true
  simp [isPlain, hne 35 h35, hne 59 h59]

theorem ne_zero_of_isSpace {b : UInt8} (h : isSpace b = true) : b ≠ 0 := by
  rintro rfl
  exact absurd h (by decide)

theorem not_isSpace_of_isDigit {b : UInt8} (h : isDigit b = true) : isSpace b = false :=
  not_isSpace_of_range (range_of_isDigit h)

theorem Decimal.writable {n : UInt32} (d : Decimal n) : Writable d.text where
  plain b hb := isPlain_of_kind rfl rfl (d.digits b hb)
  first b hb := not_isSpace_of_isDigit (d.digits b (List.mem_of_mem_head? hb))
  last b hb := not_isSpace_of_isDigit (d.digits b (List.mem_of_mem_getLast? hb))

/-- `(uint32_t)strtoul` gives the number back. -/
theorem Decimal.strtoul {n : UInt32} (d : Decimal n) : (strtoul d.text).toUInt32 = n := by
  have hlt : n.toNat < 2 ^ 32 := n.toNat_lt
  have hvalue := strtoul_decimal d.nonempty d.digits (by rw [d.value]; omega)
  apply UInt32.toNat_inj.mp
  rw [UInt64.toNat_toUInt32, hvalue, d.value]
  exact Nat.mod_eq_of_lt hlt

theorem Writable.trimmed {s : CStr} (h : Writable s) {p q : List UInt8}
    (hp : ∀ b ∈ p, isSpace b = true) (hq : ∀ b ∈ q, isSpace b = true) :
    VoidOsMerger.trimmed (p ++ s.bytes ++ q) = s.bytes := by
  rw [trimmed_append hq, trimmed_prepend hp, trimmed_eq_self h.first h.last]

theorem ConfigSection.writable (sec : ConfigSection) : Writable sec.name := by
  cases sec <;> decide

theorem ConfigEntry.key_writable (e : ConfigEntry) : Writable e.key := by
  cases e <;> decide

theorem VomConfig.Writable.value {cfg : VomConfig} (h : cfg.Writable)
    (interval : Decimal cfg.heartbeatIntervalSec) (e : ConfigEntry) :
    VoidOsMerger.Writable (e.value cfg interval) := by
  cases e with
  | clusterName => exact h.clusterName
  | masterEndpoint => exact h.masterEndpoint
  | workerId => exact h.workerId
  | heartbeatInterval => exact interval.writable
  | capabilities => exact h.capabilities
  | logLevel => exact h.logLevel

/-- Neither `[` nor `=` is in the way of a key. -/
theorem ConfigEntry.key_facts (e : ConfigEntry) :
    (∃ b l, e.key.bytes = b :: l ∧ b ≠ 91) ∧ (61 : UInt8) ∉ e.key.bytes := by
  cases e <;> exact ⟨⟨_, _, rfl, by decide⟩, by decide⟩

theorem Padding.not_mem (p : Padding) (b : UInt8) (hb : isSpace b = false) : b ∉ p.bytes :=
  fun hmem => absurd (hb.symm.trans (p.white b hmem)) Bool.false_ne_true

theorem Padding.plain (p : Padding) : ∀ b ∈ p.bytes, isPlain b = true ∧ b ≠ 0 := fun b hb =>
  ⟨isPlain_of_kind rfl rfl (p.white b hb), ne_zero_of_isSpace (p.white b hb)⟩

/-! ## 3. What the load makes of a line -/

/-- The header of a section. -/
theorem loadText_header {s : CStr} {sec : ConfigSection} {before after : Padding}
    (hs : s.bytes = 91 :: (before.bytes ++ sec.name.bytes ++ after.bytes ++ [93])) (st : LoadState) :
    loadText st s = { st with currentSection := NulBuf.copy 63 sec.name } := by
  have hname : (93 : UInt8) ∉ sec.name.bytes := by cases sec <;> decide
  have hmem : (93 : UInt8) ∉ 91 :: (before.bytes ++ sec.name.bytes ++ after.bytes) := by
    simp [before.not_mem 93 rfl, hname, after.not_mem 93 rfl]
  have hs' : s.bytes = 91 :: (before.bytes ++ sec.name.bytes ++ after.bytes) ++ 93 :: [] := by
    rw [hs, List.cons_append]
  have hsec : trimWhitespace ((s.take
      (91 :: (before.bytes ++ sec.name.bytes ++ after.bytes)).length).drop 1) = sec.name := by
    apply trimWhitespace_of_bytes
    show trimmed ((s.bytes.take _).drop 1) = _
    rw [hs', List.take_left]
    exact sec.writable.trimmed before.white after.white
  unfold loadText
  rw [hs]
  dsimp only
  rw [if_pos rfl, strchr_of_append hs' hmem]
  dsimp only
  rw [hsec]

/-- An entry, with the white space at its end already gone. -/
theorem loadText_entry {s val : CStr} {e : ConfigEntry} {before after : Padding}
    (hval : Writable val)
    (hs : s.bytes = e.key.bytes ++ before.bytes ++
      61 :: (after.bytes ++ val.bytes).rdropWhile isSpace) (st : LoadState) :
    loadText st s =
      { st with out := setConfigEntry st.out st.currentSection.str e.key val } := by
  obtain ⟨⟨b, l, hkey, hb⟩, heq⟩ := e.key_facts
  have hmem : (61 : UInt8) ∉ e.key.bytes ++ before.bytes := by
    simp [heq, before.not_mem 61 rfl]
  have hk : trimWhitespace (s.take (e.key.bytes ++ before.bytes).length) = e.key := by
    apply trimWhitespace_of_bytes
    show trimmed (s.bytes.take _) = _
    rw [hs, List.take_left]
    exact e.key_writable.trimmed (p := []) nofun before.white
  have hv : trimWhitespace (s.drop ((e.key.bytes ++ before.bytes).length + 1)) = val := by
    apply trimWhitespace_of_bytes
    show trimmed (s.bytes.drop _) = _
    have hdrop : s.bytes.drop ((e.key.bytes ++ before.bytes).length + 1) =
        (after.bytes ++ val.bytes).rdropWhile isSpace := by
      rw [hs, ← List.drop_drop, List.drop_left]
      rfl
    have htrim := hval.trimmed after.white (q := []) nofun
    rw [List.append_nil] at htrim
    rw [hdrop, trimmed_rdropWhile, htrim]
  have hfirst : s.bytes = b :: (l ++ before.bytes ++
      61 :: (after.bytes ++ val.bytes).rdropWhile isSpace) := by
    rw [hs, hkey, List.cons_append, List.cons_append]
  unfold loadText
  rw [hfirst]
  dsimp only
  rw [if_neg hb, strchr_of_append hs hmem]
  dsimp only
  rw [hk, hv]

/-- One field of the configuration is overwritten. -/
def ConfigEntry.write (val : CStr) (config : VomConfig) : ConfigEntry → VomConfig
  | .clusterName => { config with clusterName := NulBuf.copy 127 val }
  | .masterEndpoint => { config with masterEndpoint := NulBuf.copy 127 val }
  | .workerId => { config with workerId := NulBuf.copy 127 val }
  | .heartbeatInterval => { config with heartbeatIntervalSec := (VoidOsMerger.strtoul val).toUInt32 }
  | .capabilities => { config with advertisedCapabilities := NulBuf.copy 127 val }
  | .logLevel => { config with logLevel := NulBuf.copy 127 val }

theorem setConfigEntry_entry (config : VomConfig) (e : ConfigEntry) (val : CStr) :
    setConfigEntry config e.home.name e.key val = e.write val config := by
  cases e <;> rfl

section Load

variable (cfg : VomConfig) (interval : Decimal cfg.heartbeatIntervalSec)

/-- What a line is for. -/
def LineBody.apply (st : LoadState) : LineBody → LoadState
  | .blank => st
  | .header sec _ _ => { st with currentSection := NulBuf.copy 63 sec.name }
  | .entry e _ _ => { st with out := e.write (e.value cfg interval) st.out }

variable {cfg}

/-- The body of a line holds no comment mark and no NUL. -/
theorem LineBody.render_plain (hcfg : cfg.Writable) (body : LineBody) :
    ∀ b ∈ body.render cfg interval, isPlain b = true ∧ b ≠ 0 := by
  have hstr : ∀ {s : CStr}, Writable s → ∀ b ∈ s.bytes, isPlain b = true ∧ b ≠ 0 :=
    fun {s} h b hb => ⟨h.plain b hb, s.noNul b hb⟩
  intro b hb
  cases body with
  | blank => cases hb
  | header sec before after =>
    simp only [LineBody.render, List.mem_cons, List.mem_append, List.not_mem_nil, or_false] at hb
    rcases hb with rfl | ((hb | hb) | hb) | rfl
    · exact ⟨rfl, by decide⟩
    · exact before.plain b hb
    · exact hstr sec.writable b hb
    · exact after.plain b hb
    · exact ⟨rfl, by decide⟩
  | entry e before after =>
    simp only [LineBody.render, List.mem_cons, List.mem_append] at hb
    rcases hb with (hb | hb) | rfl | hb | hb
    · exact hstr e.key_writable b hb
    · exact before.plain b hb
    · exact ⟨rfl, by decide⟩
    · exact after.plain b hb
    · exact hstr (hcfg.value interval e) b hb

/-- The text of a line without the white space around it is that of its body. -/
theorem LayoutLine.text (hcfg : cfg.Writable) (line : LayoutLine) :
    trimmed (lineText (line.render cfg interval)) = trimmed (line.body.render cfg interval) := by
  have hall : ∀ b ∈ line.indent.bytes ++ line.body.render cfg interval ++ line.behind.bytes,
      isPlain b = true ∧ b ≠ 0 := by
    intro b hb
    simp only [List.mem_append] at hb
    rcases hb with (hb | hb) | hb
    · exact line.indent.plain b hb
    · exact line.body.render_plain interval hcfg b hb
    · exact line.behind.plain b hb
  have hcomment : line.comment.bytes.takeWhile isPlain = [] := by
    cases hbytes : line.comment.bytes with
    | nil => rfl
    | cons b l =>
      have hb := line.comment.marked b (by rw [hbytes]; rfl)
      exact List.takeWhile_cons_of_neg (by simp [hb])
  have htext : lineText (line.render cfg interval) =
      line.indent.bytes ++ line.body.render cfg interval ++ line.behind.bytes := by
    unfold lineText LayoutLine.render
    rw [List.takeWhile_append_of_pos fun b hb => (hall b hb).1, hcomment, List.append_nil,
      List.takeWhile_eq_self_iff]
    exact fun b hb => decide_eq_true (hall b hb).2
  rw [htext, trimmed_append line.behind.white, trimmed_prepend line.indent.white]

/-- **What the load makes of a line**, an entry being in its section. -/
theorem loadLine_render (hcfg : cfg.Writable) (line : LayoutLine) {st : LoadState}
    (hsec : ∀ e before after, line.body = .entry e before after →
      st.currentSection.str = e.home.name) :
    loadLine st (line.render cfg interval) = line.body.apply cfg interval st := by
  have htext := line.text interval hcfg
  cases hbody : line.body with
  | blank =>
    rw [hbody] at htext
    exact loadLine_eq (s := literal "") htext.symm st
  | header sec before after =>
    rw [hbody] at htext
    have hself : trimmed (LineBody.render cfg interval (.header sec before after)) =
        LineBody.render cfg interval (.header sec before after) := by
      refine trimmed_eq_self (fun b hb => ?_) fun b hb => ?_
      · obtain rfl := Option.some.inj hb
        rfl
      · rw [LineBody.render, ← List.cons_append, List.getLast?_concat] at hb
        obtain rfl := Option.some.inj hb
        rfl
    rw [loadLine_eq (text_bytes _)]
    exact loadText_header ((text_bytes _).trans (htext.trans hself)) st
  | entry e before after =>
    rw [hbody] at htext
    have hbytes : trimmed (LineBody.render cfg interval (.entry e before after)) =
        e.key.bytes ++ before.bytes ++
          61 :: (after.bytes ++ (e.value cfg interval).bytes).rdropWhile isSpace := by
      obtain ⟨⟨b, l, hkey, -⟩, -⟩ := e.key_facts
      have hb : isSpace b = false := e.key_writable.first b (by rw [hkey]; rfl)
      show ((e.key.bytes ++ before.bytes ++ 61 :: (after.bytes ++ (e.value cfg interval).bytes)).dropWhile
        isSpace).rdropWhile isSpace = _
      have hdrop : (e.key.bytes ++ before.bytes ++
          61 :: (after.bytes ++ (e.value cfg interval).bytes)).dropWhile isSpace =
          e.key.bytes ++ before.bytes ++ 61 :: (after.bytes ++ (e.value cfg interval).bytes) := by
        rw [hkey, List.cons_append, List.cons_append, dropWhile_isSpace hb]
      rw [hdrop, rdropWhile_append_cons _ rfl]
    rw [loadLine_eq (text_bytes _),
      loadText_entry (hcfg.value interval e) ((text_bytes _).trans (htext.trans hbytes)) st,
      hsec e before after hbody, setConfigEntry_entry]
    rfl

/-- The section a header leaves is read back by `strcmp`. -/
theorem ConfigSection.stored (sec : ConfigSection) : (NulBuf.copy 63 sec.name).str = sec.name :=
  NulBuf.copy_str (by cases sec <;> decide)

/-- **A file is loaded as its layout says.** -/
theorem foldl_layout (hcfg : cfg.Writable) : ∀ {layout : List LayoutLine} {sec : Option ConfigSection}
    {st : LoadState}, UnderHeaders sec layout →
    (∀ sec', sec = some sec' → st.currentSection.str = sec'.name) →
    (∀ line ∈ layout, (10 : UInt8) ∉ line.render cfg interval ∧
      (line.render cfg interval).length ≤ 255) →
    (layout.map (·.render cfg interval)).foldl (fun st l => (fgetsAll 10 255 l).foldl loadLine st) st =
      layout.foldl (fun st line => line.body.apply cfg interval st) st
  | [], _, _, _, _, _ => rfl
  | line :: layout, sec, st, hunder, hst, hlines => by
      obtain ⟨⟨hnl, hlen⟩, hlines⟩ := List.forall_mem_cons.mp hlines
      unfold UnderHeaders at hunder
      have hline : loadLine st (line.render cfg interval) = line.body.apply cfg interval st := by
        refine loadLine_render interval hcfg line fun e before after hbody => ?_
        rw [hbody] at hunder
        exact hst _ hunder.1
      rw [List.map_cons, List.foldl_cons, List.foldl_cons, loadLine_short hnl hlen, hline]
      cases hbody : line.body with
      | blank =>
        rw [hbody] at hunder
        exact foldl_layout hcfg hunder hst hlines
      | header sec' before after =>
        rw [hbody] at hunder
        refine foldl_layout hcfg hunder (fun sec'' h => ?_) hlines
        obtain rfl := Option.some.inj h
        exact sec'.stored
      | entry e before after =>
        rw [hbody] at hunder
        exact foldl_layout hcfg hunder.2 hst hlines

/-! ## 4. The whole file -/

variable (cfg)

/-- The field of an entry holds what the configuration has there. -/
def ConfigEntry.Holds (out : VomConfig) : ConfigEntry → Prop
  | .clusterName => out.clusterName = NulBuf.copy 127 cfg.clusterName.str
  | .masterEndpoint => out.masterEndpoint = NulBuf.copy 127 cfg.masterEndpoint.str
  | .workerId => out.workerId = NulBuf.copy 127 cfg.workerId.str
  | .heartbeatInterval => out.heartbeatIntervalSec = cfg.heartbeatIntervalSec
  | .capabilities => out.advertisedCapabilities = NulBuf.copy 127 cfg.advertisedCapabilities.str
  | .logLevel => out.logLevel = NulBuf.copy 127 cfg.logLevel.str

theorem ConfigEntry.holds_write (e : ConfigEntry) (out : VomConfig) :
    e.Holds cfg (e.write (e.value cfg interval) out) := by
  cases e with
  | heartbeatInterval => exact interval.strtoul
  | _ => rfl

/-- Another entry leaves the field alone. -/
theorem ConfigEntry.holds_write_other {e e' : ConfigEntry} (hne : e' ≠ e) (val : CStr)
    {out : VomConfig} (h : e.Holds cfg out) : e.Holds cfg (e'.write val out) := by
  cases e' <;> cases e <;> first | exact absurd rfl hne | exact h

theorem holds_apply {e : ConfigEntry} {body : LineBody} {st : LoadState}
    (h : e.Holds cfg st.out ∨ e ∈ body.entries) : e.Holds cfg (body.apply cfg interval st).out := by
  cases body with
  | blank => exact h.resolve_right List.not_mem_nil
  | header sec before after => exact h.resolve_right List.not_mem_nil
  | entry e' before after =>
    by_cases he : e' = e
    · subst he
      exact e'.holds_write cfg interval st.out
    · have hold := h.resolve_right fun hmem => he (List.mem_singleton.mp hmem).symm
      exact ConfigEntry.holds_write_other cfg he _ hold

/-- What an entry has written stays, whatever lines follow. -/
theorem holds_foldl (e : ConfigEntry) : ∀ (layout : List LayoutLine) (st : LoadState),
    (e.Holds cfg st.out ∨ e ∈ layoutEntries layout) →
      e.Holds cfg (layout.foldl (fun st line => line.body.apply cfg interval st) st).out
  | [], st, h => h.resolve_right List.not_mem_nil
  | line :: layout, st, h => by
      refine holds_foldl e layout _ ?_
      rw [layoutEntries, List.flatMap_cons, List.mem_append, ← or_assoc] at h
      exact h.imp_left (holds_apply cfg interval)

/-- **Every configuration can be written and read back.** Its strings hold no comment mark and no
    white space at their ends; in a file whose lines, of at most 254 bytes, are those of a layout with
    every entry in it, and each under a header of its section, the load finds the configuration. -/
theorem config_roundtrip (hcfg : cfg.Writable) {layout : List LayoutLine}
    (hunder : UnderHeaders none layout) (hevery : ∀ e, e ∈ layoutEntries layout)
    {file : List UInt8} (hfile : fileLines 10 file = layout.map (·.render cfg interval))
    (hlen : ∀ l ∈ fileLines 10 file, l.length ≤ 254) :
    (vomConfigLoad (some file)).1 = true ∧ (vomConfigLoad (some file)).2.Same cfg := by
  have hlines : ∀ line ∈ layout, (10 : UInt8) ∉ line.render cfg interval ∧
      (line.render cfg interval).length ≤ 255 := by
    intro line hline
    have hmem : line.render cfg interval ∈ fileLines 10 file := by
      rw [hfile]
      exact List.mem_map_of_mem hline
    exact ⟨not_mem_of_mem_fileLines 10 hmem, (hlen _ hmem).trans (by decide)⟩
  have hload : vomConfigLoad (some file) =
      (true, (layout.foldl (fun st line => line.body.apply cfg interval st) loadStart).out) := by
    rw [vomConfigLoad_lines, hfile, foldl_layout interval hcfg hunder nofun hlines]
  have hholds : ∀ e : ConfigEntry, e.Holds cfg (vomConfigLoad (some file)).2 := by
    intro e
    rw [hload]
    exact holds_foldl cfg interval e layout loadStart (Or.inr (hevery e))
  refine ⟨congrArg Prod.fst hload, ?_⟩
  have hstr : ∀ {a b : NulBuf 128}, a = NulBuf.copy 127 b.str → a.str = b.str :=
    fun {a b} h => (congrArg NulBuf.str h).trans b.copy_str_self
  exact ⟨hstr (hholds .clusterName), hstr (hholds .masterEndpoint), hstr (hholds .workerId),
    hholds .heartbeatInterval, hstr (hholds .capabilities), hstr (hholds .logLevel)⟩

end Load

/-- Two of the strings empty or odd, the others plain. -/
def sampleConfig : VomConfig where
  clusterName := NulBuf.copy 127 (literal "a=[b]")
  masterEndpoint := NulBuf.copy 127 (literal "tcp://m:1")
  workerId := NulBuf.copy 127 (literal "w 1")
  heartbeatIntervalSec := 30
  advertisedCapabilities := NulBuf.copy 127 (literal "")
  logLevel := NulBuf.copy 127 (literal "debug")

def thirty : Decimal 30 := ⟨literal "030", by decide +kernel, by decide +kernel, by decide +kernel⟩

/-- The four sections out of order, with some white space and a comment. -/
def sampleLayout : List LayoutLine :=
  let tight : Padding := ⟨[], nofun⟩
  let space : Padding := ⟨[32], by decide +kernel⟩
  let line (indent : Padding) (body : LineBody) : LayoutLine := ⟨indent, body, tight, ⟨[], nofun⟩⟩
  [line space .blank, line tight (.header .worker space space),
    line space (.entry .capabilities space space), line tight (.entry .workerId tight tight),
    line tight (.entry .heartbeatInterval space tight),
    ⟨tight, .header .logging tight tight, space, ⟨[59, 61], by decide +kernel⟩⟩,
    line space (.entry .logLevel tight space), line tight (.header .cluster tight space),
    line tight (.entry .clusterName tight space), line tight (.header .master tight tight),
    line tight (.entry .masterEndpoint tight tight)]

def sampleFile : List UInt8 :=
  (literal (" \n[ worker ]\n capabilities = \nid=w 1\nheartbeat_interval =030\n[logging] ;=\n" ++
    " level= debug\n[cluster ]\nname= a=[b]\n[master]\nendpoint=tcp://m:1")).bytes

theorem config_roundtrip_sampleFile :
    (vomConfigLoad (some sampleFile)).1 = true ∧
      (vomConfigLoad (some sampleFile)).2.Same sampleConfig := by
  have hcfg : sampleConfig.Writable := by
    constructor <;> decide +kernel
  have hunder : UnderHeaders none sampleLayout := by
    simp [sampleLayout, UnderHeaders, ConfigEntry.home]
  have hevery : ∀ e, e ∈ layoutEntries sampleLayout := by
    intro e
    cases e <;> decide
  exact config_roundtrip sampleConfig thirty hcfg hunder hevery (by decide +kernel) (by decide +kernel)

end VoidOsMerger
