/-
  File:      VoidOsMerger/Common/GetoptLong.lean
  Subject:   THE `getopt_long` OF THE COMPATIBILITY HEADER (common/compat.h).

  An argument that starts with two dashes is looked at first, whatever the cursor of `getopt` stands on,
  and leaves the cursor where it is. All else goes to `getopt`.

  * `getoptLong` -- one call;
  * `named_iff` -- a name matches what stands before the first `=`;
  * `longFound_attached`, `longFound_separate`, `longFound_flag` -- the three ways to write an option;
  * **`getoptLong_unread`** -- a call that does not return -1 leaves less to read.
-/
import VoidOsMerger.Common.Getopt
import Mathlib.Data.List.Nodup

namespace VoidOsMerger

/-! ## 1. One call -/

/-- `strncmp` -/
def strncmp (s t : CStr) (n : Nat) : Int := strcmp (s.take n) (t.take n)

/-- `no_argument`, `required_argument`, `optional_argument` -/
inductive HasArg
  | noArgument | requiredArgument | optionalArgument
  deriving DecidableEq, Repr

/-- `struct option` without a `flag`. -/
structure LongOption where
  name : CStr
  hasArg : HasArg
  val : Int
  deriving DecidableEq

/-- The test of the loop over the options; `arg` stands behind the dashes. -/
def LongOption.named (arg : CStr) (o : LongOption) : Bool :=
  strncmp arg o.name o.name.strlen == 0 &&
    (arg.byte o.name.strlen == 61 || arg.byte o.name.strlen == 0)

section GetoptLong

variable (argv : List CStr) (optstring : CStr) (after : UInt8) (longopts : List LongOption)

/-- `fprintf(stderr, "%s: … '--%s' …", argv[0], text);` -/
def printLong (front : String) (text : CStr) (back : String) (st : GetoptState) : GetoptState :=
  { st with
    stderr := st.stderr ++ argv.head?.elim [] CStr.bytes ++ asciiBytes front ++ text.bytes ++
      asciiBytes back }

/-- What is done with the option that was found. -/
def longFound (o : LongOption) (arg : CStr) (st : GetoptState) : Int × GetoptState :=
  let follows := arg.byte o.name.strlen
  let value := arg.drop (o.name.strlen + 1)
  let st := { st with optind := st.optind + 1 }
  match o.hasArg with
  | .requiredArgument =>
    if follows = 61 then (o.val, { st with optarg := some value })
    else
      match argv[st.optind]? with
      | some next => (o.val, { st with optarg := some next, optind := st.optind + 1 })
      | none =>
        (63, if st.opterr then printLong argv ": option '--" o.name "' requires an argument\n" st else st)
  | .optionalArgument => (o.val, { st with optarg := if follows = 61 then some value else none })
  | .noArgument => (o.val, { st with optarg := none })

/-- An argument with two dashes in front, `arg` behind them. -/
def getoptDashes (arg : CStr) (st : GetoptState) : Int × GetoptState :=
  match longopts.find? (LongOption.named arg) with
  | some o => longFound argv o arg st
  | none =>
    let st := printLong argv ": unrecognized option '--" arg "'\n" st
    (63, { st with optind := st.optind + 1 })

def getoptLong (st : GetoptState) : Int × GetoptState :=
  match argv[st.optind]? with
  | none => getopt argv optstring after st
  | some arg =>
    if arg.byte 0 = 45 ∧ arg.byte 1 = 45 then
      if arg.byte 2 = 0 then (-1, { st with optind := st.optind + 1 })
      else getoptDashes argv longopts (arg.drop 2) st
    else getopt argv optstring after st

end GetoptLong

/-! ## 2. Names -/

theorem strncmp_eq_zero_iff (s t : CStr) : strncmp s t t.strlen = 0 ↔ t.bytes <+: s.bytes := by
  have ht : (t.take t.strlen).bytes = t.bytes := List.take_length
  rw [strncmp, strcmp_eq_zero_iff, CStr.ext_iff, ht]
  constructor
  · intro h
    exact h ▸ List.take_prefix _ _
  · intro h
    exact (List.prefix_iff_eq_take.mp h).symm

theorem byte_append_left {s : CStr} {l r : List UInt8} (hs : s.bytes = l ++ r) :
    s.byte l.length = r.headD 0 := by
  unfold CStr.byte
  rw [hs, List.getD_eq_getElem?_getD, List.getElem?_append_right (Nat.le_refl _), Nat.sub_self,
    List.headD_eq_head?_getD, List.head?_eq_getElem?]

/-- **A name matches** what stands before the first `=`, or all where there is none. -/
theorem named_iff {o : LongOption} (hname : ∀ b ∈ o.name.bytes, b ≠ 61) {arg : CStr} :
    o.named arg = true ↔ arg.bytes.takeWhile (· ≠ 61) = o.name.bytes := by
  unfold LongOption.named
  rw [Bool.and_eq_true, beq_iff_eq, strncmp_eq_zero_iff, Bool.or_eq_true, beq_iff_eq, beq_iff_eq]
  have hpass : ∀ r : List UInt8, (o.name.bytes ++ r).takeWhile (· ≠ 61) =
      o.name.bytes ++ r.takeWhile (· ≠ 61) := fun r =>
    List.takeWhile_append_of_pos fun b hb => decide_eq_true (hname b hb)
  constructor
  · rintro ⟨⟨r, hr⟩, hbyte⟩
    have hhead : arg.byte o.name.strlen = r.headD 0 := byte_append_left hr.symm
    rw [hhead] at hbyte
    rw [← hr, hpass]
    cases r with
    | nil => exact List.append_nil _
    | cons b r =>
      rcases hbyte with hb | hb
      · rw [List.takeWhile_cons_of_neg (by simpa using hb), List.append_nil]
      · exact absurd hb (arg.noNul b (hr ▸ List.mem_append_right _ List.mem_cons_self))
  · intro h
    have hr := List.takeWhile_append_dropWhile (p := (· ≠ 61)) (l := arg.bytes)
    rw [h] at hr
    have hhead : arg.byte o.name.strlen = (arg.bytes.dropWhile (· ≠ 61)).headD 0 :=
      byte_append_left hr.symm
    refine ⟨⟨_, hr⟩, ?_⟩
    rw [hhead]
    cases hrest : arg.bytes.dropWhile (· ≠ 61) with
    | nil => exact Or.inr rfl
    | cons b r =>
      have hb := List.head_dropWhile_not (p := (· ≠ 61)) (l := arg.bytes) (by rw [hrest]; simp)
      simp only [hrest, List.head_cons] at hb
      exact Or.inl (by simpa using hb)

/-- The option with the name is found. -/
theorem find_named {longopts : List LongOption}
    (hplain : ∀ o ∈ longopts, ∀ b ∈ o.name.bytes, b ≠ 61) (hnodup : (longopts.map (·.name)).Nodup)
    {o : LongOption} (ho : o ∈ longopts) {arg : CStr}
    (harg : arg.bytes.takeWhile (· ≠ 61) = o.name.bytes) :
    longopts.find? (LongOption.named arg) = some o := by
  cases hfind : longopts.find? (LongOption.named arg) with
  | none => exact absurd ((named_iff (hplain o ho)).mpr harg) (List.find?_eq_none.mp hfind o ho)
  | some o' =>
    have ho' := List.mem_of_find?_eq_some hfind
    have hname := (named_iff (hplain o' ho')).mp (List.find?_some hfind)
    rw [List.inj_on_of_nodup_map hnodup ho' ho (CStr.ext (hname.symm.trans harg))]

/-! ## 3. Ways to write an option -/

theorem noNul_dashed (body : CStr) : ∀ b ∈ 45 :: 45 :: body.bytes, b ≠ 0 :=
  List.forall_mem_cons.mpr ⟨by decide, List.forall_mem_cons.mpr ⟨by decide, body.noNul⟩⟩

/-- `--body` -/
def dashed (body : CStr) : CStr := ⟨45 :: 45 :: body.bytes, noNul_dashed body⟩

theorem noNul_assign (name value : CStr) : ∀ b ∈ name.bytes ++ 61 :: value.bytes, b ≠ 0 :=
  List.forall_mem_append.mpr ⟨name.noNul, List.forall_mem_cons.mpr ⟨by decide, value.noNul⟩⟩

/-- `name=value` -/
def assign (name value : CStr) : CStr := ⟨name.bytes ++ 61 :: value.bytes, noNul_assign name value⟩

section Calls

variable {argv : List CStr} {optstring : CStr} {after : UInt8} {longopts : List LongOption}
  {st : GetoptState} {o : LongOption}

theorem getoptLong_dashed {body : CStr} (harg : argv[st.optind]? = some (dashed body))
    (hne : body.bytes ≠ []) :
    getoptLong argv optstring after longopts st = getoptDashes argv longopts body st := by
  have hthird : (dashed body).byte 2 ≠ 0 := by
    intro h
    have hlength : body.bytes.length + 2 ≤ 2 := (CStr.byte_eq_zero_iff (dashed body) 2).mp h
    exact hne (List.length_eq_zero_iff.mp (by omega))
  unfold getoptLong
  rw [harg]
  exact (if_pos ⟨rfl, rfl⟩).trans (if_neg hthird)

/-- Two dashes alone end the options. -/
theorem getoptLong_end (harg : argv[st.optind]? = some (dashed ⟨[], noNul_nil⟩)) :
    getoptLong argv optstring after longopts st = (-1, { st with optind := st.optind + 1 }) := by
  unfold getoptLong
  rw [harg]
  rfl

/-- An argument without two dashes is left to `getopt`. -/
theorem getoptLong_plain (hplain : ∀ arg ∈ argv[st.optind]?, ¬ (arg.byte 0 = 45 ∧ arg.byte 1 = 45)) :
    getoptLong argv optstring after longopts st = getopt argv optstring after st := by
  unfold getoptLong
  cases harg : argv[st.optind]? with
  | none => rfl
  | some arg => exact if_neg (hplain arg harg)

/-- `--name=value` -/
theorem longFound_attached (hreq : o.hasArg = .requiredArgument) (value : CStr) :
    longFound argv o (assign o.name value) st =
      (o.val, { st with optarg := some value, optind := st.optind + 1 }) := by
  have hfollows : (assign o.name value).byte o.name.strlen = 61 :=
    byte_append_left (s := assign o.name value) rfl
  have hvalue : (assign o.name value).drop (o.name.strlen + 1) = value := by
    apply CStr.ext
    change (o.name.bytes ++ 61 :: value.bytes).drop (o.name.bytes.length + 1) = value.bytes
    rw [List.drop_append, List.drop_eq_nil_of_le (Nat.le_succ _), Nat.add_sub_cancel_left]
    rfl
  unfold longFound
  rw [hreq, hvalue]
  exact if_pos hfollows

/-- `--name value` -/
theorem longFound_separate (hreq : o.hasArg = .requiredArgument) {value : CStr}
    (hvalue : argv[st.optind + 1]? = some value) :
    longFound argv o o.name st =
      (o.val, { st with optarg := some value, optind := st.optind + 1 + 1 }) := by
  have hnul : o.name.byte o.name.strlen = 0 := (CStr.byte_eq_zero_iff _ _).mpr (Nat.le_refl _)
  have hfollows : o.name.byte o.name.strlen ≠ 61 := by
    rw [hnul]
    decide
  unfold longFound
  rw [hreq]
  dsimp only
  rw [if_neg hfollows, hvalue]

theorem longFound_flag (hno : o.hasArg = .noArgument) (arg : CStr) :
    longFound argv o arg st = (o.val, { st with optarg := none, optind := st.optind + 1 }) := by
  unfold longFound
  rw [hno]

/-! ## 4. What is left to read -/

/-- What a call on an argument with two dashes does to the state: it goes past the argument, perhaps
    past the next one too, and leaves the cursor. -/
theorem getoptDashes_frame (argv : List CStr) (longopts : List LongOption) (arg : CStr)
    (st : GetoptState) :
    (getoptDashes argv longopts arg st).2.next = st.next ∧
      ∃ n, (getoptDashes argv longopts arg st).2.optind = st.optind + 1 + n := by
  unfold getoptDashes
  cases longopts.find? (LongOption.named arg) with
  | none => exact ⟨rfl, 0, rfl⟩
  | some o =>
    dsimp only
    unfold longFound
    cases o.hasArg with
    | noArgument => exact ⟨rfl, 0, rfl⟩
    | optionalArgument => exact ⟨rfl, 0, rfl⟩
    | requiredArgument =>
      dsimp only
      split
      · exact ⟨rfl, 0, rfl⟩
      · split
        · exact ⟨rfl, 1, rfl⟩
        · split <;> exact ⟨rfl, 0, rfl⟩

/-- It returns what the option says, or reports an error. -/
theorem getoptDashes_value (argv : List CStr) (longopts : List LongOption) (arg : CStr)
    (st : GetoptState) :
    (getoptDashes argv longopts arg st).1 = 63 ∨
      ∃ o ∈ longopts, (getoptDashes argv longopts arg st).1 = o.val := by
  unfold getoptDashes
  cases hfind : longopts.find? (LongOption.named arg) with
  | none => exact Or.inl rfl
  | some o =>
    have ho := List.mem_of_find?_eq_some hfind
    dsimp only
    unfold longFound
    cases o.hasArg with
    | noArgument => exact Or.inr ⟨o, ho, rfl⟩
    | optionalArgument => exact Or.inr ⟨o, ho, rfl⟩
    | requiredArgument =>
      dsimp only
      split
      · exact Or.inr ⟨o, ho, rfl⟩
      · split
        · exact Or.inr ⟨o, ho, rfl⟩
        · exact Or.inl rfl

/-- An argument that starts with two dashes is these and what stands behind them. -/
theorem dashed_of_bytes {arg : CStr} (h : arg.byte 0 = 45 ∧ arg.byte 1 = 45) :
    arg = dashed (arg.drop 2) := by
  apply CStr.ext
  change arg.bytes = 45 :: 45 :: arg.bytes.drop 2
  unfold CStr.byte at h
  obtain ⟨h₀, h₁⟩ := h
  match hbytes : arg.bytes with
  | [] =>
    rw [hbytes] at h₀
    exact absurd h₀ (by decide)
  | [a] =>
    rw [hbytes] at h₁
    exact absurd h₁ (by decide : ([] : List UInt8).getD 0 0 ≠ 45)
  | a :: b :: l =>
    rw [hbytes] at h₀ h₁
    have ha : a = 45 := h₀
    have hb : b = 45 := h₁
    rw [ha, hb]
    rfl

theorem unread_past {argv : List CStr} {st st' : GetoptState} {arg : CStr} {n : Nat}
    (harg : argv[st.optind]? = some arg) (hnext : st'.next = st.next)
    (hind : st'.optind = st.optind + 1 + n) : unread argv st' < unread argv st := by
  obtain ⟨hlt, harg⟩ := List.getElem?_eq_some_iff.mp harg
  have hdrop : argv.drop (st.optind + 1 + n) = (argv.drop (st.optind + 1)).drop n := by
    rw [List.drop_drop]
  have hless : (((argv.drop (st.optind + 1)).drop n).map fun arg => arg.strlen + 1).sum ≤
      ((argv.drop (st.optind + 1)).map fun arg => arg.strlen + 1).sum := by
    conv_rhs => rw [← List.take_append_drop n (argv.drop (st.optind + 1)), List.map_append,
      List.sum_append]
    exact Nat.le_add_left _ _
  unfold unread
  rw [hnext, hind, hdrop, List.drop_eq_getElem_cons hlt, List.map_cons, List.sum_cons]
  omega

/-- **A call that does not return -1 leaves less to read.** -/
theorem getoptLong_unread (hpos : st.optind ≠ 0)
    (hgo : (getoptLong argv optstring after longopts st).1 ≠ -1) :
    unread argv (getoptLong argv optstring after longopts st).2 < unread argv st ∧
      (getoptLong argv optstring after longopts st).2.optind ≠ 0 := by
  unfold getoptLong at hgo ⊢
  cases harg : argv[st.optind]? with
  | none =>
    rw [harg] at hgo
    exact getopt_unread hpos hgo
  | some arg =>
    rw [harg] at hgo
    dsimp only at hgo ⊢
    by_cases hdashes : arg.byte 0 = 45 ∧ arg.byte 1 = 45
    · rw [if_pos hdashes] at hgo ⊢
      by_cases hlast : arg.byte 2 = 0
      · rw [if_pos hlast] at hgo
        exact absurd rfl hgo
      · rw [if_neg hlast]
        obtain ⟨hnext, n, hind⟩ := getoptDashes_frame argv longopts (arg.drop 2) st
        exact ⟨unread_past harg hnext hind, by rw [hind]; omega⟩
    · rw [if_neg hdashes] at hgo ⊢
      exact getopt_unread hpos hgo

end Calls

end VoidOsMerger
