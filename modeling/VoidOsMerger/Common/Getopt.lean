/-
  File:      VoidOsMerger/Common/Getopt.lean
  Subject:   THE `getopt` OF THE COMPATIBILITY HEADER (common/compat.h).

  It keeps a cursor in the argument it reads. A call that finds the cursor on a letter moves it by one,
  so the cursor stands ON the letter just returned, and at the end of a cluster on the NUL. `strchr`
  finds the NUL too, and the byte behind it, which is no part of the option string, is read: it is an
  argument here. A `char` is signed on the platforms the header is for.

  * `getopt`, `getoptCalls` -- one call, and calls until one returns -1;
  * `getoptArgument_eq`, `getoptLetter_nul` -- a call on the next argument, and on the NUL;
  * `getopt_unread` -- a call that does not return -1 leaves less to read;
  * **`getopt_calls_end`** -- the calls come to an end, for every option string and all arguments.
-/
import VoidOsMerger.Base.CText

namespace VoidOsMerger

/-! ## 1. One call -/

/-- A `char` returned as an `int`. -/
def charInt (c : UInt8) : Int := c.toInt8.toInt

theorem charInt_inj {a b : UInt8} : charInt a = charInt b ↔ a = b := by
  refine ⟨fun h => ?_, fun h => h ▸ rfl⟩
  have hbits := congrArg Int8.toBitVec (Int8.toInt_inj.mp h)
  exact UInt8.toBitVec_inj.mp hbits

/-- The `static` variables of the header, and what went to `stderr`. -/
structure GetoptState where
  optind : Nat
  opterr : Bool
  optopt : Int
  optarg : Option CStr
  initialized : Bool
  next : Option CStr
  stderr : List UInt8

def GetoptState.initial : GetoptState := ⟨1, true, 0, none, false, none, []⟩

section Getopt

variable (argv : List CStr) (optstring : CStr) (after : UInt8)

/-- `*(place + 1)` with `place = strchr(optstring, c)`; `after` stands behind the NUL. -/
def placeNext (c : UInt8) : Option UInt8 :=
  if c = 0 then some after else (strchr optstring c).map fun place => optstring.byte (place + 1)

/-- `if (opterr) fprintf(stderr, "%s: … -%c …", argv[0], c);` -/
def complain (front : String) (c : UInt8) (back : String) (st : GetoptState) : GetoptState :=
  if st.opterr then
    { st with
      stderr := st.stderr ++ argv.head?.elim [] CStr.bytes ++ asciiBytes front ++ [c] ++
        asciiBytes back }
  else st

def unknownOption (c : UInt8) (st : GetoptState) : Int × GetoptState :=
  (63, { complain argv ": unknown option '-" c "'\n" st with optopt := charInt c })

def missingArgument (c : UInt8) (st : GetoptState) : Int × GetoptState :=
  (if optstring.byte 0 = 58 then 58 else 63,
    { complain argv ": option '-" c "' requires an argument\n" st with optopt := charInt c })

/-- `getopt` from `c = *_vom_getopt_next` on; the cursor is at `next`. -/
def getoptLetter (next : CStr) (st : GetoptState) : Int × GetoptState :=
  let c := next.byte 0
  match placeNext optstring after c with
  | none => unknownOption argv c st
  | some follows =>
    if c = 58 then unknownOption argv c st
    else if follows = 58 then
      if next.byte 0 ≠ 0 then (charInt c, { st with optarg := some next, next := none })
      else
        match argv[st.optind]? with
        | some arg => (charInt c, { st with optarg := some arg, optind := st.optind + 1 })
        | none => missingArgument argv optstring c st
    else (charInt c, st)

/-- `getopt` where the cursor is in no argument or at the end of one. -/
def getoptArgument (st : GetoptState) : Int × GetoptState :=
  match argv[st.optind]? with
  | none => (-1, st)
  | some arg =>
    if arg.byte 0 ≠ 45 ∨ arg.byte 1 = 0 then (-1, st)
    else if arg.byte 1 = 45 ∧ arg.byte 2 = 0 then (-1, { st with optind := st.optind + 1 })
    else
      getoptLetter argv optstring after (arg.drop 1)
        { st with next := some (arg.drop 1), optind := st.optind + 1 }

/-- `if (!_vom_getopt_initialized || _vom_getopt_next == NULL) …` -/
def getoptInit (st : GetoptState) : GetoptState :=
  if !st.initialized || st.next.isNone then
    if st.optind = 0 then { st with optind := 1, opterr := true, initialized := true }
    else { st with initialized := true }
  else st

def getopt (st : GetoptState) : Int × GetoptState :=
  let st := getoptInit st
  match st.next with
  | none => getoptArgument argv optstring after st
  | some next =>
    if next.byte 0 ≠ 0 then
      getoptLetter argv optstring after (next.drop 1) { st with next := some (next.drop 1) }
    else getoptArgument argv optstring after st

/-- What the caller sees of a call: its value, and the text at `optarg`. -/
structure OptReturn where
  value : Int
  optarg : Option (List UInt8)
  deriving DecidableEq, Repr

/-- Calls until one returns -1: what the calls before it gave, and `optind` at the end. -/
def getoptCalls : Nat → GetoptState → Option (List OptReturn × Nat)
  | 0, _ => none
  | fuel + 1, st =>
    let call := getopt argv optstring after st
    if call.1 = -1 then some ([], call.2.optind)
    else
      (getoptCalls fuel call.2).map fun later =>
        (⟨call.1, call.2.optarg.map CStr.bytes⟩ :: later.1, later.2)

end Getopt

/-! ## 2. What one call does -/

section Calls

variable {argv : List CStr} {optstring : CStr} {after : UInt8} {st st' : GetoptState} {next : CStr}
  {c : UInt8}

theorem getoptInit_eq (hpos : st.optind ≠ 0) : getoptInit st = { st with initialized := true } := by
  unfold getoptInit
  rw [if_neg hpos]
  split
  · rfl
  · next h =>
    have hinit : st.initialized = true := by
      simp only [Bool.or_eq_true, Bool.not_eq_true', not_or, Bool.not_eq_false] at h
      exact h.1
    rw [← hinit]

/-- With the cursor on a letter a call moves it by one. -/
theorem getopt_at_letter (hpos : st.optind ≠ 0) (hnext : st.next = some next)
    (hletter : next.byte 0 ≠ 0) :
    getopt argv optstring after st = getoptLetter argv optstring after (next.drop 1)
      { st with initialized := true, next := some (next.drop 1) } := by
  unfold getopt
  rw [getoptInit_eq hpos]
  simp only [hnext]
  rw [if_pos hletter]

theorem getopt_at_nul (hpos : st.optind ≠ 0) (hnext : st.next = some next)
    (hnul : next.byte 0 = 0) :
    getopt argv optstring after st =
      getoptArgument argv optstring after { st with initialized := true } := by
  unfold getopt
  rw [getoptInit_eq hpos]
  simp only [hnext]
  rw [if_neg (not_not.mpr hnul)]

theorem getopt_no_cursor (hpos : st.optind ≠ 0) (hnext : st.next = none) :
    getopt argv optstring after st =
      getoptArgument argv optstring after { st with initialized := true } := by
  unfold getopt
  rw [getoptInit_eq hpos]
  simp only [hnext]

/-- A call that takes up the next argument, by its bytes. -/
theorem getoptArgument_eq {arg : CStr} (harg : argv[st.optind]? = some arg) :
    getoptArgument argv optstring after st =
      match arg.bytes with
      | dash :: c :: letters =>
        if dash ≠ 45 then (-1, st)
        else if c = 45 ∧ letters = [] then (-1, { st with optind := st.optind + 1 })
        else getoptLetter argv optstring after (arg.drop 1)
          { st with next := some (arg.drop 1), optind := st.optind + 1 }
      | _ => (-1, st) := by
  have hone := CStr.byte_eq_zero_iff arg 1
  have htwo := CStr.byte_eq_zero_iff arg 2
  unfold getoptArgument
  rw [harg]
  dsimp only
  rcases hbytes : arg.bytes with _ | ⟨dash, _ | ⟨c, letters⟩⟩
  · rw [if_pos (Or.inr (hone.mpr (by simp [hbytes])))]
  · rw [if_pos (Or.inr (hone.mpr (by simp [hbytes])))]
  · have hdash : arg.byte 0 = dash := by simp [CStr.byte, hbytes]
    have hc : arg.byte 1 = c := by simp [CStr.byte, hbytes]
    have hnul : c ≠ 0 := fun h => by simpa [hbytes] using hone.mp (hc.trans h)
    have hlast : arg.byte 2 = 0 ↔ letters = [] := by rw [htwo, hbytes]; simp
    simp only [hdash, hc, hlast, hnul, or_false]

/-- A call on the NUL returns 0, or reports a missing argument where no argument is left. -/
theorem getoptLetter_nul (argv : List CStr) (optstring : CStr) (after : UInt8) (st : GetoptState)
    (hnext : next.bytes = []) :
    (getoptLetter argv optstring after next st).1 = 0 ∨
      argv.drop st.optind = [] ∧ (getoptLetter argv optstring after next st).1 ≠ -1 := by
  have hbyte : next.byte 0 = 0 := (CStr.byte_eq_zero_iff _ _).mpr (by simp [hnext])
  unfold getoptLetter
  rw [hbyte]
  simp only [placeNext, if_true]
  rw [if_neg (by decide)]
  by_cases hafter : after = 58
  · rw [if_pos hafter, if_neg (by decide)]
    cases harg : argv[st.optind]? with
    | some arg => exact Or.inl rfl
    | none =>
      refine Or.inr ⟨List.drop_eq_nil_iff.mpr (List.getElem?_eq_none_iff.mp harg), ?_⟩
      show (if optstring.byte 0 = 58 then (58 : Int) else 63) ≠ -1
      split <;> decide
  · rw [if_neg hafter]
    exact Or.inl rfl

/-- A message moves neither the cursor nor `optind`, and leaves `optarg`. -/
theorem complain_frame (argv : List CStr) (st : GetoptState) (c : UInt8) (front back : String) :
    (complain argv front c back st).next = st.next ∧
      (complain argv front c back st).optind = st.optind ∧
      (complain argv front c back st).optarg = st.optarg := by
  unfold complain
  split <;> exact ⟨rfl, rfl, rfl⟩

theorem unknownOption_frame (argv : List CStr) (c : UInt8) (st : GetoptState) :
    (unknownOption argv c st).2.next = st.next ∧ (unknownOption argv c st).2.optind = st.optind ∧
      (unknownOption argv c st).2.optarg = st.optarg :=
  complain_frame argv st c _ _

/-! ## 3. Runs -/

theorem getoptCalls_eq_some {fuel : Nat} {result : List OptReturn × Nat} {call : Int × GetoptState}
    (hcall : getopt argv optstring after st = call)
    (h : getoptCalls argv optstring after fuel st = some result) :
    call.1 = -1 ∧ result = ([], call.2.optind) ∨
      call.1 ≠ -1 ∧ ∃ fuel' later, getoptCalls argv optstring after fuel' call.2 = some later ∧
        result = (⟨call.1, call.2.optarg.map CStr.bytes⟩ :: later.1, later.2) := by
  cases fuel with
  | zero => cases h
  | succ fuel =>
    simp only [getoptCalls, hcall] at h
    by_cases hend : call.1 = -1
    · rw [if_pos hend] at h
      exact Or.inl ⟨hend, (Option.some.inj h).symm⟩
    · rw [if_neg hend] at h
      obtain ⟨later, hlater, hresult⟩ := Option.map_eq_some_iff.mp h
      exact Or.inr ⟨hend, fuel, later, hlater, hresult.symm⟩

/-- What the cursor and the arguments ahead of it leave to read. -/
def unread (argv : List CStr) (st : GetoptState) : Nat :=
  st.next.elim 0 CStr.strlen + ((argv.drop st.optind).map fun arg => arg.strlen + 1).sum

theorem unread_complain (argv : List CStr) (st : GetoptState) (c : UInt8) (front back : String)
    (optopt : Int) :
    unread argv { complain argv front c back st with optopt := optopt } = unread argv st := by
  obtain ⟨hnext, hind, -⟩ := complain_frame argv st c front back
  simp only [unread, hnext, hind]

/-- From a letter on a call reads no more than there is. -/
theorem getoptLetter_unread (argv : List CStr) (optstring : CStr) (after : UInt8) (next : CStr)
    (st : GetoptState) :
    unread argv (getoptLetter argv optstring after next st).2 ≤ unread argv st ∧
      st.optind ≤ (getoptLetter argv optstring after next st).2.optind := by
  have hunknown : unread argv (unknownOption argv (next.byte 0) st).2 ≤ unread argv st ∧
      st.optind ≤ (unknownOption argv (next.byte 0) st).2.optind :=
    ⟨(unread_complain ..).le, (complain_frame ..).2.1.ge⟩
  unfold getoptLetter
  dsimp only
  split
  · exact hunknown
  · split_ifs
    · exact hunknown
    · exact ⟨Nat.add_le_add_right (Nat.zero_le _) _, le_rfl⟩
    · split
      · next arg harg =>
        obtain ⟨hlt, -⟩ := List.getElem?_eq_some_iff.mp harg
        refine ⟨Nat.add_le_add_left ?_ _, Nat.le_succ _⟩
        rw [List.drop_eq_getElem_cons hlt, List.map_cons, List.sum_cons]
        exact Nat.le_add_left _ _
      · exact ⟨(unread_complain ..).le, (complain_frame ..).2.1.ge⟩
    · exact ⟨le_rfl, le_rfl⟩

theorem getoptArgument_unread (hgo : (getoptArgument argv optstring after st).1 ≠ -1) :
    unread argv (getoptArgument argv optstring after st).2 < unread argv st ∧
      (getoptArgument argv optstring after st).2.optind ≠ 0 := by
  unfold getoptArgument at hgo ⊢
  split at hgo
  · exact absurd rfl hgo
  · next arg harg =>
    split_ifs at hgo with hoperand hdashes
    · exact absurd rfl hgo
    · exact absurd rfl hgo
    · rw [if_neg hoperand, if_neg hdashes]
      obtain ⟨hlt, harg⟩ := List.getElem?_eq_some_iff.mp harg
      obtain ⟨hless, hind⟩ := getoptLetter_unread argv optstring after (arg.drop 1)
        { st with next := some (arg.drop 1), optind := st.optind + 1 }
      refine ⟨hless.trans_lt ?_, Nat.ne_of_gt (Nat.lt_of_lt_of_le (Nat.succ_pos _) hind)⟩
      have hdrop : (arg.drop 1).strlen ≤ arg.strlen := by simp [CStr.strlen, CStr.drop]
      unfold unread
      rw [List.drop_eq_getElem_cons hlt, harg, List.map_cons, List.sum_cons]
      simp only [Option.elim_some]
      omega

/-- **A call that does not return -1 leaves less to read.** -/
theorem getopt_unread (hpos : st.optind ≠ 0) (hgo : (getopt argv optstring after st).1 ≠ -1) :
    unread argv (getopt argv optstring after st).2 < unread argv st ∧
      (getopt argv optstring after st).2.optind ≠ 0 := by
  cases hnext : st.next with
  | none =>
    rw [getopt_no_cursor hpos hnext] at hgo ⊢
    exact getoptArgument_unread hgo
  | some next =>
    by_cases hletter : next.byte 0 = 0
    · rw [getopt_at_nul hpos hnext hletter] at hgo ⊢
      exact getoptArgument_unread hgo
    · rw [getopt_at_letter hpos hnext hletter]
      obtain ⟨hless, hind⟩ := getoptLetter_unread argv optstring after (next.drop 1)
        { st with initialized := true, next := some (next.drop 1) }
      refine ⟨hless.trans_lt ?_, fun h => hpos (Nat.le_zero.mp (h ▸ hind))⟩
      have hlength : 0 < next.bytes.length :=
        Nat.pos_of_ne_zero fun h => hletter ((CStr.byte_eq_zero_iff _ _).mpr h.le)
      unfold unread
      rw [hnext]
      simp only [Option.elim_some, CStr.strlen, CStr.drop, List.length_drop]
      omega

/-- **The calls come to an end**, from every state whose `optind` is not 0. -/
theorem getoptCalls_end (argv : List CStr) (optstring : CStr) (after : UInt8) :
    ∀ st : GetoptState, st.optind ≠ 0 →
      ∃ fuel result, getoptCalls argv optstring after fuel st = some result := by
  intro st
  induction hk : unread argv st using Nat.strong_induction_on generalizing st with
  | _ k ih =>
    intro hpos
    by_cases hend : (getopt argv optstring after st).1 = -1
    · exact ⟨1, _, if_pos hend⟩
    · obtain ⟨hless, hpos'⟩ := getopt_unread hpos hend
      obtain ⟨fuel, later, hlater⟩ := ih _ (hk ▸ hless) _ rfl hpos'
      exact ⟨fuel + 1, _, (if_neg hend).trans (by rw [hlater, Option.map_some])⟩

/-- **Calls from the initial state end**, whatever the option string and the arguments are. -/
theorem getopt_calls_end (argv : List CStr) (optstring : CStr) (after : UInt8) :
    ∃ fuel result, getoptCalls argv optstring after fuel .initial = some result :=
  getoptCalls_end argv optstring after .initial Nat.one_ne_zero

end Calls

end VoidOsMerger
