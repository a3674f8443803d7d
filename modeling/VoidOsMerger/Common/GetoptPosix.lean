/-
  File:      VoidOsMerger/Common/GetoptPosix.lean
  Subject:   The `getopt` of the compatibility header AGAINST THE ONE OF POSIX.

  POSIX is stated over the letters left of an argument and the arguments behind it. What the caller sees
  of a call is its value and the text at `optarg`; at the end there is `optind`.

  * `posixRun`, `posixGetopt` -- what POSIX says the calls return;
  * `getoptLetter_eq` -- one call of the header's `getopt` on a letter, by the kind of the option;
  * `nul_differs`, `argument_differs` -- where the two part ways;
  * `letters_differ` -- from any letter of an argument on, they do;
  * **`getopt_posix_iff`** -- the header's `getopt` agrees with POSIX exactly where there is no option.
-/
import VoidOsMerger.Common.Getopt

namespace VoidOsMerger

/-! ## 1. POSIX -/

/-- Whether `c` is an option, and then whether it takes an argument. -/
def optionKind (optstring : List UInt8) (c : UInt8) : Option Bool :=
  if c = 58 then none
  else
    match optstring.dropWhile (· ≠ c) with
    | [] => none
    | _ :: behind => some (behind.head? = some 58)

theorem mem_of_optionKind {l : List UInt8} {c : UInt8} {takes : Bool} (h : optionKind l c = some takes) :
    c ∈ l ∧ c ≠ 58 := by
  unfold optionKind at h
  split at h
  · cases h
  · next hcolon =>
    refine ⟨?_, hcolon⟩
    by_contra hmem
    have hnone : l.dropWhile (· ≠ c) = [] :=
      List.dropWhile_eq_nil_iff.mpr fun b hb => by simpa using fun e : b = c => hmem (e ▸ hb)
    rw [hnone] at h
    cases h

/-- The calls of `getopt` that POSIX describes, with `letters` left of an argument, `args` behind it and
    `optarg` as it stands: what they give, and how many of `args` they use. -/
def posixRun (optstring : List UInt8) :
    List UInt8 → List (List UInt8) → Option (List UInt8) → List OptReturn × Nat
  | c :: letters, args, optarg =>
    match optionKind optstring c with
    | none =>
      let later := posixRun optstring letters args optarg
      (⟨63, optarg⟩ :: later.1, later.2)
    | some false =>
      let later := posixRun optstring letters args optarg
      (⟨charInt c, optarg⟩ :: later.1, later.2)
    | some true =>
      if letters ≠ [] then
        -- the rest of the argument is the option's own
        let later := posixRun optstring [] args (some letters)
        (⟨charInt c, some letters⟩ :: later.1, later.2)
      else
        match args with
        | [] => ([⟨if optstring.head? = some 58 then 58 else 63, optarg⟩], 0)
        | arg :: args =>
          let later := posixRun optstring [] args (some arg)
          (⟨charInt c, some arg⟩ :: later.1, later.2 + 1)
  | [], [], _ => ([], 0)
  | [], (dash :: c :: letters) :: args, optarg =>
    if dash ≠ 45 then ([], 0)
    else if c = 45 ∧ letters = [] then ([], 1)
    else
      let later := posixRun optstring (c :: letters) args optarg
      (later.1, later.2 + 1)
  | [], _ :: _, _ => ([], 0)
termination_by letters args => (args.length, letters.length)

section PosixRun

variable {optstring letters : List UInt8} {c : UInt8} (args : List (List UInt8))
  (optarg : Option (List UInt8))

theorem posixRun_unknown (h : optionKind optstring c = none) :
    posixRun optstring (c :: letters) args optarg =
      (⟨63, optarg⟩ :: (posixRun optstring letters args optarg).1,
        (posixRun optstring letters args optarg).2) := by
  cases args <;> simp only [posixRun, h]

theorem posixRun_flag (h : optionKind optstring c = some false) :
    posixRun optstring (c :: letters) args optarg =
      (⟨charInt c, optarg⟩ :: (posixRun optstring letters args optarg).1,
        (posixRun optstring letters args optarg).2) := by
  cases args <;> simp only [posixRun, h]

theorem posixRun_attached (h : optionKind optstring c = some true) (hletters : letters ≠ []) :
    posixRun optstring (c :: letters) args optarg =
      (⟨charInt c, some letters⟩ :: (posixRun optstring [] args (some letters)).1,
        (posixRun optstring [] args (some letters)).2) := by
  cases args <;> simp only [posixRun, h, if_pos hletters]

/-- The calls on a letter return something. -/
theorem posixRun_cons_ne_nil : (posixRun optstring (c :: letters) args optarg).1 ≠ [] := by
  cases hkind : optionKind optstring c with
  | none => simp [posixRun_unknown args optarg hkind]
  | some takes =>
    cases takes with
    | false => simp [posixRun_flag args optarg hkind]
    | true =>
      by_cases hletters : letters = []
      · cases args <;> simp [posixRun, hkind, hletters]
      · simp [posixRun_attached args optarg hkind hletters]

end PosixRun

/-- What the calls give, and `optind` at the end. -/
def posixGetopt (optstring : CStr) (argv : List CStr) : List OptReturn × Nat :=
  let run := posixRun optstring.bytes [] ((argv.drop 1).map CStr.bytes) none
  (run.1, 1 + run.2)

/-- An option string none of whose characters is returned as what stands for an error or the end. The
    letters and digits POSIX allows are such characters. -/
structure OptString where
  text : CStr
  telling : ∀ c ∈ text.bytes, c ≠ 63 ∧ c ≠ 255

/-! ## 2. One call, by the kind of the option -/

section Kinds

variable {argv : List CStr} {optstring : CStr} {after : UInt8} {st : GetoptState} {next : CStr}
  {c : UInt8} {letters : List UInt8}

/-- `strchr` and the byte behind give the kind of an option. -/
theorem optionKind_eq (after : UInt8) (hnul : c ≠ 0) (hcolon : c ≠ 58) :
    optionKind optstring.bytes c =
      (placeNext optstring after c).map fun follows => decide (follows = 58) := by
  unfold optionKind placeNext strchr CStr.byte
  rw [if_neg hcolon, if_neg hnul]
  induction optstring.bytes with
  | nil => rfl
  | cons b l ih =>
    rw [List.dropWhile_cons, List.findIdx?_cons]
    by_cases hb : b = c
    · subst hb
      cases l <;> simp
    · rw [if_pos (by simpa using hb), ih, if_neg (by simpa using hb)]
      cases l.findIdx? (· == c) <;> simp

/-- **A call on a letter**, by the kind of the option. -/
theorem getoptLetter_eq (hnext : next.bytes = c :: letters) :
    getoptLetter argv optstring after next st =
      match optionKind optstring.bytes c with
      | none => unknownOption argv c st
      | some false => (charInt c, st)
      | some true => (charInt c, { st with optarg := some next, next := none }) := by
  have hbyte : next.byte 0 = c := by
    unfold CStr.byte
    rw [hnext]
    rfl
  have hnul : c ≠ 0 := next.noNul c (hnext ▸ List.mem_cons_self)
  unfold getoptLetter
  rw [hbyte]
  dsimp only
  by_cases hcolon : c = 58
  · subst hcolon
    cases placeNext optstring after 58 <;> rfl
  · rw [optionKind_eq after hnul hcolon]
    cases placeNext optstring after c with
    | none => rfl
    | some follows =>
      simp only [Option.map_some, if_neg hcolon, if_pos hnul]
      by_cases hfollows : follows = 58
      · simp [hfollows]
      · simp [hfollows]

end Kinds

/-! ## 3. The two compared -/

/-- What POSIX returns before -1: an option, `?` or `:`. -/
def PosixValue (optstring : List UInt8) (value : Int) : Prop :=
  value = 63 ∨ value = 58 ∨ ∃ c ∈ optstring, value = charInt c

theorem posixRun_values (optstring letters : List UInt8) (args : List (List UInt8))
    (optarg : Option (List UInt8)) :
    ∀ e ∈ (posixRun optstring letters args optarg).1, PosixValue optstring e.value := by
  fun_induction posixRun optstring letters args optarg
  case case1 ih => exact List.forall_mem_cons.mpr ⟨Or.inl rfl, ih⟩
  case case2 hkind _ ih | case3 hkind _ _ ih | case5 hkind _ _ _ _ ih =>
    exact List.forall_mem_cons.mpr ⟨Or.inr (Or.inr ⟨_, (mem_of_optionKind hkind).1, rfl⟩), ih⟩
  case case4 =>
    refine List.forall_mem_cons.mpr ⟨?_, fun _ h => absurd h List.not_mem_nil⟩
    unfold PosixValue
    dsimp only
    split <;> simp
  case case6 | case7 | case8 | case10 => exact fun _ h => absurd h List.not_mem_nil
  case case9 ih => exact ih

section Compared

variable (os : OptString) {argv : List CStr} {after : UInt8}

theorem OptString.charInt_ne {c : UInt8} (hc : c ∈ os.text.bytes) :
    charInt c ≠ -1 ∧ charInt c ≠ 63 ∧ charInt c ≠ 0 := by
  obtain ⟨hquestion, hend⟩ := os.telling c hc
  exact ⟨fun h => hend (charInt_inj.mp h), fun h => hquestion (charInt_inj.mp h),
    fun h => os.text.noNul c hc (charInt_inj.mp h)⟩

theorem OptString.posixValue_ne_zero {value : Int} (h : PosixValue os.text.bytes value) :
    value ≠ 0 := by
  rcases h with rfl | rfl | ⟨c, hc, rfl⟩
  · decide
  · decide
  · exact (os.charInt_ne hc).2.2

/-- What POSIX gives from a state of the header's `getopt` on, with `letters` left of the argument. -/
def posixFrom (argv : List CStr) (letters : List UInt8) (st : GetoptState) : List OptReturn × Nat :=
  let run := posixRun os.text.bytes letters ((argv.drop st.optind).map CStr.bytes)
    (st.optarg.map CStr.bytes)
  (run.1, st.optind + run.2)

variable {os} {letters : CStr} {st₀ st : GetoptState} {c : UInt8} {l : List UInt8}

theorem posixFrom_congr {st' : GetoptState} (hind : st'.optind = st.optind)
    (hoptarg : st'.optarg = st.optarg) : posixFrom os argv l st' = posixFrom os argv l st := by
  simp only [posixFrom, hind, hoptarg]

theorem posixFrom_unknown (hkind : optionKind os.text.bytes c = none) :
    posixFrom os argv (c :: l) st = (⟨63, st.optarg.map CStr.bytes⟩ :: (posixFrom os argv l st).1,
      (posixFrom os argv l st).2) := by
  simp only [posixFrom, posixRun_unknown _ _ hkind]

theorem posixFrom_flag (hkind : optionKind os.text.bytes c = some false) :
    posixFrom os argv (c :: l) st =
      (⟨charInt c, st.optarg.map CStr.bytes⟩ :: (posixFrom os argv l st).1,
        (posixFrom os argv l st).2) := by
  simp only [posixFrom, posixRun_flag _ _ hkind]

/-- At the NUL: POSIX returns no 0, and nothing once the arguments are used up. -/
theorem nul_differs (hletters : letters.bytes = [])
    (hcall : getopt argv os.text after st₀ = getoptLetter argv os.text after letters st) (fuel : Nat) :
    getoptCalls argv os.text after fuel st₀ ≠ some (posixFrom os argv [] st) := by
  intro hsame
  have hnul := getoptLetter_nul argv os.text after st hletters
  rcases getoptCalls_eq_some hcall hsame with ⟨hend, -⟩ | ⟨-, _, later, -, hresult⟩
  · rw [hend] at hnul
    simp at hnul
  · have hevents := congrArg Prod.fst hresult
    rcases hnul with hzero | ⟨hnone, -⟩
    · have hvalues : ∀ e ∈ (posixFrom os argv [] st).1, PosixValue os.text.bytes e.value :=
        posixRun_values _ _ _ _
      rw [hevents] at hvalues
      exact os.posixValue_ne_zero (hvalues _ List.mem_cons_self) hzero
    · simp only [posixFrom, hnone, List.map_nil, posixRun] at hevents
      cases hevents

/-- With the cursor dropped, an argument of one letter ends the calls where `optind` is. -/
theorem single_letter_ends {arg : CStr} {fuel : Nat} {later : List OptReturn × Nat}
    (hpos : st.optind ≠ 0) (hnext : st.next = none) (harg : argv[st.optind]? = some arg)
    (hbytes : arg.bytes = [c]) (hlater : getoptCalls argv os.text after fuel st = some later) :
    later.2 = st.optind := by
  have hstop : getopt argv os.text after st = (-1, { st with initialized := true }) := by
    rw [getopt_no_cursor hpos hnext, getoptArgument_eq (by exact harg), hbytes]
  rcases getoptCalls_eq_some hstop hlater with ⟨-, hlater'⟩ | ⟨hne, -⟩
  · rw [hlater']
  · exact absurd rfl hne

/-- At an option with an argument: the text handed out begins with the option's own letter. Where that
    is the argument all the same, `optind` still points at it. -/
theorem argument_differs (hletters : letters.bytes = c :: l) (hpos : st.optind ≠ 0)
    (hkind : optionKind os.text.bytes c = some true)
    (hcall : getopt argv os.text after st₀ =
      (charInt c, { st with optarg := some letters, next := none })) (fuel : Nat) :
    getoptCalls argv os.text after fuel st₀ ≠ some (posixFrom os argv (c :: l) st) := by
  intro hsame
  obtain ⟨hmem, hcolon⟩ := mem_of_optionKind hkind
  obtain ⟨hnotend, hquestion, -⟩ := os.charInt_ne hmem
  rcases getoptCalls_eq_some hcall hsame with ⟨hend, -⟩ | ⟨-, fuel', later, hlater, hresult⟩
  · exact hnotend hend
  · dsimp only at hresult
    rw [Option.map_some, hletters] at hresult
    by_cases hl : l = []
    · subst hl
      cases hargs : argv.drop st.optind with
      | nil =>
        simp only [posixFrom, hargs, List.map_nil, posixRun, hkind, ne_eq, not_true_eq_false,
          if_false, Prod.mk.injEq, List.cons.injEq, OptReturn.mk.injEq] at hresult
        have hvalue := hresult.1.1.1
        split at hvalue
        · exact hcolon (charInt_inj.mp hvalue.symm)
        · exact hquestion hvalue.symm
      | cons arg args =>
        simp only [posixFrom, hargs, List.map_cons, posixRun, hkind, ne_eq, not_true_eq_false,
          if_false, Prod.mk.injEq, List.cons.injEq, OptReturn.mk.injEq, Option.some.injEq,
          true_and] at hresult
        obtain ⟨⟨hbytes, -⟩, hind⟩ := hresult
        have harg : argv[st.optind]? = some arg := by
          rw [← List.head?_drop, hargs]
          rfl
        have hstays := single_letter_ends (by exact hpos) rfl (by exact harg) hbytes hlater
        dsimp only at hstays
        omega
    · simp only [posixFrom, posixRun_attached _ _ hkind hl, Prod.mk.injEq, List.cons.injEq,
        OptReturn.mk.injEq, Option.some.injEq, true_and] at hresult
      exact absurd (congrArg List.length hresult.1.1) (by simp)

/-- A call that gives what POSIX gives leaves the rest to the later calls. -/
theorem later_calls_agree {call : Int × GetoptState} {first : OptReturn} {fuel : Nat}
    {result : List OptReturn × Nat} (hcall : getopt argv os.text after st₀ = call)
    (hvalue : call.1 ≠ -1)
    (h : getoptCalls argv os.text after fuel st₀ = some (first :: result.1, result.2)) :
    ∃ fuel', getoptCalls argv os.text after fuel' call.2 = some result := by
  rcases getoptCalls_eq_some hcall h with ⟨hend, -⟩ | ⟨-, fuel', later, hlater, hresult⟩
  · exact absurd hend hvalue
  · simp only [Prod.mk.injEq, List.cons.injEq] at hresult
    have hsame : later = result := Prod.ext hresult.1.2.symm hresult.2.symm
    exact ⟨fuel', hsame ▸ hlater⟩

variable (os)

/-- **From any letter of an argument on the calls differ from POSIX**: at the first option that takes
    an argument, or behind the last letter, where one call too many returns. -/
theorem letters_differ : ∀ (l : List UInt8) {letters : CStr} {st₀ st : GetoptState},
    letters.bytes = l →
    getopt argv os.text after st₀ = getoptLetter argv os.text after letters st →
    st.next = some letters → st.optind ≠ 0 →
    ∀ fuel, getoptCalls argv os.text after fuel st₀ ≠ some (posixFrom os argv l st) := by
  intro l
  induction l with
  | nil =>
    intro letters st₀ st hletters hcall _ _ fuel
    exact nul_differs hletters hcall fuel
  | cons c l ih =>
    intro letters st₀ st hletters hcall hnext hpos fuel hsame
    have hletter : letters.byte 0 ≠ 0 := by
      rw [Ne, CStr.byte_eq_zero_iff, hletters]
      simp
    have hdrop : (letters.drop 1).bytes = l := by
      show letters.bytes.drop 1 = l
      rw [hletters]
      rfl
    rw [getoptLetter_eq hletters] at hcall
    cases hkind : optionKind os.text.bytes c with
    | none =>
      rw [hkind] at hcall
      obtain ⟨hcursor, hind, hoptarg⟩ := unknownOption_frame argv c st
      rw [posixFrom_unknown hkind] at hsame
      obtain ⟨fuel', hlater⟩ := later_calls_agree hcall (show (63 : Int) ≠ -1 by decide) hsame
      dsimp only at hlater
      have hpos' := hind.symm ▸ hpos
      rw [← posixFrom_congr hind hoptarg] at hlater
      exact ih hdrop (getopt_at_letter hpos' (hcursor.trans hnext) hletter) rfl hpos' fuel' hlater
    | some takes =>
      rw [hkind] at hcall
      cases takes with
      | false =>
        rw [posixFrom_flag hkind] at hsame
        obtain ⟨fuel', hlater⟩ := later_calls_agree hcall
          (os.charInt_ne (mem_of_optionKind hkind).1).1 hsame
        exact ih hdrop (getopt_at_letter hpos hnext hletter) rfl hpos fuel' hlater
      | true => exact argument_differs hletters hpos hkind hcall fuel hsame

/-! ## 4. Option strings and arguments -/

/-- The first argument holds options, or both return -1 at once. -/
theorem first_argument (argv : List CStr) (after : UInt8) :
    (∃ (arg : CStr) (c : UInt8) (l : List UInt8), argv[1]? = some arg ∧ arg.bytes = 45 :: c :: l ∧
      ¬ (c = 45 ∧ l = [])) ∨
    ((getopt argv os.text after .initial).1 = -1 ∧
      posixGetopt os.text argv = ([], (getopt argv os.text after .initial).2.optind)) := by
  rw [getopt_no_cursor Nat.one_ne_zero rfl]
  rcases argv with _ | ⟨program, _ | ⟨arg, args⟩⟩
  · exact Or.inr ⟨rfl, by simp [posixGetopt, posixRun, getoptArgument, GetoptState.initial]⟩
  · exact Or.inr ⟨rfl, by simp [posixGetopt, posixRun, getoptArgument, GetoptState.initial]⟩
  · have hposix : posixGetopt os.text (program :: arg :: args) =
        ((posixRun os.text.bytes [] (arg.bytes :: args.map CStr.bytes) none).1,
          1 + (posixRun os.text.bytes [] (arg.bytes :: args.map CStr.bytes) none).2) := rfl
    rw [hposix, getoptArgument_eq rfl]
    rcases hbytes : arg.bytes with _ | ⟨dash, _ | ⟨c, l⟩⟩
    · exact Or.inr ⟨rfl, by simp [posixRun, GetoptState.initial]⟩
    · exact Or.inr ⟨rfl, by simp [posixRun, GetoptState.initial]⟩
    · by_cases hdash : dash = 45
      · by_cases hdashes : c = 45 ∧ l = []
        · exact Or.inr (by simp [posixRun, hdash, hdashes, GetoptState.initial])
        · exact Or.inl ⟨arg, c, l, rfl, hdash ▸ hbytes, hdashes⟩
      · exact Or.inr (by simp [posixRun, hdash, GetoptState.initial])

end Compared

/-- **Where the header's `getopt` agrees with POSIX**: exactly where POSIX finds no option. -/
theorem getopt_posix_iff (os : OptString) (after : UInt8) (argv : List CStr) :
    (∃ fuel, getoptCalls argv os.text after fuel .initial = some (posixGetopt os.text argv)) ↔
      (posixGetopt os.text argv).1 = [] := by
  rcases first_argument os argv after with ⟨arg, c, l, harg, hbytes, hne⟩ | ⟨hend, hposix⟩
  · -- the calls go into the argument
    let st : GetoptState :=
      { GetoptState.initial with initialized := true, next := some (arg.drop 1), optind := 2 }
    have hcall : getopt argv os.text after .initial =
        getoptLetter argv os.text after (arg.drop 1) st := by
      rw [getopt_no_cursor Nat.one_ne_zero rfl, getoptArgument_eq harg, hbytes]
      dsimp only
      rw [if_neg (by simp), if_neg hne]
      rfl
    have hposix : posixGetopt os.text argv = posixFrom os argv (c :: l) st := by
      have hdrop : argv.drop 1 = arg :: argv.drop 2 := by
        obtain ⟨hlt, harg⟩ := List.getElem?_eq_some_iff.mp harg
        rw [List.drop_eq_getElem_cons hlt, harg]
      simp only [posixGetopt, posixFrom, hdrop, List.map_cons, hbytes, posixRun, ne_eq,
        not_true_eq_false, if_false, if_neg hne]
      have hindex : ∀ used : Nat, 1 + (used + 1) = 2 + used := fun used => by omega
      exact Prod.ext rfl (hindex _)
    have hdrop : (arg.drop 1).bytes = c :: l := congrArg (List.drop 1) hbytes
    rw [hposix]
    refine iff_of_false ?_ (posixRun_cons_ne_nil _ _)
    rintro ⟨fuel, hsame⟩
    exact letters_differ os (c :: l) hdrop hcall rfl (show 2 ≠ 0 by decide) fuel hsame
  · refine iff_of_true ⟨1, ?_⟩ (congrArg Prod.fst hposix)
    rw [hposix]
    exact if_pos hend

/-- `short_options` of `vom_master_cli_parse`, `hVc:l:b:fdus:`. -/
def shortOptions : OptString where
  text := CStr.upTo (asciiBytes "hVc:l:b:fdus:")
  telling := fun c hc => by
    have hall : (CStr.upTo (asciiBytes "hVc:l:b:fdus:")).bytes.all (fun c => c != 63 && c != 255) =
        true := by decide
    simpa using List.all_eq_true.mp hall c hc

/-- The arguments `m -s 3`. -/
def simulateThree : List CStr :=
  [CStr.upTo (asciiBytes "m"), CStr.upTo (asciiBytes "-s"), CStr.upTo (asciiBytes "3")]

/-- **An option's argument that is lost.** `-s 3` gives the text `s`, and `3` is left over. -/
theorem separate_argument_lost :
    (∀ after : UInt8, getoptCalls simulateThree shortOptions.text after 2 .initial =
      some ([⟨115, some [115]⟩], 2)) ∧
    posixGetopt shortOptions.text simulateThree = ([⟨115, some [51]⟩], 3) ∧
    ¬ ∀ (os : OptString) (after : UInt8) (argv : List CStr),
      ∃ fuel, getoptCalls argv os.text after fuel .initial = some (posixGetopt os.text argv) := by
  have hcompat : ∀ (after : UInt8) (fuel : Nat),
      getoptCalls simulateThree shortOptions.text after (fuel + 2) .initial =
        some ([⟨115, some [115]⟩], 2) := fun _ _ => rfl
  have hposix : posixGetopt shortOptions.text simulateThree = ([⟨115, some [51]⟩], 3) := by
    have hkind : optionKind shortOptions.text.bytes 115 = some true := by decide
    have harguments : (simulateThree.drop 1).map CStr.bytes = [[45, 115], [51]] := rfl
    have hvalue : charInt 115 = 115 := rfl
    unfold posixGetopt
    rw [harguments]
    simp [posixRun, hkind, hvalue]
  refine ⟨fun after => hcompat after 0, hposix, fun h => ?_⟩
  obtain ⟨fuel, hsame⟩ := h shortOptions 0 simulateThree
  rw [hposix] at hsame
  rcases fuel with _ | _ | fuel
  · cases hsame
  · cases hsame
  · rw [hcompat] at hsame
    exact absurd hsame (by decide)

end VoidOsMerger
