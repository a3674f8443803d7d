/-
  File:      VoidOsMerger/Master/Cli.lean
  Subject:   THE MASTER'S COMMAND LINE (vom_master_cli_parse of master/src/cli.c), read with the
             `getopt_long` of the compatibility header.

  `vom_master_cli_parse` calls `getopt_long` until it returns -1. A long option is read as it is meant. A
  short option that takes a value is given its own letter with the value, and a short flag leaves the
  cursor of `getopt` on its letter, so that the call that next looks at the cursor returns 0. The `atoi`
  of the C library is a parameter (`AtoiInt`): the header is used with more than one library.

  * `vomMasterCliParse` -- the function; what it leaves in `out`, and how it ends;
  * `CliItem` -- an option as it can be written, `CliItem.effect` -- what it does;
  * `masterGetopt_item`, `cliLoop_items` -- one option, and options in a row;
  * **`master_options_read_back`** -- the outcome of every command line made of such options;
  * **`short_flag_is_refused`** -- a command line with `-d` or `-f` is accepted only with `--` behind it.
-/
import VoidOsMerger.Common.GetoptLong
import VoidOsMerger.Common.GetoptPosix
import VoidOsMerger.Config.Model

namespace VoidOsMerger

/-! ## 1. The function -/

/-- `vom_master_args_t` -/
structure VomMasterArgs where
  help : Bool
  version : Bool
  configFile : Option CStr
  logLevel : Option CStr
  bindEndpoint : Option CStr
  daemonize : Bool
  printUuid : Bool
  simulateWorkersCount : Int32
  deriving DecidableEq

/-- What the function writes first. -/
def masterArgsDefaults : VomMasterArgs :=
  ⟨false, false, none, some (literal "info"), none, false, false, 0⟩

/-- `long_options` -/
def masterLongOptions : List LongOption :=
  [⟨literal "help", .noArgument, 104⟩,
    ⟨literal "version", .noArgument, 86⟩,
    ⟨literal "config", .requiredArgument, 99⟩,
    ⟨literal "log-level", .requiredArgument, 108⟩,
    ⟨literal "bind", .requiredArgument, 98⟩,
    ⟨literal "foreground", .noArgument, 102⟩,
    ⟨literal "daemon", .noArgument, 100⟩,
    ⟨literal "print-uuid", .noArgument, 117⟩,
    ⟨literal "simulate", .requiredArgument, 115⟩]

/-- `vom_master_cli_validate_endpoint` -/
def vomMasterCliValidateEndpoint : Option CStr → Bool
  | none => false
  | some endpoint =>
    (strncmp endpoint (literal "tcp://") 6 == 0 || strncmp endpoint (literal "ipc://") 6 == 0) &&
      6 < endpoint.strlen

/-- `atoi` of a C library: an `int`, and the number that is written where that is one. What it gives for
    another number is left to the library. -/
structure AtoiInt where
  call : CStr → Int32
  exact : ∀ s, -2147483648 ≤ atoi s → atoi s < 2147483648 → (call s).toInt = atoi s

/-- How the function ends: it returns 0, and warns of the first argument it does not look at; it returns
    -1 with a text on `stderr`; it exits with `EXIT_SUCCESS`; or it reads through a null pointer. -/
inductive CliOutcome
  | parsed (out : VomMasterArgs) (ignored : Option CStr)
  | refused (out : VomMasterArgs) (stderr : List UInt8)
  | exits (out : VomMasterArgs)
  | crashes
  deriving DecidableEq

def CliOutcome.returnsZero : CliOutcome → Bool
  | .parsed _ _ => true
  | .refused _ _ => false
  | .exits _ => false
  | .crashes => false

/-- The text of `case '?'`. -/
def optionErrorText (optopt : Int) : List UInt8 :=
  let c := UInt8.ofNat (optopt % 256).toNat
  if c = 0 ∨ c ∈ asciiBytes "clbs" then
    asciiBytes "Error: Option '-" ++ [c] ++ asciiBytes "' requires an associated parameter argument.\n"
  else if 32 ≤ optopt ∧ optopt ≤ 126 then
    asciiBytes "Error: Unrecognized operational option flag '-" ++ [c] ++ asciiBytes "'.\n"
  else asciiBytes "Error: Unsupported parsing character set found.\n"

def endpointErrorText (endpoint : Option CStr) : List UInt8 :=
  asciiBytes "Error: Invalid bind endpoint '" ++ endpoint.elim [] CStr.bytes ++
    asciiBytes "'. Use 'tcp://' or 'ipc://'.\n"

def simulateErrorText (count : CStr) : List UInt8 :=
  asciiBytes "Error: Invalid simulation worker allocation parameter '" ++ count.bytes ++
    asciiBytes "'.\n"

/-- The `switch` of the loop. -/
def handleOption (lib : AtoiInt) (opt : Int) (optarg : Option CStr) (optopt : Int) (out : VomMasterArgs) :
    Except CliOutcome VomMasterArgs :=
  if opt = 104 then .error (.exits { out with help := true })
  else if opt = 86 then .error (.exits { out with version := true })
  else if opt = 99 then .ok { out with configFile := optarg }
  else if opt = 108 then .ok { out with logLevel := optarg }
  else if opt = 98 then
    if vomMasterCliValidateEndpoint optarg then .ok { out with bindEndpoint := optarg }
    else .error (.refused out (endpointErrorText optarg))
  else if opt = 102 then .ok { out with daemonize := false }
  else if opt = 100 then .ok { out with daemonize := true }
  else if opt = 117 then .error (.exits { out with printUuid := true })
  else if opt = 115 then
    match optarg with
    | none => .error .crashes
    | some count =>
      let out := { out with simulateWorkersCount := lib.call count }
      if out.simulateWorkersCount < 0 then .error (.refused out (simulateErrorText count)) else .ok out
  else if opt = 63 then .error (.refused out (optionErrorText optopt))
  else .error (.refused out [])

section Loop

variable (lib : AtoiInt) (argv : List CStr) (after : UInt8)

/-- A call of the loop. -/
def masterGetopt (st : GetoptState) : Int × GetoptState :=
  getoptLong argv shortOptions.text after masterLongOptions st

/-- The loop. -/
def cliLoop (st : GetoptState) (hpos : st.optind ≠ 0) (out : VomMasterArgs) : CliOutcome :=
  if hend : (masterGetopt argv after st).1 = -1 then
    .parsed out argv[(masterGetopt argv after st).2.optind]?
  else
    match handleOption lib (masterGetopt argv after st).1 (masterGetopt argv after st).2.optarg
      (masterGetopt argv after st).2.optopt out with
    | .error outcome => outcome
    | .ok out => cliLoop (masterGetopt argv after st).2 (getoptLong_unread hpos hend).2 out
termination_by unread argv st
decreasing_by exact (getoptLong_unread hpos hend).1

/-- `vom_master_cli_parse`, with `opterr = 0`; `after` is the byte behind the NUL of `short_options`. -/
def vomMasterCliParse : CliOutcome :=
  cliLoop lib argv after { GetoptState.initial with opterr := false } Nat.one_ne_zero masterArgsDefaults

end Loop

/-! ## 2. Options as they can be written -/

/-- The options that take a value. -/
inductive ValueOption
  | config | logLevel | bind | simulate
  deriving DecidableEq, Repr

/-- The options that take none. -/
inductive FlagOption
  | help | version | foreground | daemon | printUuid
  deriving DecidableEq, Repr

def ValueOption.long : ValueOption → LongOption
  | .config => ⟨literal "config", .requiredArgument, 99⟩
  | .logLevel => ⟨literal "log-level", .requiredArgument, 108⟩
  | .bind => ⟨literal "bind", .requiredArgument, 98⟩
  | .simulate => ⟨literal "simulate", .requiredArgument, 115⟩

def FlagOption.long : FlagOption → LongOption
  | .help => ⟨literal "help", .noArgument, 104⟩
  | .version => ⟨literal "version", .noArgument, 86⟩
  | .foreground => ⟨literal "foreground", .noArgument, 102⟩
  | .daemon => ⟨literal "daemon", .noArgument, 100⟩
  | .printUuid => ⟨literal "print-uuid", .noArgument, 117⟩

def ValueOption.letter : ValueOption → UInt8
  | .config => 99
  | .logLevel => 108
  | .bind => 98
  | .simulate => 115

theorem noNul_lettered (o : ValueOption) (text : CStr) : ∀ b ∈ o.letter :: text.bytes, b ≠ 0 :=
  List.forall_mem_cons.mpr ⟨by cases o <;> decide, text.noNul⟩

/-- The letter with a text behind it. -/
def lettered (o : ValueOption) (text : CStr) : CStr := ⟨o.letter :: text.bytes, noNul_lettered o text⟩

theorem noNul_dash (s : CStr) : ∀ b ∈ 45 :: s.bytes, b ≠ 0 :=
  List.forall_mem_cons.mpr ⟨by decide, s.noNul⟩

/-- `-s` -/
def dash (s : CStr) : CStr := ⟨45 :: s.bytes, noNul_dash s⟩

/-- An option as it can be written: `--name=value`, `--name value`, `--name` or `--name=text` for a flag,
    and a letter with a text. -/
inductive CliItem
  | attached (o : ValueOption) (value : CStr)
  | separate (o : ValueOption) (value : CStr)
  | flag (o : FlagOption) (text : Option CStr)
  | short (o : ValueOption) (text : CStr)

namespace CliItem

/-- The arguments that make it up. -/
def args : CliItem → List CStr
  | attached o value => [dashed (assign o.long.name value)]
  | separate o value => [dashed o.long.name, value]
  | flag o none => [dashed o.long.name]
  | flag o (some text) => [dashed (assign o.long.name text)]
  | short o text => [dash (lettered o text)]

/-- What the call returns. -/
def val : CliItem → Int
  | attached o _ => o.long.val
  | separate o _ => o.long.val
  | flag o _ => o.long.val
  | short o _ => o.long.val

/-- What the call leaves in `optarg`. -/
def optarg : CliItem → Option CStr
  | attached _ value => some value
  | separate _ value => some value
  | flag _ _ => none
  | short o text => some (lettered o text)

end CliItem

/-- An endpoint the master takes. -/
def EndpointText (endpoint : CStr) : Prop :=
  ((literal "tcp://").bytes <+: endpoint.bytes ∨ (literal "ipc://").bytes <+: endpoint.bytes) ∧
    6 < endpoint.strlen

instance (endpoint : CStr) : Decidable (EndpointText endpoint) :=
  inferInstanceAs (Decidable (_ ∧ _))

/-- What a value does. -/
def ValueOption.effect (lib : AtoiInt) (value : CStr) (out : VomMasterArgs) :
    ValueOption → Except CliOutcome VomMasterArgs
  | .config => .ok { out with configFile := some value }
  | .logLevel => .ok { out with logLevel := some value }
  | .bind =>
    if EndpointText value then .ok { out with bindEndpoint := some value }
    else .error (.refused out (endpointErrorText (some value)))
  | .simulate =>
    if lib.call value < 0 then
      .error (.refused { out with simulateWorkersCount := lib.call value } (simulateErrorText value))
    else .ok { out with simulateWorkersCount := lib.call value }

def FlagOption.effect (out : VomMasterArgs) : FlagOption → Except CliOutcome VomMasterArgs
  | .help => .error (.exits { out with help := true })
  | .version => .error (.exits { out with version := true })
  | .foreground => .ok { out with daemonize := false }
  | .daemon => .ok { out with daemonize := true }
  | .printUuid => .error (.exits { out with printUuid := true })

/-- **What an option does.** A letter's value is the letter with the text: never an endpoint, and no
    number. -/
def CliItem.effect (lib : AtoiInt) (out : VomMasterArgs) : CliItem → Except CliOutcome VomMasterArgs
  | attached o value => o.effect lib value out
  | separate o value => o.effect lib value out
  | flag o _ => o.effect out
  | short .config text => .ok { out with configFile := some (lettered .config text) }
  | short .logLevel text => .ok { out with logLevel := some (lettered .logLevel text) }
  | short .bind text => .error (.refused out (endpointErrorText (some (lettered .bind text))))
  | short .simulate _ => .ok { out with simulateWorkersCount := 0 }

/-! ## 3. The switch -/

theorem literal_tcp : (literal "tcp://").bytes = [116, 99, 112, 58, 47, 47] := by decide

theorem literal_ipc : (literal "ipc://").bytes = [105, 112, 99, 58, 47, 47] := by decide

theorem validateEndpoint_iff (endpoint : CStr) :
    vomMasterCliValidateEndpoint (some endpoint) = true ↔ EndpointText endpoint := by
  have htcp : strncmp endpoint (literal "tcp://") 6 = 0 ↔
      (literal "tcp://").bytes <+: endpoint.bytes := strncmp_eq_zero_iff endpoint (literal "tcp://")
  have hipc : strncmp endpoint (literal "ipc://") 6 = 0 ↔
      (literal "ipc://").bytes <+: endpoint.bytes := strncmp_eq_zero_iff endpoint (literal "ipc://")
  unfold vomMasterCliValidateEndpoint EndpointText
  rw [Bool.and_eq_true, Bool.or_eq_true, beq_iff_eq, beq_iff_eq, htcp, hipc, decide_eq_true_eq]

/-- A value, whatever the letter of the option. -/
theorem handleOption_value (lib : AtoiInt) (o : ValueOption) (value : CStr) (optopt : Int)
    (out : VomMasterArgs) :
    handleOption lib o.long.val (some value) optopt out = o.effect lib value out := by
  cases o with
  | config => rfl
  | logLevel => rfl
  | bind =>
    change (if vomMasterCliValidateEndpoint (some value) = true then _ else _) = _
    unfold ValueOption.effect
    by_cases hvalid : EndpointText value
    · rw [if_pos hvalid, if_pos ((validateEndpoint_iff value).mpr hvalid)]
    · rw [if_neg hvalid, if_neg fun h => hvalid ((validateEndpoint_iff value).mp h)]
  | simulate => rfl

/-- The text of a letter is no endpoint. -/
theorem not_endpointText_lettered (text : CStr) : ¬ EndpointText (lettered .bind text) := by
  rintro ⟨⟨r, hr⟩ | ⟨r, hr⟩, -⟩
  · rw [literal_tcp] at hr
    exact absurd (List.cons.inj hr).1 (by decide)
  · rw [literal_ipc] at hr
    exact absurd (List.cons.inj hr).1 (by decide)

theorem atoi_lettered (lib : AtoiInt) (text : CStr) : lib.call (lettered .simulate text) = 0 := by
  have hzero : atoi (lettered .simulate text) = 0 := by
    rw [atoi_unsigned (s := lettered .simulate text) rfl (by decide)]
    rfl
  have hint := lib.exact (lettered .simulate text) (by rw [hzero]; decide) (by rw [hzero]; decide)
  exact Int32.toInt_inj.mp (hint.trans hzero)

theorem handleOption_item (lib : AtoiInt) (item : CliItem) (optopt : Int) (out : VomMasterArgs) :
    handleOption lib item.val item.optarg optopt out = item.effect lib out := by
  cases item with
  | attached o value => exact handleOption_value lib o value optopt out
  | separate o value => exact handleOption_value lib o value optopt out
  | flag o text => cases o <;> rfl
  | short o text =>
    refine (handleOption_value lib o (lettered o text) optopt out).trans ?_
    cases o with
    | config => rfl
    | logLevel => rfl
    | bind =>
      unfold ValueOption.effect CliItem.effect
      rw [if_neg (not_endpointText_lettered text)]
    | simulate =>
      unfold ValueOption.effect CliItem.effect
      rw [atoi_lettered]
      rfl

/-! ## 4. Options in a row -/

theorem masterNames_plain : ∀ o ∈ masterLongOptions, ∀ b ∈ o.name.bytes, b ≠ 61 := by
  have hall : masterLongOptions.all (fun o => o.name.bytes.all (· != 61)) = true := by decide
  intro o ho b hb
  exact bne_iff_ne.mp (List.all_eq_true.mp (List.all_eq_true.mp hall o ho) b hb)

theorem masterNames_nodup : (masterLongOptions.map (·.name)).Nodup := by decide

theorem ValueOption.long_mem (o : ValueOption) : o.long ∈ masterLongOptions := by cases o <;> decide

theorem FlagOption.long_mem (o : FlagOption) : o.long ∈ masterLongOptions := by cases o <;> decide

/-- The option whose name stands before the first `=`. -/
theorem find_master {o : LongOption} (ho : o ∈ masterLongOptions) {arg : CStr}
    (harg : arg.bytes.takeWhile (· ≠ 61) = o.name.bytes) :
    masterLongOptions.find? (LongOption.named arg) = some o :=
  find_named masterNames_plain masterNames_nodup ho harg

theorem find_name {o : LongOption} (ho : o ∈ masterLongOptions) :
    masterLongOptions.find? (LongOption.named o.name) = some o :=
  find_master ho (List.takeWhile_eq_self_iff.mpr fun b hb =>
    decide_eq_true (masterNames_plain o ho b hb))

theorem find_assign {o : LongOption} (ho : o ∈ masterLongOptions) (value : CStr) :
    masterLongOptions.find? (LongOption.named (assign o.name value)) = some o := by
  refine find_master ho ?_
  change (o.name.bytes ++ 61 :: value.bytes).takeWhile (· ≠ 61) = o.name.bytes
  rw [List.takeWhile_append_of_pos fun b hb => decide_eq_true (masterNames_plain o ho b hb),
    List.takeWhile_cons_of_neg (by simp), List.append_nil]

theorem name_nonempty {o : LongOption} (ho : o ∈ masterLongOptions) : o.name.bytes ≠ [] := by
  have hall : masterLongOptions.all (fun o => !o.name.bytes.isEmpty) = true := by decide
  intro h
  have hsome := List.all_eq_true.mp hall o ho
  rw [h] at hsome
  exact absurd hsome (by decide)

/-- The cursor is in no argument, and these are left. -/
structure AtArgs (argv : List CStr) (left : List CStr) (st : GetoptState) : Prop where
  pos : st.optind ≠ 0
  next : st.next = none
  left : argv.drop st.optind = left

section Items

variable {lib : AtoiInt} {argv : List CStr} {after : UInt8} {st : GetoptState} {out : VomMasterArgs}
  {arg : CStr} {left more : List CStr}

theorem AtArgs.head? (h : AtArgs argv left st) : argv[st.optind]? = left.head? := by
  rw [← List.head?_drop, h.left]

theorem AtArgs.head (h : AtArgs argv (arg :: more) st) : argv[st.optind]? = some arg := h.head?

theorem AtArgs.tail (h : AtArgs argv (arg :: more) st) : argv.drop (st.optind + 1) = more := by
  rw [← List.tail_drop, h.left, List.tail_cons]

/-- Where no long option is ahead, the call is one of `getopt` on the next argument. -/
theorem masterGetopt_argument (after : UInt8) (h : AtArgs argv left st)
    (hplain : ∀ arg ∈ left.head?, ¬ (arg.byte 0 = 45 ∧ arg.byte 1 = 45)) :
    masterGetopt argv after st =
      getoptArgument argv shortOptions.text after { st with initialized := true } := by
  rw [← h.head?] at hplain
  unfold masterGetopt
  rw [getoptLong_plain hplain, getopt_no_cursor h.pos h.next]

/-- A letter with a text. -/
theorem masterGetopt_short (o : ValueOption) (text : CStr)
    (h : AtArgs argv (dash (lettered o text) :: more) st) :
    masterGetopt argv after st =
      (o.long.val, { st with
        initialized := true, optind := st.optind + 1, optarg := some (lettered o text) }) := by
  have hletter : o.letter ≠ 45 := by cases o <;> decide
  have hplain : ∀ arg ∈ some (dash (lettered o text)), ¬ (arg.byte 0 = 45 ∧ arg.byte 1 = 45) := by
    intro arg harg hdashes
    rw [← Option.some.inj harg] at hdashes
    exact hletter hdashes.2
  have hhead : argv[({ st with initialized := true } : GetoptState).optind]? =
      some (dash (lettered o text)) := h.head
  rw [masterGetopt_argument after h hplain, getoptArgument_eq hhead]
  change (if (45 : UInt8) ≠ 45 then _ else if o.letter = 45 ∧ text.bytes = [] then _ else _) = _
  rw [if_neg (fun h => h rfl), if_neg (fun h => hletter h.1), h.next]
  cases o <;> rfl

theorem masterGetopt_dashed {body : CStr} {o : LongOption}
    (harg : argv[st.optind]? = some (dashed body)) (hne : body.bytes ≠ [])
    (hfind : masterLongOptions.find? (LongOption.named body) = some o) :
    masterGetopt argv after st = longFound argv o body st := by
  unfold masterGetopt
  rw [getoptLong_dashed harg hne, getoptDashes, hfind]

theorem assign_nonempty (name value : CStr) : (assign name value).bytes ≠ [] :=
  List.append_ne_nil_of_right_ne_nil _ (List.cons_ne_nil _ _)

/-- **One option**: the call returns its letter, leaves its value in `optarg` and goes past it. -/
theorem masterGetopt_item (after : UInt8) (item : CliItem) (h : AtArgs argv (item.args ++ more) st) :
    ∃ st', masterGetopt argv after st = (item.val, st') ∧ AtArgs argv more st' ∧
      st'.optarg = item.optarg := by
  have hpos : ∀ n, st.optind + 1 + n ≠ 0 := fun n => by omega
  cases item with
  | attached o value =>
    have hfound := find_assign o.long_mem value
    have hreq : o.long.hasArg = .requiredArgument := by cases o <;> rfl
    refine ⟨_, (masterGetopt_dashed h.head (assign_nonempty _ _) hfound).trans
      (longFound_attached hreq value), ⟨hpos 0, h.next, h.tail⟩, rfl⟩
  | separate o value =>
    have hfound := find_name o.long_mem
    have hreq : o.long.hasArg = .requiredArgument := by cases o <;> rfl
    have hvalue : argv[st.optind + 1]? = some value := by
      rw [← List.head?_drop, h.tail]
      rfl
    have hmore : argv.drop (st.optind + 1 + 1) = more := by
      rw [← List.tail_drop, h.tail]
      rfl
    exact ⟨_, (masterGetopt_dashed h.head (name_nonempty o.long_mem) hfound).trans
      (longFound_separate hreq hvalue), ⟨hpos 1, h.next, hmore⟩, rfl⟩
  | flag o text =>
    have hno : o.long.hasArg = .noArgument := by cases o <;> rfl
    cases text with
    | none =>
      exact ⟨_, (masterGetopt_dashed h.head (name_nonempty o.long_mem) (find_name o.long_mem)).trans
        (longFound_flag hno _), ⟨hpos 0, h.next, h.tail⟩, rfl⟩
    | some text =>
      exact ⟨_, (masterGetopt_dashed h.head (assign_nonempty _ _) (find_assign o.long_mem text)).trans
        (longFound_flag hno _), ⟨hpos 0, h.next, h.tail⟩, rfl⟩
  | short o text => exact ⟨_, masterGetopt_short o text h, ⟨hpos 0, h.next, h.tail⟩, rfl⟩

/-! ## 5. The loop -/

theorem cliLoop_call (lib : AtoiInt) (out : VomMasterArgs) {opt : Int} {st' : GetoptState}
    (hcall : masterGetopt argv after st = (opt, st')) (hopt : opt ≠ -1) (hpos : st.optind ≠ 0)
    (hpos' : st'.optind ≠ 0) :
    cliLoop lib argv after st hpos out =
      match handleOption lib opt st'.optarg st'.optopt out with
      | .error outcome => outcome
      | .ok out => cliLoop lib argv after st' hpos' out := by
  have hgo : (masterGetopt argv after st).1 ≠ -1 := by rwa [hcall]
  rw [cliLoop, dif_neg hgo]
  simp only [hcall]

theorem cliLoop_end {st' : GetoptState} (hcall : masterGetopt argv after st = (-1, st'))
    (hpos : st.optind ≠ 0) : cliLoop lib argv after st hpos out = .parsed out argv[st'.optind]? := by
  have hend : (masterGetopt argv after st).1 = -1 := by rw [hcall]
  rw [cliLoop, dif_pos hend, hcall]

/-- What options do one after another, up to the first that ends the function. -/
def runItems (lib : AtoiInt) (items : List CliItem) (out : VomMasterArgs) :
    Except CliOutcome VomMasterArgs :=
  items.foldlM (fun out item => item.effect lib out) out

theorem runItems_cons (lib : AtoiInt) (item : CliItem) (items : List CliItem) (out : VomMasterArgs) :
    runItems lib (item :: items) out = item.effect lib out >>= runItems lib items := rfl

theorem ValueOption.val_ne (o : ValueOption) : o.long.val ≠ -1 := by cases o <;> decide

theorem FlagOption.val_ne (o : FlagOption) : o.long.val ≠ -1 := by cases o <;> decide

theorem CliItem.val_ne (item : CliItem) : item.val ≠ -1 := by
  cases item with
  | attached o _ => exact o.val_ne
  | separate o _ => exact o.val_ne
  | flag o _ => exact o.val_ne
  | short o _ => exact o.val_ne

/-- **Options in a row**: the loop ends with the first that ends it, or goes on behind them. -/
theorem cliLoop_items (after : UInt8) : ∀ (items : List CliItem) (st : GetoptState) (out : VomMasterArgs)
    (h : AtArgs argv (items.flatMap CliItem.args ++ more) st),
    (∃ outcome, runItems lib items out = .error outcome ∧ cliLoop lib argv after st h.pos out = outcome) ∨
      ∃ out' st', ∃ h' : AtArgs argv more st', runItems lib items out = .ok out' ∧
        cliLoop lib argv after st h.pos out = cliLoop lib argv after st' h'.pos out'
  | [], st, out, h => Or.inr ⟨out, st, h, rfl, rfl⟩
  | item :: items, st, out, h => by
      have hargs : AtArgs argv (item.args ++ (items.flatMap CliItem.args ++ more)) st := by
        rw [← List.append_assoc]
        exact h
      obtain ⟨st', hcall, hat, hoptarg⟩ := masterGetopt_item after item hargs
      have hloop := cliLoop_call lib out hcall item.val_ne h.pos hat.pos
      rw [hoptarg, handleOption_item] at hloop
      rw [hloop, runItems_cons]
      cases heffect : item.effect lib out with
      | error outcome => exact Or.inl ⟨outcome, rfl, rfl⟩
      | ok out' => exact cliLoop_items after items st' out' hat

end Items

/-! ## 6. Command lines of options -/

/-- How the options of a command line end: with the line, with an argument that is none, or with two
    dashes. -/
inductive CliEnd
  | nothing
  | operand (arg : CStr) (plain : arg.byte 0 ≠ 45 ∨ arg.byte 1 = 0) (rest : List CStr)
  | dashes (rest : List CStr)

def CliEnd.args : CliEnd → List CStr
  | nothing => []
  | operand arg _ rest => arg :: rest
  | dashes rest => dashed ⟨[], noNul_nil⟩ :: rest

/-- The first argument that is not looked at. -/
def CliEnd.ignored : CliEnd → Option CStr
  | nothing => none
  | operand arg _ _ => some arg
  | dashes rest => rest.head?

theorem masterGetopt_end {argv : List CStr} {st : GetoptState} (after : UInt8) (tail : CliEnd)
    (h : AtArgs argv tail.args st) :
    ∃ st', masterGetopt argv after st = (-1, st') ∧ argv[st'.optind]? = tail.ignored := by
  have hhead := h.head?
  cases tail with
  | nothing =>
    rw [masterGetopt_argument after h fun arg harg => absurd harg (Option.not_mem_none arg),
      getoptArgument]
    dsimp only
    rw [hhead]
    exact ⟨_, rfl, hhead⟩
  | operand arg plain rest =>
    have hplain : ∀ arg' ∈ some arg, ¬ (arg'.byte 0 = 45 ∧ arg'.byte 1 = 45) := by
      intro arg' harg hdashes
      rw [← Option.some.inj harg] at hdashes
      rcases plain with hfirst | hsecond
      · exact hfirst hdashes.1
      · exact absurd (hsecond.symm.trans hdashes.2) (by decide)
    rw [masterGetopt_argument after h hplain, getoptArgument]
    dsimp only
    rw [hhead]
    exact ⟨_, if_pos plain, hhead⟩
  | dashes rest =>
    refine ⟨_, getoptLong_end hhead, ?_⟩
    rw [← List.head?_drop, h.tail]
    rfl

theorem atArgs_start (prog : CStr) (args : List CStr) :
    AtArgs (prog :: args) args { GetoptState.initial with opterr := false } :=
  ⟨Nat.one_ne_zero, rfl, rfl⟩

/-- **Options are read back.** For every command line made of options, long ones with `=` or with the
    value as the next argument and letters with a text, and of anything behind them that ends the
    options, the outcome is that of the options' effects one after another: the first invalid value is
    refused, the first of `--help`, `--version` and `--print-uuid` exits, and else the last value of each
    option stands. A count is what the library's `atoi` makes of it. -/
theorem master_options_read_back (lib : AtoiInt) (prog : CStr) (items : List CliItem) (tail : CliEnd)
    (after : UInt8) :
    vomMasterCliParse lib (prog :: (items.flatMap CliItem.args ++ tail.args)) after =
      match runItems lib items masterArgsDefaults with
      | .error outcome => outcome
      | .ok out => .parsed out tail.ignored := by
  unfold vomMasterCliParse
  rcases cliLoop_items after items _ masterArgsDefaults (atArgs_start prog _) with
    ⟨outcome, hrun, hloop⟩ | ⟨out, st, hat, hrun, hloop⟩
  · rw [hloop, hrun]
  · obtain ⟨st', hcall, hignored⟩ := masterGetopt_end after tail hat
    rw [hloop, hrun, cliLoop_end hcall, hignored]

/-! ## 7. A flag that is a letter -/

/-- `-f` and `-d` -/
inductive ShortFlag
  | foreground | daemon
  deriving DecidableEq, Repr

theorem noNul_f : ∀ b ∈ ([102] : List UInt8), b ≠ 0 := List.forall_mem_singleton.mpr (by decide)

theorem noNul_d : ∀ b ∈ ([100] : List UInt8), b ≠ 0 := List.forall_mem_singleton.mpr (by decide)

def ShortFlag.text : ShortFlag → CStr
  | .foreground => ⟨[102], noNul_f⟩
  | .daemon => ⟨[100], noNul_d⟩

/-- Two dashes. -/
def twoDashes : CStr := dashed ⟨[], noNul_nil⟩

/-- The cursor is on the last letter of an argument, and no two dashes are ahead. -/
structure Stuck (argv : List CStr) (st : GetoptState) : Prop where
  pos : st.optind ≠ 0
  next : ∃ letter, st.next = some letter ∧ letter.bytes.length = 1
  ahead : twoDashes ∉ argv.drop st.optind

theorem masterVals_ne : ∀ o ∈ masterLongOptions, o.val ≠ -1 := by decide

section Stuck

variable {lib : AtoiInt} {argv : List CStr} {after : UInt8} {st : GetoptState} {out : VomMasterArgs}

/-- A call on the NUL returns 0, or reports a missing argument. -/
theorem getoptLetter_value_nul (argv : List CStr) (after : UInt8) (st : GetoptState) {next : CStr}
    (hnul : next.byte 0 = 0) :
    (getoptLetter argv shortOptions.text after next st).1 = 0 ∨
      (getoptLetter argv shortOptions.text after next st).1 = 63 := by
  unfold getoptLetter
  rw [hnul]
  simp only [placeNext, if_true]
  rw [if_neg (by decide)]
  by_cases hafter : after = 58
  · rw [if_pos hafter, if_neg (by decide)]
    cases argv[st.optind]? with
    | some arg => exact Or.inl rfl
    | none => exact Or.inr rfl
  · rw [if_neg hafter]
    exact Or.inl rfl

theorem getopt_stuck (after : UInt8) (h : Stuck argv st) :
    (getopt argv shortOptions.text after st).1 = 0 ∨
      (getopt argv shortOptions.text after st).1 = 63 := by
  obtain ⟨letter, hnext, hlength⟩ := h.next
  have hletter : letter.byte 0 ≠ 0 := by
    intro h
    have hle := (CStr.byte_eq_zero_iff _ _).mp h
    omega
  have hempty : (letter.drop 1).bytes.length = 0 := by
    change (letter.bytes.drop 1).length = 0
    rw [List.length_drop]
    omega
  rw [getopt_at_letter h.pos hnext hletter]
  exact getoptLetter_value_nul _ _ _ ((CStr.byte_eq_zero_iff _ _).mpr hempty.le)

/-- The call of the loop refuses, or goes past long options with the cursor where it is. -/
theorem masterGetopt_stuck (after : UInt8) (h : Stuck argv st) :
    (masterGetopt argv after st).1 = 0 ∨ (masterGetopt argv after st).1 = 63 ∨
      ((masterGetopt argv after st).1 ≠ -1 ∧ Stuck argv (masterGetopt argv after st).2 ∧
        unread argv (masterGetopt argv after st).2 < unread argv st) := by
  by_cases hplain : ∀ arg ∈ argv[st.optind]?, ¬ (arg.byte 0 = 45 ∧ arg.byte 1 = 45)
  · unfold masterGetopt
    rw [getoptLong_plain hplain]
    exact (getopt_stuck after h).imp id Or.inl
  · obtain ⟨arg, harg, hdashes⟩ : ∃ arg, argv[st.optind]? = some arg ∧
        (arg.byte 0 = 45 ∧ arg.byte 1 = 45) := by
      by_contra hnone
      exact hplain fun arg harg hdashes => hnone ⟨arg, harg, hdashes⟩
    have hmem : arg ∈ argv.drop st.optind :=
      List.mem_of_mem_head? (by rw [List.head?_drop]; exact harg)
    have hbody : (arg.drop 2).bytes ≠ [] := by
      intro hnil
      have hempty : arg.drop 2 = ⟨[], noNul_nil⟩ := CStr.ext hnil
      rw [dashed_of_bytes hdashes, hempty] at hmem
      exact h.ahead hmem
    have hcall : masterGetopt argv after st =
        getoptDashes argv masterLongOptions (arg.drop 2) st := by
      rw [dashed_of_bytes hdashes] at harg
      exact getoptLong_dashed harg hbody
    obtain ⟨hnext, n, hind⟩ := getoptDashes_frame argv masterLongOptions (arg.drop 2) st
    rw [hcall]
    rcases getoptDashes_value argv masterLongOptions (arg.drop 2) st with hbad | ⟨o, ho, hval⟩
    · exact Or.inr (Or.inl hbad)
    · refine Or.inr (Or.inr ⟨?_, ⟨by rw [hind]; omega, ?_, ?_⟩, unread_past harg hnext hind⟩)
      · rw [hval]
        exact masterVals_ne o ho
      · rw [hnext]
        exact h.next
      · intro hahead
        rw [hind, Nat.add_assoc, ← List.drop_drop] at hahead
        exact h.ahead (List.mem_of_mem_drop hahead)

/-- The `switch` never ends the function with 0. -/
theorem handleOption_error {opt optopt : Int} {optarg : Option CStr} {outcome : CliOutcome}
    (h : handleOption lib opt optarg optopt out = .error outcome) : outcome.returnsZero = false := by
  unfold handleOption at h
  dsimp only at h
  repeat' split at h
  all_goals first | (rw [← Except.error.inj h]; rfl) | cases h

/-- **From there the function does not return 0.** -/
theorem stuck_not_parsed (after : UInt8) (st : GetoptState) (h : Stuck argv st) (out : VomMasterArgs) :
    (cliLoop lib argv after st h.pos out).returnsZero = false := by
  induction hk : unread argv st using Nat.strong_induction_on generalizing st out with
  | _ k ih =>
    have hcases := masterGetopt_stuck after h
    have hgo : (masterGetopt argv after st).1 ≠ -1 := by
      rcases hcases with hzero | hbad | ⟨hgo, -, -⟩
      · rw [hzero]
        decide
      · rw [hbad]
        decide
      · exact hgo
    rw [cliLoop, dif_neg hgo]
    cases hhandle : handleOption lib (masterGetopt argv after st).1 (masterGetopt argv after st).2.optarg
        (masterGetopt argv after st).2.optopt out with
    | error outcome => exact handleOption_error hhandle
    | ok out₁ =>
      rcases hcases with hzero | hbad | ⟨-, hstuck, hless⟩
      · rw [hzero] at hhandle
        cases hhandle
      · rw [hbad] at hhandle
        cases hhandle
      · exact ih _ (hk ▸ hless) _ hstuck out₁ rfl

end Stuck

/-- A flag that is a letter leaves the cursor on it. -/
theorem masterGetopt_shortFlag {argv rest : List CStr} {st : GetoptState} (after : UInt8)
    (f : ShortFlag) (h : AtArgs argv (dash f.text :: rest) st) :
    ∃ opt, masterGetopt argv after st = (opt, { st with
      initialized := true, optind := st.optind + 1, next := some f.text }) ∧ opt ≠ -1 := by
  have hplain : ∀ arg ∈ some (dash f.text), ¬ (arg.byte 0 = 45 ∧ arg.byte 1 = 45) := by
    intro arg harg
    rw [← Option.some.inj harg]
    cases f <;> decide
  have hhead : argv[({ st with initialized := true } : GetoptState).optind]? = some (dash f.text) :=
    h.head
  rw [masterGetopt_argument after h hplain, getoptArgument_eq hhead]
  cases f with
  | foreground => exact ⟨102, rfl, by decide⟩
  | daemon => exact ⟨100, rfl, by decide⟩

/-- Options alone never end the function with 0. -/
theorem runItems_error {lib : AtoiInt} :
    ∀ {items : List CliItem} {out : VomMasterArgs} {outcome : CliOutcome},
    runItems lib items out = .error outcome → outcome.returnsZero = false
  | [], _, _, h => by cases h
  | item :: items, out, outcome, h => by
      rw [runItems_cons] at h
      cases heffect : item.effect lib out with
      | error outcome₁ =>
        rw [heffect] at h
        rw [← Except.error.inj h]
        exact handleOption_error ((handleOption_item lib item 0 out).trans heffect)
      | ok out₁ =>
        rw [heffect] at h
        exact runItems_error h

/-- **A flag that is a letter is refused.** Behind any options, and whatever arguments follow it as long
    as none of them is `--`, a command line with `-d` or `-f` does not make the function return 0. -/
theorem short_flag_is_refused (lib : AtoiInt) (prog : CStr) (items : List CliItem) (f : ShortFlag)
    (rest : List CStr) (hrest : twoDashes ∉ rest) (after : UInt8) :
    (vomMasterCliParse lib (prog :: (items.flatMap CliItem.args ++ dash f.text :: rest)) after).returnsZero =
      false := by
  unfold vomMasterCliParse
  rcases cliLoop_items after items _ masterArgsDefaults (atArgs_start prog _) with
    ⟨outcome, hrun, hloop⟩ | ⟨out₁, st, hat, -, hloop⟩
  · rw [hloop]
    exact runItems_error hrun
  · obtain ⟨opt, hcall, hopt⟩ := masterGetopt_shortFlag after f hat
    have hstuck : Stuck (prog :: (items.flatMap CliItem.args ++ dash f.text :: rest)) { st with
        initialized := true, optind := st.optind + 1, next := some f.text } := by
      refine ⟨Nat.succ_ne_zero _, ⟨f.text, rfl, by cases f <;> rfl⟩, ?_⟩
      change twoDashes ∉ List.drop (st.optind + 1) _
      rwa [hat.tail]
    rw [hloop, cliLoop_call lib out₁ hcall hopt hat.pos hstuck.pos]
    cases hhandle : handleOption lib opt st.optarg st.optopt out₁ with
    | error outcome => exact handleOption_error hhandle
    | ok out₂ => exact stuck_not_parsed after _ hstuck out₂

theorem nearest_int {n : Int} (hlow : -2147483648 ≤ n) (hhigh : n < 2147483648) :
    (Int32.ofInt (max (-2147483648) (min n 2147483647))).toInt = n := by
  have hnear : max (-2147483648) (min n 2147483647) = n := by omega
  rw [hnear]
  exact Int32.toInt_ofInt_of_le hlow hhigh

/-- A library whose `atoi` gives the nearest `int`. -/
def saturatingAtoi : AtoiInt where
  call s := Int32.ofInt (max (-2147483648) (min (atoi s) 2147483647))
  exact _ := nearest_int

theorem short_flag_is_refused_config :
    (vomMasterCliParse saturatingAtoi [literal "m", dashed (assign (literal "config") (literal "a")),
      dash ShortFlag.daemon.text, literal "b"] 0).returnsZero = false :=
  short_flag_is_refused saturatingAtoi (literal "m") [.attached .config (literal "a")] .daemon [literal "b"]
    (by decide) 0

end VoidOsMerger
