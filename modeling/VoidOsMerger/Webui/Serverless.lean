/-
  File:      VoidOsMerger/Webui/Serverless.lean
  Subject:   THE DASHBOARD'S COMMANDS AS A SERVERLESS FUNCTION (netlify/functions/command.mjs), beside
             the server they are a port of (webui/server.py).

  The function keeps its own list of dummy workers, as long as its instance lives. A request is its
  method and its body, where the body is a JSON text; the command is a field of it.

  `JSON.parse` rounds every number to a double, Python keeps an integer as it is. The commands given to
  both are those whose numbers are doubles (`JsonValue.Doubles`), so that both read the same value.

  * `runCommand` -- what a command does to the list;
  * **`ports_agree_iff`** -- after the same commands both list the same dummy workers, unless a worker
    was added under an empty array or an empty object for a name.
-/
import VoidOsMerger.Webui.Server
import Mathlib.Algebra.Order.Field.Rat
import Mathlib.Algebra.Order.Group.Unbundled.Abs
import Mathlib.Algebra.Order.Ring.Int

namespace VoidOsMerger

/-! ## 1. The function -/

/-- Whether JavaScript takes the value for true: also an empty array and an empty object. -/
def JsonValue.jsTruthy : JsonValue → Bool
  | .null => false
  | .bool b => b
  | .number q => q ≠ 0
  | .string s => s ≠ ""
  | .array _ => true
  | .object _ => true

/-- `n === v` for a number `n`. -/
def JsonValue.jsStrictEq : JsonValue → Nat → Bool
  | .number q, n => q = n
  | _, _ => false

/-- A field of a parsed body; only an object has fields of these names. `none` is `undefined`. -/
def JsonValue.field : JsonValue → String → Option JsonValue
  | .object fields, name => fieldOf fields name
  | _, _ => none

/-- `v || d` -/
def jsOr (v : Option JsonValue) (d : JsonValue) : JsonValue :=
  match v with
  | some v => if v.jsTruthy then v else d
  | none => d

/-- The numbers of JavaScript: a literal in tenths, `+`, and `Math.round(x * 10) / 10`. -/
class JsNumber (F : Type) where
  tenths : Nat → F
  add : F → F → F
  roundTenth : F → F

variable {F : Type}

/-- What `makeDummyWorker` draws: fewer than half of the cores are reserved. -/
structure JsDraw (F : Type) extends DummyDraw F where
  belowHalf : reservedCores < cores / 2

/-- `makeDummyWorker` under the next number. -/
def jsMakeDummyWorker (draw : JsDraw F) (name : Option JsonValue) (nextDummyId : Nat) :
    DummyWorker F where
  id := nextDummyId
  health := "ONLINE"
  lastSeenMs := draw.lastSeenMs
  totalMemoryGb := draw.mem
  reservedMemoryGb := draw.reservedMem
  totalCores := draw.cores
  reservedCores := draw.reservedCores
  name := jsOr name (dummyName nextDummyId)

/-- The variables of the module. -/
structure CommandFunction (F : Type) where
  dummyWorkers : List (DummyWorker F)
  nextDummyId : Nat

def CommandFunction.start : CommandFunction F where
  dummyWorkers := []
  nextDummyId := 100

/-- A request with what handling it draws and reads off the clock. `body` is what `request.json()`
    gives, and an empty object where it throws. -/
structure FunctionRequest (F : Type) where
  method : String
  body : JsonValue
  draw : JsDraw F
  nowMs : Nat
  readTime : F

section

variable [JsNumber F]

/-- `getBaseState` -/
def getBaseState (rq : FunctionRequest F) : ServedState F where
  clusterUuid := "vom-cluster-uuid-4f9e-a1b2-7cc892de410f"
  masterEpoch := rq.nowMs / 1000
  stateGeneration := 1
  globalStatus := "OPERATIONAL"
  workers :=
    [{ id := 42, health := "ONLINE", lastSeenMs := rq.nowMs
       totalMemoryGb := JsNumber.tenths 160, reservedMemoryGb := JsNumber.tenths 40
       totalCores := 8, reservedCores := 2, dummy := some false, name := none },
     { id := 43, health := "ONLINE", lastSeenMs := rq.nowMs - 2000
       totalMemoryGb := JsNumber.tenths 80, reservedMemoryGb := JsNumber.tenths 20
       totalCores := 4, reservedCores := 1, dummy := some false, name := none }]
  totalWorkers := 2
  leases :=
    [{ chunkId := 1001, status := "RUNNING", progress := JsNumber.tenths 675, retryCount := 0 },
     { chunkId := 1002, status := "RUNNING", progress := JsNumber.tenths 332, retryCount := 0 },
     { chunkId := 999, status := "COMPLETED", progress := JsNumber.tenths 1000, retryCount := 0 }]
  totalLeases := 3
  metrics :=
    { aggregateMemoryGb := JsNumber.tenths 240
      allocatedMemoryGb := JsNumber.tenths 60
      aggregateCores := 12
      allocatedCores := 3
      activeWorkers := 2 }
  readTime := rq.readTime
  mock := false

def DummyWorker.jsServed (w : DummyWorker F) : ServedWorker F where
  id := w.id
  health := w.health
  lastSeenMs := w.lastSeenMs
  totalMemoryGb := JsNumber.tenths (10 * w.totalMemoryGb)
  reservedMemoryGb := w.reservedMemoryGb
  totalCores := w.totalCores
  reservedCores := w.reservedCores
  dummy := some true
  name := some w.name

/-- `mergeDummyWorkers` -/
def jsMergeDummyWorkers (dummies : List (DummyWorker F)) (state : ServedState F) : ServedState F :=
  if dummies.isEmpty then state
  else
    let workers := state.workers ++ dummies.map (·.jsServed)
    { state with
      workers := workers
      totalWorkers := workers.length
      metrics :=
        { aggregateMemoryGb := JsNumber.roundTenth
            (workers.foldl (fun sum w => JsNumber.add sum w.totalMemoryGb) (JsNumber.tenths 0))
          allocatedMemoryGb := JsNumber.roundTenth
            (workers.foldl (fun sum w => JsNumber.add sum w.reservedMemoryGb) (JsNumber.tenths 0))
          aggregateCores := (workers.map (·.totalCores)).sum
          allocatedCores := (workers.map (·.reservedCores)).sum
          activeWorkers := workers.countP (·.health = "ONLINE") } }

/-- What the caller gets: a status, and the state of an answer with status 200. A body of `null` has
    no fields to read; the exception ends the call. -/
inductive FunctionReply (F : Type)
  | status (code : Nat)
  | ok (state : ServedState F)
  | exception

/-- The commands that answer with a text and the base state. -/
def jsReports : List String := ["status", "submit", "inspect", "cancel", "drain"]

/-- The `switch` on a command that is a string. -/
def runCommand (s : CommandFunction F) (rq : FunctionRequest F) (command : String) :
    CommandFunction F × FunctionReply F :=
  let merged := fun s : CommandFunction F =>
    (s, FunctionReply.ok (jsMergeDummyWorkers s.dummyWorkers (getBaseState rq)))
  if command = "add-worker" then
    merged
      { nextDummyId := s.nextDummyId + 1
        dummyWorkers := s.dummyWorkers ++
          [jsMakeDummyWorker rq.draw (rq.body.field "name") (s.nextDummyId + 1)] }
  else if command = "random-worker" then
    merged
      { nextDummyId := s.nextDummyId + 1
        dummyWorkers := s.dummyWorkers ++
          [{ jsMakeDummyWorker rq.draw none (s.nextDummyId + 1) with
             health := if rq.draw.draining then "DRAINING" else "ONLINE" }] }
  else if command = "remove-worker" then
    let id := jsOr (rq.body.field "id") (.number 0)
    merged { s with dummyWorkers := s.dummyWorkers.eraseP (id.jsStrictEq ·.id) }
  else if command = "clear-workers" then merged { s with dummyWorkers := [] }
  else if command ∈ jsReports then (s, .ok (getBaseState rq))
  else (s, .status 404)

/-- The function's handler. -/
def commandHandler (s : CommandFunction F) (rq : FunctionRequest F) :
    CommandFunction F × FunctionReply F :=
  if rq.method = "OPTIONS" then (s, .status 204)
  else if rq.method ≠ "POST" then (s, .status 405)
  else
    match rq.body with
    | .null => (s, .exception)
    | body =>
      match body.field "command" with
      | none => (s, .status 400)
      | some command =>
        if ! command.jsTruthy then (s, .status 400)
        else
          match command with
          | .string command => runCommand s rq command
          | _ => (s, .status 404)

/-- The function as a machine. -/
def commandFunction : Machine (CommandFunction F) (FunctionRequest F) (FunctionReply F) where
  step := commandHandler

end

/-! ## 2. The same commands to both -/

/-- A command of the dashboard on the dummy workers, with the fields its body has. -/
inductive DummyCommand
  | addWorker
  | randomWorker
  | removeWorker
  | clearWorkers
  deriving DecidableEq

def DummyCommand.name : DummyCommand → String
  | .addWorker => "add-worker"
  | .randomWorker => "random-worker"
  | .removeWorker => "remove-worker"
  | .clearWorkers => "clear-workers"

/-- The finite doubles: 53 bits and an exponent. -/
def IsDouble (q : ℚ) : Prop :=
  ∃ (m : ℤ) (e : ℤ), |m| < 2 ^ 53 ∧ -1074 ≤ e ∧ e ≤ 971 ∧ q = m * (2 : ℚ) ^ e

/-- Every number in the value is a double: `JSON.parse` and `json.loads` give the same. -/
inductive JsonValue.Doubles : JsonValue → Prop
  | null : Doubles .null
  | bool (b : Bool) : Doubles (.bool b)
  | number {q : ℚ} (hq : IsDouble q) : Doubles (.number q)
  | string (s : String) : Doubles (.string s)
  | array {xs : List JsonValue} (hxs : ∀ x ∈ xs, Doubles x) : Doubles (.array xs)
  | object {fields : List (String × JsonValue)} (hfields : ∀ f ∈ fields, Doubles f.2) :
    Doubles (.object fields)

/-- A command as it is given, with what both ports draw and read. -/
structure GivenCommand (F : Type) where
  command : DummyCommand
  fields : List (String × JsonValue)
  fieldsDoubles : ∀ f ∈ fields, f.2.Doubles
  draw : JsDraw F
  reading : Reading F
  nowMs : Nat
  readTime : F

/-- The command sent to the server: the command is in the path. -/
def GivenCommand.toServer (c : GivenCommand F) : ServerOp F :=
  .request
    { method := "POST"
      path := "/api/command/" ++ c.command.name
      body := .object c.fields
      reading := c.reading
      draw := c.draw.toDummyDraw }

/-- The command sent to the function: the command is a field of the body. -/
def GivenCommand.toFunction (c : GivenCommand F) : FunctionRequest F where
  method := "POST"
  body := .object (c.fields ++ [("command", .string c.command.name)])
  draw := c.draw
  nowMs := c.nowMs
  readTime := c.readTime

/-- The names on which the two languages differ. -/
def JsonValue.EmptyContainer : JsonValue → Prop
  | .array xs => xs = []
  | .object fields => fields = []
  | _ => False

/-- The command adds a worker under such a name. -/
def GivenCommand.NamesEmptyContainer (c : GivenCommand F) : Prop :=
  c.command = .addWorker ∧ ∃ v, fieldOf c.fields "name" = some v ∧ v.EmptyContainer

/-- Both list the same workers and have given out the same numbers. -/
def SameDummies (s : WebServer F) (t : CommandFunction F) : Prop :=
  s.dummyWorkers = t.dummyWorkers ∧ s.dummyIdCounter = t.nextDummyId

/-! ## 3. Where the languages differ -/

theorem pyTruthy_eq_jsTruthy {v : JsonValue} (h : ¬ v.EmptyContainer) : v.pyTruthy = v.jsTruthy := by
  cases v with
  | array xs => cases xs with
    | nil => exact absurd rfl h
    | cons x xs => rfl
  | object fields => cases fields with
    | nil => exact absurd rfl h
    | cons x xs => rfl
  | _ => rfl

/-- The name both give a worker, or the two names they give it. -/
theorem dummyName_agrees_iff (name : Option JsonValue) (wid : Nat) :
    pyDummyName name wid = jsOr name (dummyName wid) ↔ ¬ ∃ v, name = some v ∧ v.EmptyContainer := by
  constructor
  · rintro heq ⟨v, rfl, hv⟩
    -- Python falls back on a string, JavaScript keeps the container
    cases v with
    | array xs =>
      obtain rfl : xs = [] := hv
      cases heq
    | object fields =>
      obtain rfl : fields = [] := hv
      cases heq
    | _ => exact hv
  · intro h
    cases name with
    | none => rfl
    | some v =>
      unfold pyDummyName jsOr
      dsimp only
      rw [pyTruthy_eq_jsTruthy fun hv => h ⟨v, rfl, hv⟩]

/-- The two equalities agree on the numbers that are given out. -/
theorem eq_agrees (v : Option JsonValue) {n : Nat} (hn : 1 < n) :
    (v.getD (.number 0)).pyEqInt n = (jsOr v (.number 0)).jsStrictEq n := by
  have hzero : (JsonValue.number 0).jsStrictEq n = false :=
    decide_eq_false fun h => by
      have : n = 0 := by exact_mod_cast h.symm
      omega
  cases v with
  | none => rfl
  | some v =>
    cases v with
    | number q =>
      by_cases hq : q = 0
      · subst hq
        rfl
      · change decide (q = n) = (if decide (q ≠ 0) = true then JsonValue.number q else _).jsStrictEq n
        rw [if_pos (by simpa using hq)]
        rfl
    | bool b =>
      have hbool : decide (n = b.toNat) = false := decide_eq_false (by have := Bool.toNat_le b; omega)
      cases b with
      | false => exact hbool.trans hzero.symm
      | true => exact hbool
    | string s =>
      change false = (if decide (s ≠ "") = true then JsonValue.string s else .number 0).jsStrictEq n
      split
      · rfl
      · exact hzero.symm
    | null => exact hzero.symm
    | array xs => rfl
    | object fields => rfl

/-! ## 4. One command -/

theorem fieldOf_snoc_self (fields : List (String × JsonValue)) (name : String) (v : JsonValue) :
    fieldOf (fields ++ [(name, v)]) name = some v := by
  simp [fieldOf]

theorem fieldOf_snoc_ne (fields : List (String × JsonValue)) {name other : String} (v : JsonValue)
    (h : other ≠ name) : fieldOf (fields ++ [(name, v)]) other = fieldOf fields other := by
  simp [fieldOf, List.lookup_cons, beq_eq_false_iff_ne.mpr h]

/-- What a command does to the server's directory. -/
theorem toServer_directory (c : GivenCommand F) : c.toServer.directory =
    match c.command with
    | .addWorker => .enter (makeDummyWorker c.draw.toDummyDraw (fieldOf c.fields "name")) fun _ => rfl
    | .randomWorker => .enter (makeRandomWorker c.draw.toDummyDraw) fun _ => rfl
    | .removeWorker => removalOf ((fieldOf c.fields "id").getD (.number 0))
    | .clearWorkers => .clear := by
  obtain ⟨command, fields, hfields, draw, reading, nowMs, readTime⟩ := c
  cases command <;> rfl

theorem commandHandler_command [JsNumber F] (t : CommandFunction F) {rq : FunctionRequest F}
    {command : String} (hmethod : rq.method = "POST")
    (hcommand : rq.body.field "command" = some (.string command)) (hsome : command ≠ "") :
    commandHandler t rq = runCommand t rq command := by
  have htruthy : (JsonValue.string command).jsTruthy = true := decide_eq_true hsome
  unfold commandHandler
  rw [hmethod, if_neg (by decide), if_neg (by decide)]
  cases hbody : rq.body with
  | object fields =>
    rw [hbody] at hcommand
    dsimp only
    rw [hcommand]
    dsimp only
    rw [htruthy]
    rfl
  | _ =>
    rw [hbody] at hcommand
    cases hcommand

/-- What a command does to the function's variables. -/
theorem toFunction_next [JsNumber F] (t : CommandFunction F) (c : GivenCommand F) :
    commandFunction.next t c.toFunction =
      match c.command with
      | .addWorker =>
        { nextDummyId := t.nextDummyId + 1
          dummyWorkers := t.dummyWorkers ++
            [jsMakeDummyWorker c.draw (fieldOf c.fields "name") (t.nextDummyId + 1)] }
      | .randomWorker =>
        { nextDummyId := t.nextDummyId + 1
          dummyWorkers := t.dummyWorkers ++ [makeRandomWorker c.draw.toDummyDraw (t.nextDummyId + 1)] }
      | .removeWorker =>
        { t with
          dummyWorkers := t.dummyWorkers.eraseP
            ((jsOr (fieldOf c.fields "id") (.number 0)).jsStrictEq ·.id) }
      | .clearWorkers => { t with dummyWorkers := [] } := by
  have hrun : commandHandler t c.toFunction = runCommand t c.toFunction c.command.name :=
    commandHandler_command t rfl (fieldOf_snoc_self _ _ _) (by cases c.command <;> decide)
  have hname : c.toFunction.body.field "name" = fieldOf c.fields "name" :=
    fieldOf_snoc_ne _ _ (by decide)
  have hid : c.toFunction.body.field "id" = fieldOf c.fields "id" :=
    fieldOf_snoc_ne _ _ (by decide)
  change (commandHandler t c.toFunction).1 = _
  rw [hrun]
  unfold runCommand
  rw [hname, hid]
  cases c.command <;> rfl

/-! ## 5. All commands -/

theorem eraseP_congr {α : Type} {p q : α → Bool} {l : List α} (h : ∀ a ∈ l, p a = q a) :
    l.eraseP p = l.eraseP q := by
  induction l with
  | nil => rfl
  | cons a l ih =>
    rw [List.eraseP_cons, List.eraseP_cons, h a List.mem_cons_self,
      ih fun b hb => h b (List.mem_cons_of_mem _ hb)]

theorem makers_agree_iff (draw : JsDraw F) (name : Option JsonValue) (wid : Nat) :
    makeDummyWorker draw.toDummyDraw name wid = jsMakeDummyWorker draw name wid ↔
      ¬ ∃ v, name = some v ∧ v.EmptyContainer := by
  rw [← dummyName_agrees_iff name wid]
  constructor
  · exact congrArg DummyWorker.name
  · intro h
    unfold makeDummyWorker jsMakeDummyWorker
    rw [h]

section Agreement

variable [PySum F] [JsNumber F]

/-- **One command**: lists that agree go on agreeing, unless it names a worker by an empty container. -/
theorem command_agrees_iff {s : WebServer F} {t : CommandFunction F}
    {d : Directory (DummyWorker.id (F := F))} (hs : s.Lists d) (h : SameDummies s t)
    (hids : ∀ w ∈ s.dummyWorkers, 1 < w.id) (c : GivenCommand F) :
    SameDummies (webServer.next s c.toServer) (commandFunction.next t c.toFunction) ↔
      ¬ c.NamesEmptyContainer := by
  obtain ⟨hlist, hlast⟩ := lists_step hs c.toServer
  have hdir := toServer_directory c
  have ht := toFunction_next t c
  unfold SameDummies
  rw [hlist, hlast]
  cases hc : c.command with
  | addWorker =>
    rw [hc] at hdir ht
    rw [hdir, ht]
    change d.records ++ [_] = t.dummyWorkers ++ [_] ∧ d.last + 1 = t.nextDummyId + 1 ↔ _
    rw [← h.1, ← h.2, ← hs.1, ← hs.2, List.append_cancel_left_eq, List.cons.injEq, makers_agree_iff]
    simp [GivenCommand.NamesEmptyContainer, hc]
  | randomWorker =>
    rw [hc] at hdir ht
    rw [hdir, ht]
    change d.records ++ [_] = t.dummyWorkers ++ [_] ∧ d.last + 1 = t.nextDummyId + 1 ↔ _
    rw [← h.1, ← h.2, ← hs.1, ← hs.2]
    simp [GivenCommand.NamesEmptyContainer, hc]
  | removeWorker =>
    rw [hc] at hdir ht
    rw [hdir, ht, ← (hs.remove _).1, ← (hs.remove _).2]
    change s.dummyWorkers.eraseP _ = t.dummyWorkers.eraseP _ ∧ s.dummyIdCounter = t.nextDummyId ↔ _
    rw [← h.1, ← h.2, eraseP_congr fun w hw => eq_agrees (fieldOf c.fields "id") (hids w hw)]
    simp [GivenCommand.NamesEmptyContainer, hc]
  | clearWorkers =>
    rw [hc] at hdir ht
    rw [hdir, ht]
    change ([] : List (DummyWorker F)) = [] ∧ d.last = t.nextDummyId ↔ _
    rw [← h.2, ← hs.2]
    simp [GivenCommand.NamesEmptyContainer, hc]

omit [JsNumber F] in
theorem dummy_id_above (ops : List (ServerOp F)) :
    ∀ w ∈ (webServer.run WebServer.start ops).dummyWorkers, 1 < w.id := by
  intro w hw
  rw [(server_directory ops).1, Directory.mem_run_iff] at hw
  obtain ⟨before, make, numbered, after, -, rfl, -⟩ := hw
  rw [numbered]
  omega

/-- Both ports after the same commands. -/
def AgreeAfter (cs : List (GivenCommand F)) : Prop :=
  SameDummies (webServer.run WebServer.start (cs.map (·.toServer)))
    (commandFunction.run CommandFunction.start (cs.map (·.toFunction)))

theorem agreeAfter_snoc_iff {cs : List (GivenCommand F)} (h : AgreeAfter cs) (c : GivenCommand F) :
    AgreeAfter (cs ++ [c]) ↔ ¬ c.NamesEmptyContainer := by
  unfold AgreeAfter
  rw [List.map_append, List.map_append, Machine.run_append, Machine.run_append]
  exact command_agrees_iff (server_directory _) h (dummy_id_above _) c

/-- **The server and the serverless function list the same dummy workers**, under the same numbers,
    after every command of a sequence whose numbers are doubles, exactly when no command adds a worker
    with an empty array or an empty object for its name. -/
theorem ports_agree_iff (cs : List (GivenCommand F)) :
    (∀ before, before <+: cs → AgreeAfter before) ↔ ∀ c ∈ cs, ¬ c.NamesEmptyContainer := by
  induction cs using List.reverseRecOn with
  | nil =>
    refine ⟨fun _ c hc => absurd hc List.not_mem_nil, fun _ before hbefore => ?_⟩
    rw [List.prefix_nil.mp hbefore]
    exact ⟨rfl, rfl⟩
  | append_singleton cs c ih =>
    constructor
    · intro h c' hc'
      have hall : ∀ before, before <+: cs → AgreeAfter before := fun before hbefore =>
        h before (List.prefix_concat_iff.mpr (Or.inr hbefore))
      rcases List.mem_append.mp hc' with hc' | hc'
      · exact ih.mp hall c' hc'
      · rw [List.mem_singleton.mp hc']
        exact (agreeAfter_snoc_iff (hall cs (List.prefix_refl cs)) c).mp (h _ (List.prefix_refl _))
    · intro h before hbefore
      have hall := ih.mpr fun c' hc' => h c' (List.mem_append_left _ hc')
      rcases List.prefix_concat_iff.mp hbefore with rfl | hbefore
      · exact (agreeAfter_snoc_iff (hall cs (List.prefix_refl cs)) c).mpr
          (h c (List.mem_append_right _ (List.mem_singleton_self _)))
      · exact hall before hbefore

end Agreement

end VoidOsMerger
