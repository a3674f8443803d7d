/-
  File:      VoidOsMerger/Webui/Server.lean
  Subject:   THE DASHBOARD'S SERVER OVER A WHOLE RUN (webui/server.py): the dummy workers, the state
             it keeps for `/api/state`, the task that refreshes it, and the routes.

  `state_broadcaster` assigns to `CONNECTED_CLIENTS`, which makes the name local to the function; the
  test of it raises `UnboundLocalError` in the first pass of the loop, after `LatestState` is set. The
  task ends there.

  A request is its method, its path and the JSON value of its body. What a step reads from outside is
  in its `Reading`; random draws are arguments. The texts of `output` and the pages are left out.

  * `server_directory` -- the dummy workers are the records of a numbered directory;
  * **`dummies_read_off_history`** -- who is in the list of dummy workers, and under which number;
  * **`served_state_is_stale`** -- what `/api/state` answers in any run.
-/
import VoidOsMerger.Base.Directory
import VoidOsMerger.Webui.AnyFile

namespace VoidOsMerger

/-! ## 1. Values -/

/-- What `json.loads` makes of a text: an integer of any size and a float as the numbers they are. Of two
    fields with one name the last counts. -/
inductive JsonValue
  | null
  | bool (b : Bool)
  | number (q : Rat)
  | string (s : String)
  | array (xs : List JsonValue)
  | object (fields : List (String × JsonValue))

/-- The value of a field, where the object has it. -/
def fieldOf (fields : List (String × JsonValue)) (name : String) : Option JsonValue :=
  fields.reverse.lookup name

/-- Whether Python takes the value for true. -/
def JsonValue.pyTruthy : JsonValue → Bool
  | .null => false
  | .bool b => b
  | .number q => q ≠ 0
  | .string s => s ≠ ""
  | .array xs => ! xs.isEmpty
  | .object fields => ! fields.isEmpty

/-- `n == v` for an `int` of Python: `True` is 1, `False` is 0. -/
def JsonValue.pyEqInt : JsonValue → Nat → Bool
  | .number q, n => q = n
  | .bool b, n => n = b.toNat
  | _, _ => false

/-- The float arithmetic of `_merge_dummy_workers`: also `sum`. -/
class PySum (F : Type) extends PyNumber F where
  sum : List F → F

instance : PySum PyExpr where
  sum xs := xs.foldl .add (.ofInt 0)

variable {F : Type}

/-! ## 2. The dummy workers -/

/-- What `_make_dummy_worker` and the route draw: cores, memory, what is reserved of each, the time,
    and whether a random worker is draining. -/
structure DummyDraw (F : Type) where
  cores : Nat
  mem : Nat
  reservedCores : Nat
  reservedMem : F
  lastSeenMs : Nat
  draining : Bool
  coresOffered : cores ∈ [2, 4, 8, 16]
  memOffered : mem ∈ [4, 8, 16, 32]
  halfReserved : reservedCores ≤ cores / 2

/-- The dictionary of a dummy worker; its memory is one of the floats 4.0, 8.0, 16.0 and 32.0. -/
structure DummyWorker (F : Type) where
  id : Nat
  health : String
  lastSeenMs : Nat
  totalMemoryGb : Nat
  reservedMemoryGb : F
  totalCores : Nat
  reservedCores : Nat
  name : JsonValue

/-- `f"dummy-{wid}"` -/
def dummyName (wid : Nat) : JsonValue := .string ("dummy-" ++ toString wid)

/-- `name or f"dummy-{wid}"` -/
def pyDummyName (name : Option JsonValue) (wid : Nat) : JsonValue :=
  match name with
  | some v => if v.pyTruthy then v else dummyName wid
  | none => dummyName wid

/-- The dictionary `_make_dummy_worker` returns for this number. -/
def makeDummyWorker (draw : DummyDraw F) (name : Option JsonValue) (wid : Nat) : DummyWorker F where
  id := wid
  health := "ONLINE"
  lastSeenMs := draw.lastSeenMs
  totalMemoryGb := draw.mem
  reservedMemoryGb := draw.reservedMem
  totalCores := draw.cores
  reservedCores := draw.reservedCores
  name := pyDummyName name wid

/-- The worker of `random-worker`: three of four are online. -/
def makeRandomWorker (draw : DummyDraw F) (wid : Nat) : DummyWorker F :=
  { makeDummyWorker draw none wid with health := if draw.draining then "DRAINING" else "ONLINE" }

/-! ## 3. The state that is served -/

/-- An entry of `workers`: one of the file or the mock has no `dummy` and no `name`. -/
structure ServedWorker (F : Type) where
  id : Nat
  health : String
  lastSeenMs : Int
  totalMemoryGb : F
  reservedMemoryGb : F
  totalCores : Nat
  reservedCores : Nat
  dummy : Option Bool
  name : Option JsonValue

structure ServedMetrics (F : Type) where
  aggregateMemoryGb : F
  allocatedMemoryGb : F
  aggregateCores : Nat
  allocatedCores : Nat
  activeWorkers : Nat

structure ServedState (F : Type) where
  clusterUuid : String
  masterEpoch : Nat
  stateGeneration : Nat
  globalStatus : String
  workers : List (ServedWorker F)
  totalWorkers : Int
  leases : List (DashboardLease F)
  totalLeases : Int
  metrics : ServedMetrics F
  readTime : F
  mock : Bool

def DashboardWorker.served (w : DashboardWorker F) : ServedWorker F where
  id := w.id.toNat
  health := w.health
  lastSeenMs := w.lastSeenMs.toNat
  totalMemoryGb := w.totalMemoryGb
  reservedMemoryGb := w.reservedMemoryGb
  totalCores := w.totalCores.toNat
  reservedCores := w.reservedCores.toNat
  dummy := none
  name := none

/-- What `parse_wal` returns, as the dictionary that is served. -/
def DashboardState.served (st : DashboardState F) : ServedState F where
  clusterUuid := st.clusterUuid
  masterEpoch := st.masterEpoch.toNat
  stateGeneration := st.stateGeneration.toNat
  globalStatus := st.globalStatus
  workers := st.workers.map (·.served)
  totalWorkers := st.totalWorkers
  leases := st.leases
  totalLeases := st.totalLeases
  metrics :=
    { aggregateMemoryGb := st.metrics.aggregateMemoryGb
      allocatedMemoryGb := st.metrics.allocatedMemoryGb
      aggregateCores := st.metrics.aggregateCores.toNat
      allocatedCores := st.metrics.allocatedCores.toNat
      activeWorkers := st.metrics.activeWorkers.toNat }
  readTime := st.readTime
  mock := false

/-- What a step reads from outside: the file, and the clock at each call of `time.time`. -/
structure Reading (F : Type) where
  wal : Option (List UInt8)
  readTime : F
  mockEpoch : Nat
  mockSeenMs : Nat
  mockSeenLaterMs : Nat
  mockTime : F

variable [PySum F]

/-- `get_mock_state`; a literal such as 33.2 is the quotient 332 / 10. -/
def getMockState (r : Reading F) : ServedState F where
  clusterUuid := "vom-cluster-uuid-4f9e-a1b2-7cc892de410f"
  masterEpoch := r.mockEpoch
  stateGeneration := 1
  globalStatus := "OPERATIONAL"
  workers :=
    [{ id := 42, health := "ONLINE", lastSeenMs := r.mockSeenMs
       totalMemoryGb := PyNumber.trueDiv 16 1, reservedMemoryGb := PyNumber.trueDiv 4 1
       totalCores := 8, reservedCores := 2, dummy := none, name := none },
     { id := 43, health := "ONLINE", lastSeenMs := r.mockSeenLaterMs - 2000
       totalMemoryGb := PyNumber.trueDiv 8 1, reservedMemoryGb := PyNumber.trueDiv 2 1
       totalCores := 4, reservedCores := 1, dummy := none, name := none }]
  totalWorkers := 2
  leases :=
    [{ chunkId := 1001, status := "RUNNING", progress := PyNumber.trueDiv 675 10, retryCount := 0 },
     { chunkId := 1002, status := "RUNNING", progress := PyNumber.trueDiv 332 10, retryCount := 0 },
     { chunkId := 999, status := "COMPLETED", progress := PyNumber.trueDiv 100 1, retryCount := 0 }]
  totalLeases := 3
  metrics :=
    { aggregateMemoryGb := PyNumber.trueDiv 24 1
      allocatedMemoryGb := PyNumber.trueDiv 6 1
      aggregateCores := 12
      allocatedCores := 3
      activeWorkers := 2 }
  readTime := r.mockTime
  mock := true

/-- `parse_wal`, and the mock where it returns `None`. -/
def currentState (r : Reading F) : Except PyError (ServedState F) :=
  (parseWal r.readTime r.wal).map fun
    | some st => st.served
    | none => getMockState r

def DummyWorker.served (w : DummyWorker F) : ServedWorker F where
  id := w.id
  health := w.health
  lastSeenMs := w.lastSeenMs
  totalMemoryGb := PyNumber.trueDiv w.totalMemoryGb 1
  reservedMemoryGb := w.reservedMemoryGb
  totalCores := w.totalCores
  reservedCores := w.reservedCores
  dummy := some true
  name := some w.name

/-- `_merge_dummy_workers` -/
def mergeDummyWorkers (dummies : List (DummyWorker F)) (state : ServedState F) : ServedState F :=
  if dummies.isEmpty then state
  else
    let workers := state.workers ++ dummies.map (·.served)
    { state with
      workers := workers
      totalWorkers := workers.length
      metrics :=
        { aggregateMemoryGb := PyNumber.round1 (PySum.sum (workers.map (·.totalMemoryGb)))
          allocatedMemoryGb := PyNumber.round1 (PySum.sum (workers.map (·.reservedMemoryGb)))
          aggregateCores := (workers.map (·.totalCores)).sum
          allocatedCores := (workers.map (·.reservedCores)).sum
          activeWorkers := workers.countP (·.health = "ONLINE") } }

/-! ## 4. The server -/

/-- The module's variables, and whether the task of `state_broadcaster` still runs. -/
structure WebServer (F : Type) where
  dummyWorkers : List (DummyWorker F)
  dummyIdCounter : Nat
  latestState : Option (ServedState F)
  broadcasting : Bool

/-- The server when it starts to listen. -/
def WebServer.start : WebServer F where
  dummyWorkers := []
  dummyIdCounter := 100
  latestState := none
  broadcasting := true

/-- A request of the server's HTTP handler, with what handling it reads and draws. -/
structure HttpRequest (F : Type) where
  method : String
  path : String
  body : JsonValue
  reading : Reading F
  draw : DummyDraw F

inductive Route
  | page
  | state
  | report
  | addWorker
  | removeWorker
  | clearWorkers
  | randomWorker
  | notFound
  deriving DecidableEq

/-- The commands that answer with a text and change nothing. -/
def reportPaths : List String :=
  ["/api/command/status", "/api/command/submit", "/api/command/inspect", "/api/command/cancel",
    "/api/command/drain"]

/-- The chain of tests on path and method. -/
def route (method path : String) : Route :=
  if path = "/" ∨ path = "/index.html" then .page
  else if path = "/api/state" then .state
  else if path ∈ reportPaths ∧ method = "POST" then .report
  else if path = "/api/command/add-worker" ∧ method = "POST" then .addWorker
  else if path = "/api/command/remove-worker" ∧ method = "POST" then .removeWorker
  else if path = "/api/command/clear-workers" ∧ method = "POST" then .clearWorkers
  else if path = "/api/command/random-worker" ∧ method = "POST" then .randomWorker
  else .notFound

/-- What the client gets. An exception in the handler leaves it without an answer. -/
inductive Reply (F : Type)
  | page
  | report
  | state (st : ServedState F)
  | added (w : DummyWorker F) (st : ServedState F)
  | removed (w : DummyWorker F)
  | noSuchWorker (wid : JsonValue)
  | cleared (count : Nat) (st : ServedState F)
  | notFound
  | exception
  | nothing

/-- `LatestState["data"] = cur_state` after the file is read and the dummy workers are merged. -/
def WebServer.refresh (s : WebServer F) (r : Reading F) : Except PyError (WebServer F × ServedState F) :=
  (currentState r).map fun st =>
    let merged := mergeDummyWorkers s.dummyWorkers st
    ({ s with latestState := some merged }, merged)

/-- `DummyWorkers.append(w)` for a worker made under the next number. -/
def WebServer.append (s : WebServer F) (make : Nat → DummyWorker F) : WebServer F :=
  { s with
    dummyIdCounter := s.dummyIdCounter + 1
    dummyWorkers := s.dummyWorkers ++ [make (s.dummyIdCounter + 1)] }

/-- Refresh, and answer with what `reply` makes of the state; an exception leaves what was done. -/
def WebServer.refreshed (s : WebServer F) (r : Reading F) (reply : ServedState F → Reply F) :
    WebServer F × Reply F :=
  match s.refresh r with
  | .ok (s', st) => (s', reply st)
  | .error _ => (s, .exception)

/-- `http_handler` after the request is read. -/
def httpHandler (s : WebServer F) (rq : HttpRequest F) : WebServer F × Reply F :=
  match route rq.method rq.path with
  | .page => (s, .page)
  | .report =>
    -- all but `status` take a field of the body
    match rq.body with
    | .object _ => (s, .report)
    | _ => if rq.path = "/api/command/status" then (s, .report) else (s, .exception)
  | .notFound => (s, .notFound)
  | .state =>
    match s.latestState with
    | some st => (s, .state st)
    | none =>
      match currentState rq.reading with
      | .ok st => (s, .state st)
      | .error _ => (s, .exception)
  | .addWorker =>
    match rq.body with
    | .object fields =>
      let make := makeDummyWorker rq.draw (fieldOf fields "name")
      (s.append make).refreshed rq.reading (.added (make (s.dummyIdCounter + 1)))
    | _ => (s, .exception)
  | .removeWorker =>
    match rq.body with
    | .object fields =>
      let wid := (fieldOf fields "id").getD (.number 0)
      match s.dummyWorkers.find? (wid.pyEqInt ·.id) with
      | some w =>
        ({ s with dummyWorkers := s.dummyWorkers.eraseP (wid.pyEqInt ·.id) }, .removed w)
      | none => (s, .noSuchWorker wid)
    | _ => (s, .exception)
  | .clearWorkers =>
    ({ s with dummyWorkers := [] }).refreshed rq.reading (.cleared s.dummyWorkers.length)
  | .randomWorker =>
    let make := makeRandomWorker rq.draw
    (s.append make).refreshed rq.reading (.added (make (s.dummyIdCounter + 1)))

/-- A step of the event loop: the broadcaster has its turn, or a request is handled. -/
inductive ServerOp (F : Type)
  | broadcast (reading : Reading F)
  | request (rq : HttpRequest F)

/-- A turn of `state_broadcaster`: the only pass it ever makes. -/
def broadcasterTurn (s : WebServer F) (r : Reading F) : WebServer F :=
  if s.broadcasting then
    match s.refresh r with
    | .ok (s', _) => { s' with broadcasting := false }
    | .error _ => { s with broadcasting := false }
  else s

/-- The server as a machine. -/
def webServer : Machine (WebServer F) (ServerOp F) (Reply F) where
  step s
    | .broadcast r => (broadcasterTurn s r, .nothing)
    | .request rq => httpHandler s rq

/-! ## 5. Reading never fails -/

theorem currentState_ok (r : Reading F) : ∃ st, currentState r = .ok st := by
  have hread : ∃ st, parseWal r.readTime r.wal = .ok st := by
    unfold parseWal
    cases r.wal with
    | none => exact ⟨_, rfl⟩
    | some data =>
      dsimp only
      split
      · exact ⟨_, rfl⟩
      · rename_i hlen
        obtain ⟨st, hst, -⟩ := parseImage_any data r.readTime (Nat.not_lt.mp hlen)
        exact ⟨_, by rw [hst]; rfl⟩
  obtain ⟨st, hst⟩ := hread
  exact ⟨_, by rw [currentState, hst]; rfl⟩

/-- The state that is served after a refresh. -/
def Merged (dummies : List (DummyWorker F)) (r : Reading F) (st : ServedState F) : Prop :=
  ∃ base, currentState r = .ok base ∧ st = mergeDummyWorkers dummies base

theorem refresh_ok (s : WebServer F) (r : Reading F) :
    ∃ st, Merged s.dummyWorkers r st ∧ s.refresh r = .ok ({ s with latestState := some st }, st) := by
  obtain ⟨base, hbase⟩ := currentState_ok r
  exact ⟨_, ⟨base, hbase, rfl⟩, by rw [WebServer.refresh, hbase]; rfl⟩

theorem refreshed_eq (s : WebServer F) (r : Reading F) (reply : ServedState F → Reply F) :
    ∃ st, Merged s.dummyWorkers r st ∧
      s.refreshed r reply = ({ s with latestState := some st }, reply st) := by
  obtain ⟨st, hst, hrefresh⟩ := refresh_ok s r
  exact ⟨st, hst, by rw [WebServer.refreshed, hrefresh]⟩

/-! ## 6. The dummy workers are a directory -/

/-- The number a JSON value is equal to in Python. -/
def JsonValue.pyIndex : JsonValue → Option Nat
  | .number q => if q = (q.num.toNat : Rat) then some q.num.toNat else none
  | .bool b => some b.toNat
  | _ => none

theorem JsonValue.pyEqInt_iff (v : JsonValue) (n : Nat) : v.pyEqInt n = true ↔ v.pyIndex = some n := by
  cases v with
  | number q =>
    change decide (q = n) = true ↔ (if q = (q.num.toNat : Rat) then some q.num.toNat else none) = some n
    rw [decide_eq_true_iff]
    constructor
    · rintro rfl
      simp
    · intro h
      by_cases hq : q = (q.num.toNat : Rat)
      · rw [if_pos hq, Option.some_inj] at h
        rw [hq, h]
      · rw [if_neg hq] at h
        cases h
  | bool b =>
    change decide (n = b.toNat) = true ↔ some b.toNat = some n
    rw [decide_eq_true_iff, Option.some_inj, eq_comm]
  | null => exact ⟨nofun, nofun⟩
  | string s => exact ⟨nofun, nofun⟩
  | array xs => exact ⟨nofun, nofun⟩
  | object fields => exact ⟨nofun, nofun⟩

/-- What taking out the worker with this id does to the directory. -/
def removalOf (wid : JsonValue) : DirectoryOp (DummyWorker.id (F := F)) :=
  match wid.pyIndex with
  | some n => .leave n
  | none => .keep

/-- What a step does to the directory of dummy workers. -/
def ServerOp.directory : ServerOp F → DirectoryOp (DummyWorker.id (F := F))
  | .broadcast _ => .keep
  | .request rq =>
    match route rq.method rq.path, rq.body with
    | .addWorker, .object fields =>
      .enter (makeDummyWorker rq.draw (fieldOf fields "name")) fun _ => rfl
    | .randomWorker, _ => .enter (makeRandomWorker rq.draw) fun _ => rfl
    | .removeWorker, .object fields => removalOf ((fieldOf fields "id").getD (.number 0))
    | .clearWorkers, _ => .clear
    | _, _ => .keep

/-- The request makes the server read the file anew. -/
def ServerOp.rereads : ServerOp F → Option (Reading F)
  | .broadcast _ => none
  | .request rq =>
    match route rq.method rq.path, rq.body with
    | .addWorker, .object _ => some rq.reading
    | .randomWorker, _ => some rq.reading
    | .clearWorkers, _ => some rq.reading
    | _, _ => none

/-- **What a request does**: nothing, take a worker out of the list, add one and refresh what is served,
    or clear the list and refresh. -/
inductive RequestStep (s : WebServer F) (rq : HttpRequest F) : WebServer F → Prop
  | kept (hdir : (ServerOp.request rq).directory = .keep)
      (hread : (ServerOp.request rq).rereads = none) : RequestStep s rq s
  | removed (wid : JsonValue) (hdir : (ServerOp.request rq).directory = removalOf wid)
      (hread : (ServerOp.request rq).rereads = none) :
      RequestStep s rq { s with dummyWorkers := s.dummyWorkers.eraseP (wid.pyEqInt ·.id) }
  | added (make : Nat → DummyWorker F) (numbered : ∀ n, (make n).id = n) (st : ServedState F)
      (hdir : (ServerOp.request rq).directory = .enter make numbered)
      (hread : (ServerOp.request rq).rereads = some rq.reading)
      (hst : Merged (s.append make).dummyWorkers rq.reading st) :
      RequestStep s rq { s.append make with latestState := some st }
  | cleared (st : ServedState F) (hdir : (ServerOp.request rq).directory = .clear)
      (hread : (ServerOp.request rq).rereads = some rq.reading) (hst : Merged [] rq.reading st) :
      RequestStep s rq { s with dummyWorkers := [], latestState := some st }

theorem requestStep (s : WebServer F) (rq : HttpRequest F) : RequestStep s rq (httpHandler s rq).1 := by
  unfold httpHandler
  cases hroute : route rq.method rq.path with
  | page => exact .kept (by simp only [ServerOp.directory, hroute]) (by simp only [ServerOp.rereads, hroute])
  | notFound =>
    exact .kept (by simp only [ServerOp.directory, hroute]) (by simp only [ServerOp.rereads, hroute])
  | report =>
    have hkept : RequestStep s rq s :=
      .kept (by simp only [ServerOp.directory, hroute]) (by simp only [ServerOp.rereads, hroute])
    dsimp only
    split
    · exact hkept
    · split <;> exact hkept
  | state =>
    have hkept : RequestStep s rq s :=
      .kept (by simp only [ServerOp.directory, hroute]) (by simp only [ServerOp.rereads, hroute])
    dsimp only
    split
    · exact hkept
    · split <;> exact hkept
  | addWorker =>
    dsimp only
    cases hbody : rq.body with
    | object fields =>
      dsimp only
      obtain ⟨st, hst, heq⟩ := refreshed_eq
        (s.append (makeDummyWorker rq.draw (fieldOf fields "name"))) rq.reading
        (.added (makeDummyWorker rq.draw (fieldOf fields "name") (s.dummyIdCounter + 1)))
      rw [heq]
      exact .added _ (fun _ => rfl) st (by simp only [ServerOp.directory, hroute, hbody])
        (by simp only [ServerOp.rereads, hroute, hbody]) hst
    | _ =>
      exact .kept (by simp only [ServerOp.directory, hroute, hbody])
        (by simp only [ServerOp.rereads, hroute, hbody])
  | removeWorker =>
    dsimp only
    cases hbody : rq.body with
    | object fields =>
      have hremoved : RequestStep s rq _ := .removed ((fieldOf fields "id").getD (.number 0))
        (by simp only [ServerOp.directory, hroute, hbody]) (by simp only [ServerOp.rereads, hroute])
      dsimp only
      split
      · exact hremoved
      · rename_i hfind
        rwa [List.eraseP_of_forall_not (List.find?_eq_none.mp hfind)] at hremoved
    | _ =>
      exact .kept (by simp only [ServerOp.directory, hroute, hbody])
        (by simp only [ServerOp.rereads, hroute])
  | clearWorkers =>
    dsimp only
    obtain ⟨st, hst, heq⟩ := refreshed_eq ({ s with dummyWorkers := [] } : WebServer F) rq.reading
      (.cleared s.dummyWorkers.length)
    rw [heq]
    exact .cleared st (by simp only [ServerOp.directory, hroute])
      (by simp only [ServerOp.rereads, hroute]) hst
  | randomWorker =>
    dsimp only
    obtain ⟨st, hst, heq⟩ := refreshed_eq (s.append (makeRandomWorker rq.draw)) rq.reading
      (.added (makeRandomWorker rq.draw (s.dummyIdCounter + 1)))
    rw [heq]
    exact .added _ (fun _ => rfl) st (by simp only [ServerOp.directory, hroute])
      (by simp only [ServerOp.rereads, hroute]) hst

/-- The server's list and counter are this directory's. -/
def WebServer.Lists (s : WebServer F) (d : Directory (DummyWorker.id (F := F))) : Prop :=
  s.dummyWorkers = d.records ∧ s.dummyIdCounter = d.last

omit [PySum F] in
theorem WebServer.Lists.enter {s : WebServer F} {d : Directory (DummyWorker.id (F := F))} (h : s.Lists d)
    (make : Nat → DummyWorker F) (numbered : ∀ n, (make n).id = n) :
    (s.append make).Lists (d.step (.enter make numbered)) := by
  refine ⟨?_, congrArg (· + 1) h.2⟩
  change s.dummyWorkers ++ [make (s.dummyIdCounter + 1)] = d.records ++ [make (d.last + 1)]
  rw [h.1, h.2]

omit [PySum F] in
theorem WebServer.Lists.remove {s : WebServer F} {d : Directory (DummyWorker.id (F := F))} (h : s.Lists d)
    (wid : JsonValue) :
    ({ s with dummyWorkers := s.dummyWorkers.eraseP (wid.pyEqInt ·.id) } : WebServer F).Lists
      (d.step (removalOf wid)) := by
  unfold removalOf
  cases hwid : wid.pyIndex with
  | some n =>
    have heq : (fun w : DummyWorker F => wid.pyEqInt w.id) = fun w => decide (w.id = n) := by
      funext w
      rw [Bool.eq_iff_iff, wid.pyEqInt_iff, hwid, Option.some_inj, decide_eq_true_iff, eq_comm]
    refine ⟨?_, h.2⟩
    change s.dummyWorkers.eraseP (fun w => wid.pyEqInt w.id) = d.records.eraseP _
    rw [heq, h.1]
  | none =>
    have hnone : ∀ w ∈ s.dummyWorkers, ¬ wid.pyEqInt w.id = true := fun w _ hw => by
      rw [wid.pyEqInt_iff, hwid] at hw
      cases hw
    exact ⟨(List.eraseP_of_forall_not hnone).trans h.1, h.2⟩

theorem lists_step {s : WebServer F} {d : Directory (DummyWorker.id (F := F))} (h : s.Lists d)
    (o : ServerOp F) : (webServer.next s o).Lists (d.step o.directory) := by
  cases o with
  | broadcast r =>
    change (broadcasterTurn s r).Lists d
    unfold broadcasterTurn
    obtain ⟨st, -, heq⟩ := refresh_ok s r
    rw [heq]
    split <;> exact h
  | request rq =>
    change (httpHandler s rq).1.Lists _
    have hstep := requestStep s rq
    generalize (httpHandler s rq).1 = s' at hstep ⊢
    cases hstep with
    | kept hdir => exact hdir ▸ h
    | removed wid hdir => exact hdir ▸ h.remove wid
    | added make numbered st hdir => exact hdir ▸ h.enter make numbered
    | cleared st hdir => exact hdir ▸ ⟨rfl, h.2⟩

/-- **The dummy workers are the records of a numbered directory.** -/
theorem server_directory (ops : List (ServerOp F)) :
    (webServer.run WebServer.start ops).Lists
      ((Directory.machine _).run (Directory.empty 100) (ops.map (·.directory))) := by
  induction ops using List.reverseRecOn with
  | nil => exact ⟨rfl, rfl⟩
  | append_singleton ops o ih =>
    rw [Machine.run_append, List.map_append, List.map_singleton, Directory.run_snoc]
    exact lists_step ih o

/-- The step adds a dummy worker. -/
def ServerOp.adds (o : ServerOp F) : Bool := o.directory.enters

/-- **Who is in the list of dummy workers**: those that were added, each under the number that was next
    then, and that no request has taken out since. The numbers rise along the list, and none is used
    twice. -/
theorem dummies_read_off_history (ops : List (ServerOp F)) :
    ((webServer.run WebServer.start ops).dummyWorkers.map (·.id)).Pairwise (· < ·) ∧
    (webServer.run WebServer.start ops).dummyIdCounter = 100 + ops.countP (·.adds) ∧
    ∀ w, w ∈ (webServer.run WebServer.start ops).dummyWorkers ↔
      ∃ before o make numbered after, ops = before ++ o :: after ∧
        o.directory = .enter make numbered ∧ w = make (101 + before.countP (·.adds)) ∧
        ∀ o' ∈ after, ¬ o'.directory.Removes w.id := by
  obtain ⟨hrecords, hlast⟩ := server_directory ops
  have hcount : ∀ l : List (ServerOp F),
      (l.map (·.directory)).countP (·.enters) = l.countP (·.adds) := fun l => List.countP_map
  refine ⟨?_, ?_, fun w => ?_⟩
  · rw [hrecords]
    exact List.pairwise_map.mpr (Directory.ordered _)
  · rw [hlast, Directory.last_run, hcount]
  · rw [hrecords, Directory.mem_run_iff]
    constructor
    · rintro ⟨before, make, numbered, after, hsplit, hw, hkept⟩
      obtain ⟨before, rest, rfl, rfl, hrest⟩ := List.map_eq_append_iff.mp hsplit
      obtain ⟨o, after, rfl, ho, rfl⟩ := List.map_eq_cons_iff.mp hrest
      refine ⟨before, o, make, numbered, after, rfl, ho, ?_, fun o' ho' =>
        hkept _ (List.mem_map_of_mem ho')⟩
      rw [hw, hcount, Nat.add_right_comm]
    · rintro ⟨before, o, make, numbered, after, rfl, ho, hw, hkept⟩
      refine ⟨before.map (·.directory), make, numbered, after.map (·.directory), ?_, ?_, ?_⟩
      · rw [List.map_append, List.map_cons, ho]
      · rw [hw, hcount, Nat.add_right_comm]
      · intro o' ho'
        obtain ⟨x, hx, rfl⟩ := List.mem_map.mp ho'
        exact hkept x hx

/-! ## 7. What is served -/

/-- The step is a turn of the broadcaster. -/
def ServerOp.isBroadcast : ServerOp F → Bool
  | .broadcast _ => true
  | .request _ => false

/-- The step refreshes what is served, from this reading: a request that adds or clears, or the first
    turn of the broadcaster. -/
def Refreshes (before : List (ServerOp F)) (o : ServerOp F) (r : Reading F) : Prop :=
  o.rereads = some r ∨ (o = .broadcast r ∧ ∀ o' ∈ before, ¬ o'.isBroadcast)

/-- The run has refreshed what is served from a reading, and `st` is what that gave. -/
def Shows (ops : List (ServerOp F)) (st : ServedState F) : Prop :=
  ∃ before o after r, ops = before ++ o :: after ∧ Refreshes before o r ∧
    (∀ between o' rest, after = between ++ o' :: rest →
      ∀ r', ¬ Refreshes (before ++ o :: between) o' r') ∧
    Merged (webServer.run WebServer.start (before ++ [o])).dummyWorkers r st

theorem Shows.snoc {ops : List (ServerOp F)} {st : ServedState F} (h : Shows ops st) {o : ServerOp F}
    (ho : ∀ r, ¬ Refreshes ops o r) : Shows (ops ++ [o]) st := by
  obtain ⟨before, x, after, r, rfl, hx, hquiet, hst⟩ := h
  refine ⟨before, x, after ++ [o], r, by simp, hx, fun between o' rest hsplit => ?_, hst⟩
  rcases List.eq_nil_or_concat' rest with rfl | ⟨rest, y, rfl⟩
  · obtain ⟨rfl, hlast⟩ := List.append_inj' hsplit rfl
    obtain rfl := (List.cons.inj hlast).1
    exact ho
  · rw [← List.cons_append, ← List.append_assoc] at hsplit
    exact hquiet between o' rest (List.append_inj' hsplit rfl).1

theorem shows_now {ops : List (ServerOp F)} {o : ServerOp F} {r : Reading F} {st : ServedState F}
    (h : Refreshes ops o r)
    (hst : Merged (webServer.run WebServer.start (ops ++ [o])).dummyWorkers r st) :
    Shows (ops ++ [o]) st :=
  ⟨ops, o, [], r, rfl, h, fun between o' rest hsplit => by simp at hsplit, hst⟩

/-- What a run keeps: the broadcaster runs until its first turn, and what is served was read by the
    last step that refreshes. -/
structure ServedInv (ops : List (ServerOp F)) (s : WebServer F) : Prop where
  broadcasting : s.broadcasting = true ↔ ∀ o ∈ ops, ¬ o.isBroadcast
  shows : ∀ st, s.latestState = some st → Shows ops st
  turned : s.broadcasting = false → s.latestState ≠ none

theorem broadcasterTurn_cases (s : WebServer F) (r : Reading F) :
    (s.broadcasting = true ∧ ∃ st, Merged s.dummyWorkers r st ∧
      broadcasterTurn s r = { s with latestState := some st, broadcasting := false }) ∨
    (s.broadcasting = false ∧ broadcasterTurn s r = s) := by
  unfold broadcasterTurn
  cases hs : s.broadcasting with
  | false => exact Or.inr ⟨rfl, rfl⟩
  | true =>
    obtain ⟨st, hst, heq⟩ := refresh_ok s r
    exact Or.inl ⟨rfl, st, hst, by rw [heq]; rfl⟩

omit [PySum F] in
theorem no_broadcast_snoc (ops : List (ServerOp F)) (rq : HttpRequest F) :
    (∀ o ∈ ops ++ [.request rq], ¬ o.isBroadcast) ↔ ∀ o ∈ ops, ¬ o.isBroadcast := by
  simp [or_imp, forall_and, ServerOp.isBroadcast]

omit [PySum F] in
theorem request_refreshes_iff {ops : List (ServerOp F)} {rq : HttpRequest F} {r : Reading F} :
    Refreshes ops (.request rq) r ↔ (ServerOp.request rq).rereads = some r :=
  ⟨fun h => h.resolve_right nofun, Or.inl⟩

theorem servedInv_request {ops : List (ServerOp F)} (rq : HttpRequest F)
    (h : ServedInv ops (webServer.run WebServer.start ops)) :
    ServedInv (ops ++ [.request rq]) (webServer.run WebServer.start (ops ++ [.request rq])) := by
  have hrun := webServer.run_append WebServer.start ops [.request rq]
  have hnow : ∀ st, (ServerOp.request rq).rereads = some rq.reading →
      Merged (webServer.run WebServer.start (ops ++ [.request rq])).dummyWorkers rq.reading st →
      Shows (ops ++ [.request rq]) st := fun st hread hst => shows_now (Or.inl hread) hst
  have hkept : (ServerOp.request rq).rereads = none → ∀ st, Shows ops st →
      Shows (ops ++ [.request rq]) st := fun hread st hst =>
    hst.snoc fun r hr => by
      rw [request_refreshes_iff, hread] at hr
      cases hr
  rw [hrun] at hnow ⊢
  change ServedInv _ (httpHandler (webServer.run WebServer.start ops) rq).1
  change ∀ st, _ → Merged (httpHandler (webServer.run WebServer.start ops) rq).1.dummyWorkers _ _ → _
    at hnow
  revert hnow
  have hstep := requestStep (webServer.run WebServer.start ops) rq
  generalize (httpHandler (webServer.run WebServer.start ops) rq).1 = s' at hstep ⊢
  intro hnow
  cases hstep with
  | kept hdir hread =>
    exact ⟨h.broadcasting.trans (no_broadcast_snoc ops rq).symm,
      fun st hst => hkept hread st (h.shows st hst), h.turned⟩
  | removed wid hdir hread =>
    exact ⟨h.broadcasting.trans (no_broadcast_snoc ops rq).symm,
      fun st hst => hkept hread st (h.shows st hst), h.turned⟩
  | added make numbered st hdir hread hst =>
    exact ⟨h.broadcasting.trans (no_broadcast_snoc ops rq).symm,
      fun st' hst' => Option.some_inj.mp hst' ▸ hnow st hread hst, fun _ => nofun⟩
  | cleared st hdir hread hst =>
    exact ⟨h.broadcasting.trans (no_broadcast_snoc ops rq).symm,
      fun st' hst' => Option.some_inj.mp hst' ▸ hnow st hread hst, fun _ => nofun⟩

theorem servedInv_broadcast {ops : List (ServerOp F)} (r : Reading F)
    (h : ServedInv ops (webServer.run WebServer.start ops)) :
    ServedInv (ops ++ [.broadcast r]) (webServer.run WebServer.start (ops ++ [.broadcast r])) := by
  have hturn : ¬ ∀ o ∈ ops ++ [ServerOp.broadcast r], ¬ o.isBroadcast := fun hall =>
    hall _ (List.mem_append_right _ (List.mem_singleton_self _)) rfl
  have hrun := webServer.run_append WebServer.start ops [.broadcast r]
  change _ = broadcasterTurn (webServer.run WebServer.start ops) r at hrun
  rcases broadcasterTurn_cases (webServer.run WebServer.start ops) r with
    ⟨hon, st, hst, heq⟩ | ⟨hoff, heq⟩
  · rw [heq] at hrun
    have hshows : Shows (ops ++ [.broadcast r]) st :=
      shows_now (Or.inr ⟨rfl, h.broadcasting.mp hon⟩) (by rw [hrun]; exact hst)
    rw [hrun]
    exact ⟨⟨nofun, fun hall => absurd hall hturn⟩,
      fun st' hst' => Option.some_inj.mp hst' ▸ hshows, fun _ => nofun⟩
  · rw [hrun, heq]
    refine ⟨⟨fun hon => absurd hon (by rw [hoff]; nofun), fun hall => absurd hall hturn⟩,
      fun st hst => (h.shows st hst).snoc fun r' hr' => ?_, h.turned⟩
    -- a later turn finds the task ended
    rcases hr' with hread | ⟨-, hnone⟩
    · cases hread
    · rw [h.broadcasting.mpr hnone] at hoff
      cases hoff

theorem servedInv_run (ops : List (ServerOp F)) :
    ServedInv ops (webServer.run WebServer.start ops) := by
  induction ops using List.reverseRecOn with
  | nil => exact ⟨⟨fun _ _ h => absurd h List.not_mem_nil, fun _ => rfl⟩, nofun, nofun⟩
  | append_singleton ops o ih =>
    cases o with
    | broadcast r => exact servedInv_broadcast r ih
    | request rq => exact servedInv_request rq ih

/-- **What `/api/state` answers is as old as the last request that added or cleared dummy workers**:
    once the broadcaster has had its first turn, every answer is the state read at that turn or at the
    last such request since, with the dummy workers there were then. The file is not read again. -/
theorem served_state_is_stale (ops : List (ServerOp F)) (hturn : ∃ r, .broadcast r ∈ ops)
    (rq : HttpRequest F) (hroute : route rq.method rq.path = .state) :
    ∃ before o after r st, ops = before ++ o :: after ∧ Refreshes before o r ∧
      (∀ between o' rest, after = between ++ o' :: rest →
        ∀ r', ¬ Refreshes (before ++ o :: between) o' r') ∧
      Merged (webServer.run WebServer.start (before ++ [o])).dummyWorkers r st ∧
      webServer.answer (webServer.run WebServer.start ops) (.request rq) = .state st := by
  have hinv := servedInv_run ops
  obtain ⟨r, hr⟩ := hturn
  have hoff : (webServer.run WebServer.start ops).broadcasting = false :=
    Bool.eq_false_iff.mpr fun hon => hinv.broadcasting.mp hon _ hr rfl
  obtain ⟨st, hst⟩ := Option.ne_none_iff_exists'.mp (hinv.turned hoff)
  obtain ⟨before, o, after, r', hsplit, hrefreshes, hquiet, hmerged⟩ := hinv.shows st hst
  refine ⟨before, o, after, r', st, hsplit, hrefreshes, hquiet, hmerged, ?_⟩
  change (httpHandler _ rq).2 = _
  unfold httpHandler
  rw [hroute]
  dsimp only
  rw [hst]

/-- No file, at the beginning of time. -/
def noFile : Reading PyExpr where
  wal := none
  readTime := .ofInt 0
  mockEpoch := 0
  mockSeenMs := 0
  mockSeenLaterMs := 2000
  mockTime := .ofInt 0

/-- The smallest worker there is. -/
def smallestDraw : DummyDraw PyExpr where
  cores := 2
  mem := 4
  reservedCores := 0
  reservedMem := .ofInt 0
  lastSeenMs := 0
  draining := false
  coresOffered := by decide
  memOffered := by decide
  halfReserved := by decide

/-- A request that finds no file. -/
def plainRequest (method path : String) (body : JsonValue) : HttpRequest PyExpr where
  method := method
  path := path
  body := body
  reading := noFile
  draw := smallestDraw

theorem served_state_is_stale_firstTurn :
    route "GET" "/api/state" = .state ∧ ∃ st, Merged [] noFile st ∧
      webServer.answer (webServer.run WebServer.start [.broadcast noFile])
        (.request (plainRequest "GET" "/api/state" .null)) = .state st := by
  have hroute : route "GET" "/api/state" = .state := by decide
  obtain ⟨before, o, after, r, st, hsplit, hrefreshes, -, hmerged, hanswer⟩ :=
    served_state_is_stale [.broadcast noFile] ⟨noFile, List.mem_singleton_self _⟩
      (plainRequest "GET" "/api/state" .null) hroute
  obtain ⟨rfl, ho⟩ : before = [] ∧ .broadcast noFile = o := by
    cases before with
    | nil => exact ⟨rfl, (List.cons.inj hsplit).1⟩
    | cons x xs => simp at hsplit
  subst ho
  obtain rfl : noFile = r := hrefreshes.elim nofun fun h => ServerOp.broadcast.inj h.1
  exact ⟨hroute, st, hmerged, hanswer⟩

end VoidOsMerger
