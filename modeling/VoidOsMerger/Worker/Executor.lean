/-
  File:      VoidOsMerger/Worker/Executor.lean
  Subject:   THE CHUNK EXECUTOR (worker/src/executor.c).

  Any number of threads call `vom_executor_run`. A call is a state machine: it is cut where the mutex
  of the reservations is taken and where the operating system answers, so that a run of
  `executorMachine` is any interleaving of any calls. What the system calls answer is part of the
  step (`ExecEnv`). The child process after `fork` is not part of the executor's state.
-/
import VoidOsMerger.Base.CText
import VoidOsMerger.Base.Run

namespace VoidOsMerger

/-! ## 1. Assignments and statuses -/

/-- `host_caps`: what the executor fills and reads of `vom_worker_capabilities`. -/
structure HostCaps where
  coresOnline : UInt32
  ramTotalMb : UInt64
  deriving DecidableEq, Repr

/-- `vom_sys_info_collect` of executor.c -/
def vomSysInfoCollect : HostCaps where
  coresOnline := 8
  ramTotalMb := 16384

/-- `ram_total_mb * 1024 * 1024` -/
def HostCaps.memoryBytes (host : HostCaps) : UInt64 :=
  host.ramTotalMb * 1024 * 1024

/-- What the executor reads of a `ChunkAssignment`. -/
structure ChunkAssignment where
  chunkId : UInt64
  runtimeType : NulBuf 16
  binaryPath : NulBuf 256
  requiredCores : UInt32
  requiredMemoryBytes : UInt64
  timeoutSeconds : UInt32
  deriving DecidableEq

inductive ExecState
  | idle | accepted | started | progress | completed | failed | cancelled
  deriving DecidableEq, Repr

/-- `ChunkExecStatus`. The percentages are multiples of ten, which a `float` holds exactly. -/
structure ChunkExecStatus where
  chunkId : UInt64
  state : ExecState
  progressPercentage : Nat
  exitCode : UInt32
  resultSha256 : String
  errorMessage : String
  deriving DecidableEq, Repr

/-- `ChunkExecStatus status = {0}` with the chunk's number. -/
def ChunkExecStatus.zero (chunkId : UInt64) : ChunkExecStatus := ⟨chunkId, .idle, 0, 0, "", ""⟩

/-! ## 2. Validation, reservation, hash -/

/-- `"posix_subproc"` -/
def posixSubproc : CStr :=
  CStr.upTo [112, 111, 115, 105, 120, 95, 115, 117, 98, 112, 114, 111, 99]

/-- `vom_executor_validate`; `access` answers whether a path is executable. -/
def vomExecutorValidate (access : CStr → Bool) (a : ChunkAssignment) (host : HostCaps) :
    Bool :=
  if strcmp a.runtimeType.str posixSubproc ≠ 0 then false
  else if host.coresOnline < a.requiredCores then false
  else if host.memoryBytes < a.requiredMemoryBytes then false
  else access a.binaryPath.str

/-- `g_reserved_cores` and `g_reserved_memory_bytes` -/
structure Reserved where
  cores : UInt32
  memoryBytes : UInt64
  deriving DecidableEq, Repr

/-- `reserve_local_resources` -/
def reserveLocalResources (a : ChunkAssignment) (host : HostCaps) (g : Reserved) :
    Bool × Reserved :=
  if host.coresOnline < g.cores + a.requiredCores ∨
      host.memoryBytes < g.memoryBytes + a.requiredMemoryBytes then (false, g)
  else (true,
    { cores := g.cores + a.requiredCores
      memoryBytes := g.memoryBytes + a.requiredMemoryBytes })

/-- `release_local_resources` -/
def releaseLocalResources (a : ChunkAssignment) (g : Reserved) : Reserved where
  cores := if a.requiredCores ≤ g.cores then g.cores - a.requiredCores else g.cores
  memoryBytes :=
    if a.requiredMemoryBytes ≤ g.memoryBytes then g.memoryBytes - a.requiredMemoryBytes
    else g.memoryBytes

/-- `%016llx` -/
def hex16 (n : UInt64) : String :=
  String.ofList ((List.range 16).reverse.map fun i => Nat.digitChar (n.toNat / 16 ^ i % 16))

/-- `compute_deterministic_integrity`; `none` is a file that does not open. -/
def computeDeterministicIntegrity (content : Option (List UInt8)) : String :=
  let h := (content.getD []).foldl
    (fun (h : UInt64 × UInt64) ch =>
      ((h.1 ^^^ ch.toUInt64) * 0x100000001b3, (h.2 ^^^ ch.toUInt64) * 0xcbf29ce484222325))
    (0xcbf29ce484222325, 0x517cc1b727220a95)
  hex16 h.1 ++ hex16 h.2 ++ hex16 (h.1 ^^^ h.2) ++ hex16 (h.1 + h.2)

/-! ## 3. One call -/

/-- What `waitpid(pid, .., WNOHANG)` answers. -/
inductive WaitOutcome
  | running
  | exited (code : UInt8)
  | killed
  | failed (echild : Bool)
  deriving DecidableEq, Repr

/-- What an iteration of the polling loop sees. -/
structure PollInput where
  nowSec : Int
  cancel : Bool
  bytesRead : Int
  wait : WaitOutcome
  deriving DecidableEq, Repr

/-- What the surroundings answer in one step of a call. -/
structure ExecEnv where
  access : CStr → Bool
  pipeOk : Bool
  forkOk : Bool
  startSec : Int
  poll : PollInput

/-- What follows a release. -/
inductive ExecExit
  | pipeFailed | forkFailed | finished
  deriving DecidableEq, Repr

/-- Where a call is: about to do this, or back with a result. -/
inductive ExecPhase
  | validating
  | reserving
  | piping
  | forking
  | polling (startSec : Int)
  | releasing (after : ExecExit)
  | returned (result : Bool)
  deriving DecidableEq, Repr

/-- A call of `vom_executor_run`, with the statuses it has passed to its callback. -/
structure ExecCall where
  assignment : ChunkAssignment
  hasCallback : Bool
  status : ChunkExecStatus
  phase : ExecPhase
  reports : List ChunkExecStatus
  deriving DecidableEq

/-- The call when it is entered. -/
def ExecCall.enter (a : ChunkAssignment) (hasCallback : Bool) : ExecCall :=
  ⟨a, hasCallback, .zero a.chunkId, .validating, []⟩

/-- `if (cb) cb(&status, user_data)` -/
def ExecCall.report (c : ExecCall) : ExecCall :=
  { c with reports := c.reports ++ if c.hasCallback then [c.status] else [] }

/-- A failure with its text. -/
def ChunkExecStatus.fail (s : ChunkExecStatus) (message : String) : ChunkExecStatus :=
  { s with state := .failed, errorMessage := message }

/-- The output of the child, read into `stream_buffer`: progress up to 90 percent. -/
def ChunkExecStatus.advance (s : ChunkExecStatus) : ChunkExecStatus :=
  { s with progressPercentage :=
      if s.progressPercentage < 90 then s.progressPercentage + 10 else s.progressPercentage }

/-- What `waitpid` makes of the status; `true` while the loop goes on. -/
def ChunkExecStatus.reap (s : ChunkExecStatus) : WaitOutcome → ChunkExecStatus × Bool
  | .running => (s, true)
  | .exited code =>
    let s : ChunkExecStatus := { s with exitCode := code.toUInt32 }
    if s.exitCode = 0 then ({ s with state := .completed, progressPercentage := 100 }, false)
    else (s.fail ("Runtime error code: " ++ toString s.exitCode), false)
  | .killed => (s.fail "Sub-process terminated abnormally", false)
  | .failed echild => if echild then (s, true) else ({ s with state := .failed }, false)

/-- The end of the loop: the hash of an empty file for a completed chunk, and the last report. -/
def ExecCall.conclude (c : ExecCall) (status : ChunkExecStatus) : ExecCall :=
  let status := if status.state = .completed then
    { status with resultSha256 := computeDeterministicIntegrity (some []) } else status
  { ExecCall.report { c with status := status } with phase := .releasing .finished }

/-- One iteration of the polling loop. -/
def ExecCall.poll (c : ExecCall) (startSec : Int) (input : PollInput) : ExecCall :=
  let elapsedSeconds := uint32OfInt (input.nowSec - startSec)
  if input.cancel then c.conclude { c.status with state := .cancelled }
  else if c.assignment.timeoutSeconds ≤ elapsedSeconds then
    c.conclude (c.status.fail "Execution timeout exceeded")
  else
    let c := if 0 < input.bytesRead then ExecCall.report { c with status := c.status.advance } else c
    let r := c.status.reap input.wait
    if r.2 then { c with status := r.1 } else c.conclude r.1

/-- The next step of a call, with the reservations before and after it. -/
def ExecCall.step (env : ExecEnv) (g : Reserved) (c : ExecCall) : Reserved × ExecCall :=
  match c.phase with
  | .validating =>
    if vomExecutorValidate env.access c.assignment vomSysInfoCollect then
      (g, { ExecCall.report { c with status := { c.status with state := .accepted } } with
        phase := .reserving })
    else
      (g, { ExecCall.report { c with status := c.status.fail "Validation failed" } with
        phase := .returned false })
  | .reserving =>
    let r := reserveLocalResources c.assignment vomSysInfoCollect g
    if r.1 then (r.2, { c with phase := .piping })
    else
      (r.2, { ExecCall.report { c with status := c.status.fail "Resource reservation rejected" } with
        phase := .returned false })
  | .piping =>
    if env.pipeOk then
      (g, { ExecCall.report { c with status := { c.status with state := .started } } with
        phase := .forking })
    else (g, { c with phase := .releasing .pipeFailed })
  | .forking =>
    if env.forkOk then
      (g, { c with
        status := { c.status with state := .progress }
        phase := .polling env.startSec })
    else (g, { c with phase := .releasing .forkFailed })
  | .polling startSec => (g, c.poll startSec env.poll)
  | .releasing after =>
    let g := releaseLocalResources c.assignment g
    match after with
    | .pipeFailed =>
      (g, { ExecCall.report { c with status := c.status.fail "Pipe generation failed" } with
        phase := .returned false })
    | .forkFailed =>
      (g, { c with status := { c.status with state := .failed }, phase := .returned false })
    | .finished => (g, { c with phase := .returned (c.status.state = .completed) })
  | .returned _ => (g, c)

/-! ## 4. Many calls -/

/-- The reservations and the calls, in the order they were entered. -/
structure ExecutorState where
  reserved : Reserved
  calls : List ExecCall
  deriving DecidableEq

inductive ExecutorOp
  | enter (a : ChunkAssignment) (hasCallback : Bool)
  | step (i : Nat) (env : ExecEnv)

/-- The executor of one process. -/
def executorMachine : Machine ExecutorState ExecutorOp Unit where
  step s op := match op with
    | .enter a hasCallback => ({ s with calls := s.calls ++ [ExecCall.enter a hasCallback] }, ())
    | .step i env => match s.calls[i]? with
      | none => (s, ())
      | some c =>
        let r := c.step env s.reserved
        ({ reserved := r.1, calls := s.calls.set i r.2 }, ())

/-- The executor before any call. -/
def executorStart : ExecutorState := ⟨⟨0, 0⟩, []⟩

end VoidOsMerger
