/-
  File:      VoidOsMerger/Scheduler/Model.lean
  Subject:   THE CHUNK SCHEDULER (master/src/scheduler.c), function by function.

  The three global tables `g_workers`, `g_chunks`, `g_leases` with their counts are the lists of
  their live entries; each call runs under `g_sched_mutex`, so one call is one step.

  * `vomSchedulerRegisterWorker`, `vomSchedulerSubmitReadyChunk` -- overwrite by id, else append;
  * `vomSchedulerTick` -- `tickLoop` over the chunk table; one iteration is `tickChunk`: expire the
    chunk's lease (`expireLease`), choose a worker (`bestWorker`), reserve and store the lease
    (`dispatch`);
  * `vomSchedulerReleaseLease` -- give the reservation back and drop the chunk;
  * `schedulerMachine` -- the four operations as a machine.

  `double` arithmetic is the parameter `F` (`DoubleArith`): it decides which admissible worker wins
  a chunk, never which workers are admissible. The log lines are not modelled.
-/
import VoidOsMerger.Base.CText
import VoidOsMerger.Base.Run
import VoidOsMerger.Base.Table

namespace VoidOsMerger

def maxSworkers : Nat := 64
def maxSchunks : Nat := 128

/-! ## 1. Records -/

/-- `vom_worker_view`. -/
structure VomWorkerView (F : Type) where
  workerId : NulBuf 64
  platform : Int
  runtime : Int
  cpuUnits : UInt8
  reservCpu : UInt8
  freeMemoryMb : UInt64
  reservMemMb : UInt64
  batteryPct : F
  activeChunks : Int
  hasTouchInput : Int
  draining : Int
  healthy : Int
  reliabilityScore : F
  deriving DecidableEq

/-- `vom_chunk_plan`. -/
structure VomChunkPlan where
  chunkId : UInt64
  workloadId : UInt64
  requiredPlatform : Int
  requiredRuntime : Int
  requiredCpu : UInt8
  requiredMemoryMb : UInt64
  requiresTouch : Int
  isBlocked : Bool
  preferredNode : UInt32
  deriving DecidableEq

/-- `vom_assignment_lease`. -/
structure VomAssignmentLease where
  chunkId : UInt64
  assignedWorkerId : NulBuf 64
  leaseExpiresMs : UInt64
  isActive : Bool
  deriving DecidableEq

/-- The scheduler's globals. -/
structure Scheduler (F : Type) where
  workers : List (VomWorkerView F)
  chunks : List VomChunkPlan
  leases : List VomAssignmentLease
  deriving DecidableEq

variable {F : Type}

/-- `vom_scheduler_init`. -/
def vomSchedulerInit : Scheduler F := ⟨[], [], []⟩

/-- The string a worker record is looked up by. -/
def VomWorkerView.id (w : VomWorkerView F) : CStr := w.workerId.str

/-- The string a lease names its worker by. -/
def VomAssignmentLease.worker (l : VomAssignmentLease) : CStr := l.assignedWorkerId.str

/-! ## 2. Registration and submission -/

/-- The loop test `strcmp(g_workers[i].worker_id, id) == 0`. -/
def sameWorker (id : CStr) (w : VomWorkerView F) : Bool := strcmp w.id id == 0

/-- The loop test `g_chunks[i].chunk_id == id`. -/
def sameChunk (id : UInt64) (c : VomChunkPlan) : Bool := c.chunkId == id

/-- `vom_scheduler_register_worker` (`none` is a null pointer). -/
def vomSchedulerRegisterWorker (s : Scheduler F) : Option (VomWorkerView F) → Scheduler F × Int
  | none => (s, -1)
  | some worker =>
    match place (sameWorker worker.id) maxSworkers worker s.workers with
    | some workers => ({ s with workers }, 0)
    | none => (s, -1)

/-- `vom_scheduler_submit_ready_chunk` (`none` is a null pointer). -/
def vomSchedulerSubmitReadyChunk (s : Scheduler F) : Option VomChunkPlan → Scheduler F × Int
  | none => (s, -1)
  | some chunk =>
    match place (sameChunk chunk.chunkId) maxSchunks chunk s.chunks with
    | some chunks => ({ s with chunks }, 0)
    | none => (s, -1)

/-! ## 3. Choosing a worker -/

/-- `evaluate_hard_filters`. -/
def evaluateHardFilters (chunk : VomChunkPlan) (worker : VomWorkerView F) : Bool :=
  if worker.healthy = 0 ∨ worker.draining ≠ 0 then false
  else if worker.platform ≠ chunk.requiredPlatform then false
  else if worker.runtime ≠ chunk.requiredRuntime then false
  else if chunk.requiresTouch ≠ 0 ∧ worker.hasTouchInput = 0 then false
  else
    let availableCpu : UInt8 :=
      if worker.cpuUnits > worker.reservCpu then worker.cpuUnits - worker.reservCpu else 0
    if availableCpu < chunk.requiredCpu then false
    else
      let availableMem : UInt64 :=
        if worker.freeMemoryMb > worker.reservMemMb then worker.freeMemoryMb - worker.reservMemMb
        else 0
      if availableMem < chunk.requiredMemoryMb then false else true

section Score

variable [DoubleArith F]

open DoubleArith

/-- `calculate_worker_score`. -/
def calculateWorkerScore (chunk : VomChunkPlan) (worker : VomWorkerView F) : F :=
  let totalCpuCapacity : F := ofInt worker.cpuUnits.toNat
  let freeCpuRatio := div (ofInt ((worker.cpuUnits.toNat : Int) - worker.reservCpu.toNat))
    totalCpuCapacity
  let score := add (ofInt 0) (mul freeCpuRatio (ofInt 40))
  let score := add score (mul worker.reliabilityScore (ofInt 30))
  let workerNodeNumericId := uint32OfInt (atoi (worker.workerId.tail 7))
  let score := if workerNodeNumericId = chunk.preferredNode then add score (ofInt 20) else score
  if ge worker.batteryPct (ofInt 0) then
    add score (mul (div worker.batteryPct (ofInt 100)) (ofInt 10))
  else add score (ofInt 10)

/-- The loop over the workers: the first worker with the highest score above `highest`. -/
def bestWorkerLoop (chunk : VomChunkPlan) :
    List (VomWorkerView F) → Nat → Option Nat → F → Option Nat
  | [], _, best, _ => best
  | w :: ws, i, best, highest =>
    if evaluateHardFilters chunk w then
      if gt (calculateWorkerScore chunk w) highest then
        bestWorkerLoop chunk ws (i + 1) (some i) (calculateWorkerScore chunk w)
      else bestWorkerLoop chunk ws (i + 1) best highest
    else bestWorkerLoop chunk ws (i + 1) best highest

/-- `best_worker_idx` (`none` is -1), searched with `highest_score = -1.0` at the start. -/
def bestWorker (chunk : VomChunkPlan) (workers : List (VomWorkerView F)) : Option Nat :=
  bestWorkerLoop chunk workers 0 none (ofInt (-1))

end Score

/-! ## 4. Reservations -/

/-- Take the chunk's resources on a worker. The additions wrap as `uint8_t` and `uint64_t`. -/
def VomWorkerView.reserve (chunk : VomChunkPlan) (w : VomWorkerView F) : VomWorkerView F :=
  { w with
    reservCpu := w.reservCpu + chunk.requiredCpu
    reservMemMb := w.reservMemMb + chunk.requiredMemoryMb
    activeChunks := w.activeChunks + 1 }

/-- Give the chunk's resources back; each subtraction is guarded. -/
def VomWorkerView.refund (chunk : VomChunkPlan) (w : VomWorkerView F) : VomWorkerView F :=
  { w with
    reservCpu := if w.reservCpu ≥ chunk.requiredCpu then w.reservCpu - chunk.requiredCpu
      else w.reservCpu
    reservMemMb := if w.reservMemMb ≥ chunk.requiredMemoryMb
      then w.reservMemMb - chunk.requiredMemoryMb else w.reservMemMb
    activeChunks := w.activeChunks - 1 }

/-- The loop that gives a lease's resources back to the first worker with its id. -/
def refundWorker (chunk : VomChunkPlan) (id : CStr) (ws : List (VomWorkerView F)) :
    List (VomWorkerView F) :=
  modifyFirst (sameWorker id) (VomWorkerView.refund chunk) ws

/-- The loop test for the active lease of a chunk. -/
def leaseOf (id : UInt64) (l : VomAssignmentLease) : Bool := l.chunkId == id && l.isActive

def VomAssignmentLease.deactivate (l : VomAssignmentLease) : VomAssignmentLease :=
  { l with isActive := false }

/-! ## 5. The tick -/

/-- What the tick's loop changes: workers, leases, and `out_leases` up to `dispatched_count`. -/
structure TickState (F : Type) where
  workers : List (VomWorkerView F)
  leases : List VomAssignmentLease
  outLeases : List VomAssignmentLease
  deriving DecidableEq

/-- The search for the chunk's active lease: an expired one is switched off and refunded, a live one
    makes the chunk `already_leased`. -/
def expireLease (now : UInt64) (chunk : VomChunkPlan) (st : TickState F) : TickState F × Bool :=
  match st.leases.find? (leaseOf chunk.chunkId) with
  | none => (st, false)
  | some lease =>
    if now > lease.leaseExpiresMs then
      ({ st with
         leases := modifyFirst (leaseOf chunk.chunkId) VomAssignmentLease.deactivate st.leases
         workers := refundWorker chunk lease.worker st.workers }, false)
    else (st, true)

/-- `new_lease`: the sum wraps as `uint64_t`, the id is copied by `strncpy`. -/
def newLease (now : UInt64) (chunk : VomChunkPlan) (target : VomWorkerView F) :
    VomAssignmentLease where
  chunkId := chunk.chunkId
  assignedWorkerId := NulBuf.copy 63 target.id
  leaseExpiresMs := now + 30000
  isActive := true

/-- Reserve on worker `i`, then store the lease in the first inactive slot, else in a new one; with
    neither, the reservation stands and no lease is stored. -/
def dispatch (now : UInt64) (chunk : VomChunkPlan) (i : Nat) (st : TickState F) : TickState F :=
  match st.workers[i]? with
  | none => st
  | some target =>
    let workers := st.workers.set i (target.reserve chunk)
    match place (fun l => !l.isActive) maxSchunks (newLease now chunk target) st.leases with
    | some leases => ⟨workers, leases, st.outLeases ++ [newLease now chunk target]⟩
    | none => { st with workers }

section Tick

variable [DoubleArith F]

/-- The second half of an iteration: the chunk goes to the best worker, or stays pending. -/
def assignChunk (now : UInt64) (chunk : VomChunkPlan) (st : TickState F) : TickState F :=
  match bestWorker chunk st.workers with
  | none => st
  | some i => dispatch now chunk i st

/-- One iteration of the tick's loop, past the `break`. -/
def tickChunk (now : UInt64) (chunk : VomChunkPlan) (st : TickState F) : TickState F :=
  if chunk.isBlocked then st
  else
    let r := expireLease now chunk st
    if r.2 then r.1 else assignChunk now chunk r.1

/-- The tick's loop: it breaks once `dispatched_count >= max_leases`. -/
def tickLoop (now : UInt64) (maxLeases : Int) : List VomChunkPlan → TickState F → TickState F
  | [], st => st
  | chunk :: rest, st =>
    if (st.outLeases.length : Int) ≥ maxLeases then st
    else tickLoop now maxLeases rest (tickChunk now chunk st)

/-- The loop's state on entry. -/
def tickStart (s : Scheduler F) : TickState F := ⟨s.workers, s.leases, []⟩

/-- `vom_scheduler_tick`: the leases written to `out_leases`, whose number is returned. -/
def vomSchedulerTick (s : Scheduler F) (now : UInt64) (maxLeases : Int) :
    Scheduler F × List VomAssignmentLease :=
  let st := tickLoop now maxLeases s.chunks (tickStart s)
  (⟨st.workers, s.chunks, st.leases⟩, st.outLeases)

end Tick

/-! ## 6. Release -/

/-- `vom_scheduler_release_lease`: the chunk leaves the table by a `memmove`. -/
def vomSchedulerReleaseLease (s : Scheduler F) (chunkId : UInt64) : Scheduler F :=
  match s.leases.find? (leaseOf chunkId) with
  | none => s
  | some lease =>
    let leases := modifyFirst (leaseOf chunkId) VomAssignmentLease.deactivate s.leases
    match s.chunks.find? (sameChunk chunkId) with
    | none => { s with leases }
    | some chunk =>
      { workers := refundWorker chunk lease.worker s.workers
        chunks := s.chunks.eraseP (sameChunk chunkId)
        leases }

/-! ## 7. The machine -/

/-- One call of the scheduler. -/
inductive SchedulerOp (F : Type) where
  | registerWorker (worker : Option (VomWorkerView F))
  | submitReadyChunk (chunk : Option VomChunkPlan)
  | tick (now : UInt64) (maxLeases : Int)
  | releaseLease (chunkId : UInt64)

/-- What a call answers: a status, the leases of a tick, or nothing. -/
inductive SchedulerAnswer where
  | status (rc : Int)
  | leases (out : List VomAssignmentLease)
  | done
  deriving DecidableEq

/-- The scheduler as a machine. -/
def schedulerMachine [DoubleArith F] : Machine (Scheduler F) (SchedulerOp F) SchedulerAnswer where
  step s
    | .registerWorker w =>
      let r := vomSchedulerRegisterWorker s w
      (r.1, .status r.2)
    | .submitReadyChunk c =>
      let r := vomSchedulerSubmitReadyChunk s c
      (r.1, .status r.2)
    | .tick now maxLeases =>
      let r := vomSchedulerTick s now maxLeases
      (r.1, .leases r.2)
    | .releaseLease id => (vomSchedulerReleaseLease s id, .done)

end VoidOsMerger
