/-
  File:      VoidOsMerger/ClusterState/Model.lean
  Subject:   THE MASTER'S CLUSTER STATE (master/src/cluster_state.c).

  `ClusterStateSnapshot` is the source's record with its fixed arrays and `int` counts; the
  enumeration fields hold what memory holds (`CEnum`), and `progress_percentage` its bit pattern.
  An operation answers `none` when it would access an array outside its bounds.

  The write-ahead file is a byte string: `snapshotCodec` is the record's layout in memory
  (little-endian, eight-byte alignment). A persist may fail to open the file or stop after any number
  of bytes; a recover reads one whole record or fails.
-/
import VoidOsMerger.Base.CText
import VoidOsMerger.Base.Codec
import VoidOsMerger.Base.Run
import VoidOsMerger.Base.Slots

namespace VoidOsMerger

/-! ## 1. The record -/

/-- `CLUSTER_MAX_WORKERS` -/
def clusterMaxWorkers : Nat := 32

/-- `CLUSTER_MAX_ACTIVE_LEASES` -/
def clusterMaxActiveLeases : Nat := 128

/-- `UUID_STR_MAX` -/
def uuidStrMax : Nat := 64

inductive WorkerHealth
  | online | draining | offline
  deriving DecidableEq, Repr

inductive ClusterStatus
  | boostrap | operational | degraded
  deriving DecidableEq, Repr

inductive LeaseStatus
  | running | completed | failed | timedOut
  deriving DecidableEq, Repr

structure WorkerResources where
  totalMemoryBytes : UInt64
  reservedMemoryBytes : UInt64
  totalCores : UInt32
  reservedCores : UInt32
  deriving DecidableEq, Repr

structure WorkerMember where
  workerId : UInt32
  health : CEnum WorkerHealth 3
  lastSeenTimestampMs : UInt64
  resources : WorkerResources
  deriving DecidableEq

structure ChunkLease where
  chunkId : UInt64
  status : CEnum LeaseStatus 4
  progressPercentage : UInt32
  failureRetryCount : UInt32
  deriving DecidableEq

structure ClusterMetrics where
  clusterAggregateMemoryBytes : UInt64
  clusterAllocatedMemoryBytes : UInt64
  clusterAggregateCores : UInt32
  clusterAllocatedCores : UInt32
  activeWorkerCount : UInt32
  deriving DecidableEq, Repr

structure ClusterStateSnapshot where
  clusterUuid : Vector UInt8 uuidStrMax
  masterEpoch : UInt64
  stateGenerationVersion : UInt64
  globalStatus : CEnum ClusterStatus 3
  activeWorkers : Vector WorkerMember clusterMaxWorkers
  totalRegisteredWorkers : Int32
  activeLeases : Vector ChunkLease clusterMaxActiveLeases
  totalActiveLeases : Int32
  metrics : ClusterMetrics
  deriving DecidableEq

/-- The workers in use. -/
def ClusterStateSnapshot.workers (s : ClusterStateSnapshot) : List WorkerMember :=
  used s.activeWorkers s.totalRegisteredWorkers.toInt

/-- The leases in use. -/
def ClusterStateSnapshot.leases (s : ClusterStateSnapshot) : List ChunkLease :=
  used s.activeLeases s.totalActiveLeases.toInt

structure ClusterStateContext where
  masterState : ClusterStateSnapshot
  deriving DecidableEq

/-! ## 2. Layout -/

def WorkerHealth.code : WorkerHealth → UInt32
  | .online => 0
  | .draining => 1
  | .offline => 2

def WorkerHealth.ofCode (c : UInt32) : WorkerHealth :=
  if c = 0 then .online else if c = 1 then .draining else .offline

def ClusterStatus.code : ClusterStatus → UInt32
  | .boostrap => 0
  | .operational => 1
  | .degraded => 2

def ClusterStatus.ofCode (c : UInt32) : ClusterStatus :=
  if c = 0 then .boostrap else if c = 1 then .operational else .degraded

def LeaseStatus.code : LeaseStatus → UInt32
  | .running => 0
  | .completed => 1
  | .failed => 2
  | .timedOut => 3

def LeaseStatus.ofCode (c : UInt32) : LeaseStatus :=
  if c = 0 then .running else if c = 1 then .completed else if c = 2 then .failed else .timedOut

def workerHealthCodec : Codec (CEnum WorkerHealth 3) :=
  Codec.enum 3 WorkerHealth.code WorkerHealth.ofCode (fun e => by cases e <;> decide)
    fun e => by cases e <;> decide

def clusterStatusCodec : Codec (CEnum ClusterStatus 3) :=
  Codec.enum 3 ClusterStatus.code ClusterStatus.ofCode (fun e => by cases e <;> decide)
    fun e => by cases e <;> decide

def leaseStatusCodec : Codec (CEnum LeaseStatus 4) :=
  Codec.enum 4 LeaseStatus.code LeaseStatus.ofCode (fun e => by cases e <;> decide)
    fun e => by cases e <;> decide

def workerResourcesCodec : Codec WorkerResources :=
  (Codec.u64.pair (Codec.u64.pair (Codec.u32.pair Codec.u32))).map
    (fun t => ⟨t.1, t.2.1, t.2.2.1, t.2.2.2⟩)
    (fun r => (r.totalMemoryBytes, r.reservedMemoryBytes, r.totalCores, r.reservedCores)) fun _ => rfl

def workerMemberCodec : Codec WorkerMember :=
  (Codec.u32.pair (workerHealthCodec.pair (Codec.u64.pair workerResourcesCodec))).map
    (fun t => ⟨t.1, t.2.1, t.2.2.1, t.2.2.2⟩)
    (fun w => (w.workerId, w.health, w.lastSeenTimestampMs, w.resources)) fun _ => rfl

def chunkLeaseCodec : Codec ChunkLease :=
  ((Codec.u64.pair (leaseStatusCodec.pair (Codec.u32.pair Codec.u32))).map
    (fun t => ⟨t.1, t.2.1, t.2.2.1, t.2.2.2⟩)
    (fun l => (l.chunkId, l.status, l.progressPercentage, l.failureRetryCount)) fun _ => rfl).pad 4

def clusterMetricsCodec : Codec ClusterMetrics :=
  ((Codec.u64.pair (Codec.u64.pair (Codec.u32.pair (Codec.u32.pair Codec.u32)))).map
    (fun t => ⟨t.1, t.2.1, t.2.2.1, t.2.2.2.1, t.2.2.2.2⟩)
    (fun m => (m.clusterAggregateMemoryBytes, m.clusterAllocatedMemoryBytes,
      m.clusterAggregateCores, m.clusterAllocatedCores, m.activeWorkerCount)) fun _ => rfl).pad 4

def snapshotCodec : Codec ClusterStateSnapshot :=
  ((Codec.u8.vec uuidStrMax).pair (Codec.u64.pair (Codec.u64.pair ((clusterStatusCodec.pad 4).pair
    ((workerMemberCodec.vec clusterMaxWorkers).pair ((Codec.int32.pad 4).pair
      ((chunkLeaseCodec.vec clusterMaxActiveLeases).pair ((Codec.int32.pad 4).pair
        clusterMetricsCodec)))))))).map
    (fun t => ⟨t.1, t.2.1, t.2.2.1, t.2.2.2.1, t.2.2.2.2.1, t.2.2.2.2.2.1, t.2.2.2.2.2.2.1,
      t.2.2.2.2.2.2.2.1, t.2.2.2.2.2.2.2.2⟩)
    (fun s => (s.clusterUuid, s.masterEpoch, s.stateGenerationVersion, s.globalStatus,
      s.activeWorkers, s.totalRegisteredWorkers, s.activeLeases, s.totalActiveLeases, s.metrics))
    fun _ => rfl

-- `sizeof(ClusterStateSnapshot)`
example : snapshotCodec.size = 4488 := rfl

/-! ## 3. Operations on the record -/

/-- A worker that counts in the metrics. -/
def WorkerMember.isActive (w : WorkerMember) : Bool :=
  w.health == .value .online || w.health == .value .draining

def zeroMetrics : ClusterMetrics := ⟨0, 0, 0, 0, 0⟩

/-- One pass of the loop of `internal_recalculate_aggregates`. -/
def addMember (m : ClusterMetrics) (w : WorkerMember) : ClusterMetrics :=
  if w.isActive then
    { clusterAggregateMemoryBytes := m.clusterAggregateMemoryBytes + w.resources.totalMemoryBytes
      clusterAllocatedMemoryBytes := m.clusterAllocatedMemoryBytes + w.resources.reservedMemoryBytes
      clusterAggregateCores := m.clusterAggregateCores + w.resources.totalCores
      clusterAllocatedCores := m.clusterAllocatedCores + w.resources.reservedCores
      activeWorkerCount := m.activeWorkerCount + 1 }
  else m

/-- `internal_recalculate_aggregates` -/
def internalRecalculateAggregates (s : ClusterStateSnapshot) : Option ClusterStateSnapshot :=
  (foldSlots addMember s.activeWorkers.toList s.totalRegisteredWorkers.toInt zeroMetrics).map
    fun m => { s with metrics := m }

/-- What `memset` and `calloc` leave. -/
def zeroWorker : WorkerMember := ⟨0, .value .online, 0, ⟨0, 0, 0, 0⟩⟩

def zeroLease (chunkId : UInt64) : ChunkLease := ⟨chunkId, .value .running, 0, 0⟩

/-- `cluster_state_create` -/
def clusterStateCreate (uuid : CStr) (initialEpoch : UInt64) : ClusterStateContext where
  masterState :=
    { clusterUuid := ⟨(NulBuf.copy 63 uuid).bytes.toArray, (NulBuf.copy 63 uuid).size⟩
      masterEpoch := initialEpoch
      stateGenerationVersion := 1
      globalStatus := .value .boostrap
      activeWorkers := Vector.replicate clusterMaxWorkers zeroWorker
      totalRegisteredWorkers := 0
      activeLeases := Vector.replicate clusterMaxActiveLeases (zeroLease 0)
      totalActiveLeases := 0
      metrics := zeroMetrics }

/-- `cluster_state_register_worker` -/
def clusterStateRegisterWorker (s : ClusterStateSnapshot) (worker : WorkerMember) :
    Option (Bool × ClusterStateSnapshot) :=
  if clusterMaxWorkers ≤ s.totalRegisteredWorkers.toInt then some (false, s)
  else
    (scanSlots (fun w => w.workerId == worker.workerId) s.activeWorkers.toList
      s.totalRegisteredWorkers.toInt).bind fun known =>
    if known.isSome then some (false, s)
    else
      (writeSlot s.activeWorkers s.totalRegisteredWorkers.toInt worker).bind fun workers =>
      let s := { s with
        activeWorkers := workers
        totalRegisteredWorkers := s.totalRegisteredWorkers + 1
        stateGenerationVersion := s.stateGenerationVersion + 1 }
      let s := if s.globalStatus = .value .boostrap ∧ 1 ≤ s.totalRegisteredWorkers.toInt then
        { s with globalStatus := .value .operational } else s
      (internalRecalculateAggregates s).map fun s => (true, s)

/-- The fields `cluster_state_update_lease` writes in the lease it has found or made. -/
def ChunkLease.update (lease : ChunkLease) (newStatus : LeaseStatus) (progress : UInt32) :
    ChunkLease :=
  { lease with
    status := .value newStatus
    progressPercentage := progress
    failureRetryCount :=
      if newStatus = .failed ∨ newStatus = .timedOut then lease.failureRetryCount + 1
      else lease.failureRetryCount }

/-- `cluster_state_update_lease`; `progress` is the bit pattern of the `float`. -/
def clusterStateUpdateLease (s : ClusterStateSnapshot) (chunkId : UInt64) (newStatus : LeaseStatus)
    (progress : UInt32) : Option (Bool × ClusterStateSnapshot) :=
  (scanSlots (fun l => l.chunkId == chunkId) s.activeLeases.toList
    s.totalActiveLeases.toInt).bind fun found =>
  match found with
  | some i =>
    match s.activeLeases[i]? with
    | none => none
    | some lease =>
      some (true, { s with
        activeLeases := s.activeLeases.setIfInBounds i (lease.update newStatus progress)
        stateGenerationVersion := s.stateGenerationVersion + 1 })
  | none =>
    if clusterMaxActiveLeases ≤ s.totalActiveLeases.toInt then some (false, s)
    else
      (writeSlot s.activeLeases s.totalActiveLeases.toInt
        ((zeroLease chunkId).update newStatus progress)).map fun leases =>
      (true, { s with
        activeLeases := leases
        totalActiveLeases := s.totalActiveLeases + 1
        stateGenerationVersion := s.stateGenerationVersion + 1 })

/-- The fields a heartbeat writes. -/
def WorkerMember.beat (w : WorkerMember) (timestampMs : UInt64) : WorkerMember :=
  { w with
    lastSeenTimestampMs := timestampMs
    health := if w.health = .value .offline then .value .online else w.health }

/-- `cluster_state_process_heartbeat` -/
def clusterStateProcessHeartbeat (s : ClusterStateSnapshot) (workerId : UInt32)
    (timestampMs : UInt64) : Option (Bool × ClusterStateSnapshot) :=
  (scanSlots (fun w => w.workerId == workerId) s.activeWorkers.toList
    s.totalRegisteredWorkers.toInt).bind fun found =>
  match found with
  | none => some (false, s)
  | some i =>
    match s.activeWorkers[i]? with
    | none => none
    | some w =>
      (internalRecalculateAggregates { s with
        activeWorkers := s.activeWorkers.setIfInBounds i (w.beat timestampMs)
        stateGenerationVersion := s.stateGenerationVersion + 1 }).map fun s => (true, s)

/-! ## 4. The write-ahead file -/

/-- What `fopen` and `fwrite` do: no file, or a file of which `n` bytes get written. -/
inductive WriteOutcome
  | openFails
  | written (n : Nat)
  deriving DecidableEq, Repr

/-- The files, by path. -/
abbrev Files := CStr → Option (List UInt8)

/-- `cluster_state_persist_to_wal`: the file is truncated, then the record is written in order. -/
def clusterStatePersistToWal (outcome : WriteOutcome) (path : CStr) (s : ClusterStateSnapshot)
    (files : Files) : Bool × Files :=
  match outcome with
  | .openFails => (false, files)
  | .written n =>
    (decide (snapshotCodec.size ≤ n),
      fun p => if p = path then some ((snapshotCodec.enc s).take n) else files p)

/-- `cluster_state_recover_from_wal`; `opens` says whether `fopen` succeeds on an existing file. -/
def clusterStateRecoverFromWal (opens : Bool) (path : CStr) (s : ClusterStateSnapshot)
    (files : Files) : Bool × ClusterStateSnapshot :=
  match files path with
  | none => (false, s)
  | some bytes =>
    if !opens || bytes.length < snapshotCodec.size then (false, s)
    else
      let temp := snapshotCodec.dec (bytes.take snapshotCodec.size)
      (true, { temp with stateGenerationVersion := temp.stateGenerationVersion + 1 })

/-! ## 5. Contexts over one file system -/

/-- Any number of contexts, created one after another, and the files they share. -/
structure ClusterWorld where
  contexts : List ClusterStateContext
  files : Files

inductive ClusterOp
  | create (uuid : CStr) (initialEpoch : UInt64)
  | registerWorker (ctx : Nat) (worker : WorkerMember)
  | updateLease (ctx : Nat) (chunkId : UInt64) (newStatus : LeaseStatus) (progress : UInt32)
  | processHeartbeat (ctx : Nat) (workerId : UInt32) (timestampMs : UInt64)
  | persistToWal (ctx : Nat) (path : CStr) (outcome : WriteOutcome)
  | recoverFromWal (ctx : Nat) (path : CStr) (opens : Bool)

/-- An operation on the state of one context; a context that does not exist is refused. -/
def onContext (w : ClusterWorld) (i : Nat)
    (f : ClusterStateSnapshot → Option (Bool × ClusterStateSnapshot)) : ClusterWorld × Option Bool :=
  match w.contexts[i]? with
  | none => (w, some false)
  | some ctx =>
    match f ctx.masterState with
    | none => (w, none)
    | some (ok, s) => ({ w with contexts := w.contexts.set i { ctx with masterState := s } }, some ok)

/-- The cluster state as a machine; the answer is what the operation returns, `none` for an access
    outside an array. -/
def clusterMachine : Machine ClusterWorld ClusterOp (Option Bool) where
  step w
    | .create uuid initialEpoch =>
      ({ w with contexts := w.contexts ++ [clusterStateCreate uuid initialEpoch] }, some true)
    | .registerWorker i worker => onContext w i fun s => clusterStateRegisterWorker s worker
    | .updateLease i chunkId newStatus progress =>
      onContext w i fun s => clusterStateUpdateLease s chunkId newStatus progress
    | .processHeartbeat i workerId timestampMs =>
      onContext w i fun s => clusterStateProcessHeartbeat s workerId timestampMs
    | .persistToWal i path outcome =>
      match w.contexts[i]? with
      | none => (w, some false)
      | some ctx =>
        let r := clusterStatePersistToWal outcome path ctx.masterState w.files
        ({ w with files := r.2 }, some r.1)
    | .recoverFromWal i path opens =>
      onContext w i fun s => some (clusterStateRecoverFromWal opens path s w.files)

/-- No context and no file. -/
def emptyWorld : ClusterWorld := { contexts := [], files := fun _ => none }

end VoidOsMerger
