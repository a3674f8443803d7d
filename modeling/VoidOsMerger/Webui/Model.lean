/-
  File:      VoidOsMerger/Webui/Model.lean
  Subject:   THE DASHBOARD'S READER OF THE MASTER'S FILE (`parse_wal`, webui/server.py).

  The reader knows the layout of `ClusterStateSnapshot` as offsets and strides. Every field is taken
  by `struct.unpack_from`, which raises an exception when the field does not lie in the data; this is
  `PyError.structError`. Dictionaries are records. Python's arithmetic on floats is an interface
  (`PyNumber`), and the time of reading is an argument.
-/
import VoidOsMerger.Base.Codec
import VoidOsMerger.Base.Utf8
import VoidOsMerger.ClusterState.Model

namespace VoidOsMerger

/-! ## 1. Python -/

/-- The numbers of the dictionaries that may be floats: an `int`, `int / int`, an unpacked `<f`,
    `float * int`, and `round(x, 1)`. -/
class PyNumber (F : Type) where
  ofInt : Int → F
  trueDiv : Nat → Nat → F
  ofFloat32 : UInt32 → F
  mulInt : F → Nat → F
  round1 : F → F

/-- A number as the expression that computes it. -/
inductive PyExpr
  | ofInt (n : Int)
  | trueDiv (a b : Nat)
  | ofFloat32 (bits : UInt32)
  | mulInt (x : PyExpr) (n : Nat)
  | round1 (x : PyExpr)
  | add (x y : PyExpr)
  deriving DecidableEq, Repr

instance : PyNumber PyExpr where
  ofInt := .ofInt
  trueDiv := .trueDiv
  ofFloat32 := .ofFloat32
  mulInt := .mulInt
  round1 := .round1

/-- The exceptions the reader could raise. -/
inductive PyError
  | structError
  deriving DecidableEq, Repr

/-- `struct.unpack_from(format, data, off)[0]` -/
def unpackFrom {α : Type} (c : Codec α) (data : List UInt8) (off : Nat) : Except PyError α :=
  if off + c.size ≤ data.length then .ok (c.dec ((data.drop off).take c.size))
  else .error .structError

/-- `names.get(n, f"UNKNOWN(..)")` -/
def nameOf (names : List (Int × String)) (n : Int) : String :=
  (names.lookup n).getD ("UNKNOWN(" ++ toString n ++ ")")

/-! ## 2. The dictionaries -/

variable {F : Type}

structure DashboardWorker (F : Type) where
  id : UInt32
  health : String
  lastSeenMs : UInt64
  totalMemoryGb : F
  reservedMemoryGb : F
  totalCores : UInt32
  reservedCores : UInt32
  deriving DecidableEq

structure DashboardLease (F : Type) where
  chunkId : UInt64
  status : String
  progress : F
  retryCount : UInt32
  deriving DecidableEq

structure DashboardMetrics (F : Type) where
  aggregateMemoryGb : F
  allocatedMemoryGb : F
  aggregateCores : UInt32
  allocatedCores : UInt32
  activeWorkers : UInt32
  deriving DecidableEq

structure DashboardState (F : Type) where
  clusterUuid : String
  masterEpoch : UInt64
  stateGeneration : UInt64
  globalStatus : String
  workers : List (DashboardWorker F)
  totalWorkers : Int
  leases : List (DashboardLease F)
  totalLeases : Int
  metrics : DashboardMetrics F
  readTime : F
  deriving DecidableEq

section

variable [PyNumber F]

/-- `_empty_state` -/
def emptyState (readTime : F) : DashboardState F where
  clusterUuid := "-"
  masterEpoch := 0
  stateGeneration := 0
  globalStatus := "BOOTSTRAP"
  workers := []
  totalWorkers := 0
  leases := []
  totalLeases := 0
  metrics := ⟨PyNumber.ofInt 0, PyNumber.ofInt 0, 0, 0, 0⟩
  readTime := readTime

/-- `round(bytes / (1024**3), 1)` -/
def gigabytes (bytes : UInt64) : F := PyNumber.round1 (PyNumber.trueDiv bytes.toNat (1024 ^ 3))

/-! ## 3. The reader -/

/-- `SIZEOF_WORKER_MEMBER` -/
def sizeofWorkerMember : Nat := 40

/-- `SIZEOF_CHUNK_LEASE` -/
def sizeofChunkLease : Nat := 24

/-- `SIZEOF_CLUSTER_METRICS` -/
def sizeofClusterMetrics : Nat := 32

def statusNames : List (Int × String) := [(0, "BOOTSTRAP"), (1, "OPERATIONAL"), (2, "DEGRADED")]

def healthNames : List (Int × String) := [(0, "ONLINE"), (1, "DRAINING"), (2, "OFFLINE")]

def leaseNames : List (Int × String) :=
  [(0, "RUNNING"), (1, "COMPLETED"), (2, "FAILED"), (3, "TIMED_OUT")]

/-- The fields of one entry of the workers array; no entry for id 0. -/
def parseWorker (data : List UInt8) (woff : Nat) : Except PyError (Option (DashboardWorker F)) := do
  let workerId ← unpackFrom Codec.u32 data woff
  let health ← unpackFrom Codec.int32 data (woff + 4)
  let lastSeen ← unpackFrom Codec.u64 data (woff + 8)
  let totalMem ← unpackFrom Codec.u64 data (woff + 16)
  let reservedMem ← unpackFrom Codec.u64 data (woff + 24)
  let totalCores ← unpackFrom Codec.u32 data (woff + 32)
  let reservedCores ← unpackFrom Codec.u32 data (woff + 36)
  return if workerId ≠ 0 then
    some
      { id := workerId
        health := nameOf healthNames health.toInt
        lastSeenMs := lastSeen
        totalMemoryGb := gigabytes totalMem
        reservedMemoryGb := gigabytes reservedMem
        totalCores := totalCores
        reservedCores := reservedCores }
  else none

/-- The fields of one entry of the leases array; no entry for chunk 0. -/
def parseLease (data : List UInt8) (loff : Nat) : Except PyError (Option (DashboardLease F)) := do
  let chunkId ← unpackFrom Codec.u64 data loff
  let leaseStatus ← unpackFrom Codec.int32 data (loff + 8)
  let progress ← unpackFrom Codec.u32 data (loff + 12)
  let retryCount ← unpackFrom Codec.u32 data (loff + 16)
  return if chunkId ≠ 0 then
    some
      { chunkId := chunkId
        status := nameOf leaseNames leaseStatus.toInt
        progress := PyNumber.round1 (PyNumber.mulInt (PyNumber.ofFloat32 progress) 100)
        retryCount := retryCount }
  else none

/-- `for i in range(..)` over an array at `off`, from entry `i` on: the loop breaks at the first
    entry that does not lie in the data. -/
def parseArray {β : Type} (data : List UInt8) (off size : Nat)
    (parse : Nat → Except PyError (Option β)) (i : Nat) : Nat → Except PyError (List β)
  | 0 => .ok []
  | n + 1 =>
    if data.length < off + i * size + size then .ok []
    else do
      let entry ← parse (off + i * size)
      let entries ← parseArray data off size parse (i + 1) n
      return entry.toList ++ entries

/-- A count and its padding; 0 when they do not lie in the data. -/
def parseTotal (data : List UInt8) (off : Nat) : Except PyError Int :=
  if data.length < off + 8 then .ok 0
  else do
    let total ← unpackFrom Codec.int32 data off
    return total.toInt

/-- The metrics; zeros when they do not lie in the data. -/
def parseMetrics (data : List UInt8) (off : Nat) : Except PyError ClusterMetrics :=
  if off + sizeofClusterMetrics ≤ data.length then do
    let aggMem ← unpackFrom Codec.u64 data off
    let allocMem ← unpackFrom Codec.u64 data (off + 8)
    let aggCores ← unpackFrom Codec.u32 data (off + 16)
    let allocCores ← unpackFrom Codec.u32 data (off + 20)
    let activeWorkersCount ← unpackFrom Codec.u32 data (off + 24)
    return ⟨aggMem, allocMem, aggCores, allocCores, activeWorkersCount⟩
  else .ok ⟨0, 0, 0, 0, 0⟩

/-- `xs[:total] if total > 0 else xs` -/
def sliced {β : Type} (total : Int) (xs : List β) : List β :=
  if 0 < total then xs.take total.toNat else xs

/-- The part of `parse_wal` after the file is read and found long enough for the header. -/
def parseImage (readTime : F) (data : List UInt8) : Except PyError (DashboardState F) := do
  let clusterUuid := utf8DecodeReplace ((data.take uuidStrMax).takeWhile (· ≠ 0))
  let off := uuidStrMax
  let masterEpoch ← unpackFrom Codec.u64 data off
  let off := off + 8
  let stateGen ← unpackFrom Codec.u64 data off
  let off := off + 8
  let globalStatus ← unpackFrom Codec.int32 data off
  let off := off + 4 + 4
  let workers ← parseArray data off sizeofWorkerMember (parseWorker data) 0 clusterMaxWorkers
  let off := off + clusterMaxWorkers * sizeofWorkerMember
  let totalWorkers ← parseTotal data off
  let off := off + 8
  let leases ← parseArray data off sizeofChunkLease (parseLease data) 0 clusterMaxActiveLeases
  let off := off + clusterMaxActiveLeases * sizeofChunkLease
  let totalLeases ← parseTotal data off
  let off := off + 8
  let metrics ← parseMetrics data off
  return {
    clusterUuid := clusterUuid
    masterEpoch := masterEpoch
    stateGeneration := stateGen
    globalStatus := nameOf statusNames globalStatus.toInt
    workers := sliced totalWorkers workers
    totalWorkers := totalWorkers
    leases := sliced totalLeases leases
    totalLeases := totalLeases
    metrics :=
      { aggregateMemoryGb := gigabytes metrics.clusterAggregateMemoryBytes
        allocatedMemoryGb := gigabytes metrics.clusterAllocatedMemoryBytes
        aggregateCores := metrics.clusterAggregateCores
        allocatedCores := metrics.clusterAllocatedCores
        activeWorkers := metrics.activeWorkerCount }
    readTime := readTime }

/-- `parse_wal` on what `open` and `read` give: `None` for a file that cannot be read, an empty state
    for one too short for the header. -/
def parseWal (readTime : F) (file : Option (List UInt8)) :
    Except PyError (Option (DashboardState F)) :=
  match file with
  | none => .ok none
  | some data =>
    if data.length < 84 then .ok (some (emptyState readTime))
    else (parseImage readTime data).map some

end

end VoidOsMerger
