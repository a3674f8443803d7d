/-
  File:      VoidOsMerger/Workload/Store.lean
  Subject:   THE WORKLOAD STORE (master/src/workload.c): submissions, cancellations, chunk results and
             deadlines.

  The jobs are the list of the array's live entries; a job is never removed. A result is written to
  the first job with the workload id that has the chunk, then `evaluate_ready_chunks` and
  `recalculate_job_progress` run over that job. The planner called by a submission is the source's
  `mock_invoke_chunk_planner`: three chunks in a row.
-/
import VoidOsMerger.Workload.Model
import VoidOsMerger.Base.Run
import VoidOsMerger.Base.Table

namespace VoidOsMerger

/-! ## 1. The store -/

/-- `MAX_ACTIVE_WORKLOADS` -/
def maxActiveWorkloads : Nat := 32

/-- The fields of a submission that are read. -/
structure UserWorkloadDesc where
  workloadName : NulBuf 64
  totalSizeBytes : UInt64
  intensityFactor : UInt64
  isSplittable : Bool
  dataNodeHint : UInt32
  deadlineSeconds : UInt32

structure WorkloadContext (F : Type) where
  jobs : List (ActiveWorkloadLifecycle F)
  nextWorkloadId : UInt64

variable {F : Type}

/-- `vom_workload_init` -/
def vomWorkloadInit : WorkloadContext F := { jobs := [], nextWorkloadId := 1001 }

/-- An empty `char[64]`. -/
def emptyText : NulBuf 64 := NulBuf.copy 63 ⟨[], noNul_nil⟩

/-! ## 2. Progress -/

/-- One byte of the hash loop. -/
def fnvStep (h : UInt64) (b : UInt8) : UInt64 := (h ^^^ b.toUInt64) * 0x100000001b3

/-- The hash over the chunks' checksums, in the order of the array. -/
def checksumHash (chunks : List (ManagedChunkNode F)) : UInt64 :=
  chunks.foldl (fun h c => c.outputChecksum.str.bytes.foldl fnvStep h) 0xcbf29ce484222325

/-- A digit of `%llx`. -/
def hexDigit (n : UInt64) : UInt8 := if n < 10 then 48 + n.toUInt8 else 87 + n.toUInt8

/-- `"sha256-%016llx"` -/
def hashText (h : UInt64) : CStr :=
  CStr.upTo ([115, 104, 97, 50, 53, 54, 45] ++
    (List.range 16).map fun i => hexDigit ((h >>> (60 - 4 * UInt64.ofNat i)) &&& 15))

section Progress

variable [DoubleArith F]

/-- `recalculate_job_progress` -/
def recalculateJobProgress (job : ActiveWorkloadLifecycle F) : ActiveWorkloadLifecycle F :=
  let completed := job.chunks.countP fun c => c.state == .completed
  let failed := job.chunks.countP fun c => c.state == .failed
  let job := { job with
    overallProgress :=
      if job.chunks.length > 0 then
        DoubleArith.div (DoubleArith.ofInt completed) (DoubleArith.ofInt job.chunks.length)
      else DoubleArith.ofInt 0 }
  if failed > 0 then { job with state := .failed }
  else if completed = job.chunks.length then
    { job with
      state := .completed
      aggregatedResultHash := NulBuf.copy 63 (hashText (checksumHash job.chunks)) }
  else job

/-! ## 3. Operations -/

/-- `.chunk_id = (wl_id << 16) | i` -/
def plannedId (workloadId : UInt64) (i : UInt64) : UInt64 := (workloadId <<< 16) ||| i

/-- A chunk as `mock_invoke_chunk_planner` fills it in. -/
def mockChunk (desc : UserWorkloadDesc) (workloadId i : UInt64) : ManagedChunkNode F where
  chunkId := plannedId workloadId i
  memoryDemandBytes := desc.totalSizeBytes / 3
  cpuCoresDemand := desc.intensityFactor
  targetNodeId := desc.dataNodeHint
  dataLocalityScore := DoubleArith.ofInt 1
  state := .pending
  assignedWorker := emptyText
  outputChecksum := emptyText

/-- The job a submission stores, before its chunks are looked at. -/
def plannedJob (desc : UserWorkloadDesc) (workloadId currentTimeMs : UInt64) :
    ActiveWorkloadLifecycle F where
  workloadId := workloadId
  name := NulBuf.copy 63 desc.workloadName.str
  state := .executing
  startTimestampMs := currentTimeMs
  deadlineSeconds := desc.deadlineSeconds
  chunks := [mockChunk desc workloadId 0, mockChunk desc workloadId 1, mockChunk desc workloadId 2]
  chunksFit := (by decide : 3 ≤ maxChunksPerJob)
  edges := [⟨plannedId workloadId 0, plannedId workloadId 1⟩,
    ⟨plannedId workloadId 1, plannedId workloadId 2⟩]
  edgesFit := (by decide : 2 ≤ maxEdgesPerJob)
  overallProgress := DoubleArith.ofInt 0
  aggregatedResultHash := emptyText

/-- `vom_workload_submit` -/
def vomWorkloadSubmit (ctx : WorkloadContext F) (input : UserWorkloadDesc) (currentTimeMs : UInt64) :
    WorkloadContext F × UInt64 :=
  if !input.isSplittable then (ctx, 0)
  else if maxActiveWorkloads ≤ ctx.jobs.length then (ctx, 0)
  else
    let assignedId := ctx.nextWorkloadId
    ({ jobs := ctx.jobs ++ [evaluateReadyChunks (plannedJob input assignedId currentTimeMs)]
       nextWorkloadId := ctx.nextWorkloadId + 1 }, assignedId)

/-- `vom_workload_cancel` -/
def vomWorkloadCancel (ctx : WorkloadContext F) (workloadId : UInt64) : WorkloadContext F × Bool :=
  let same := fun job : ActiveWorkloadLifecycle F => job.workloadId == workloadId
  ({ ctx with jobs := modifyFirst same (fun job => { job with state := .cancelled }) ctx.jobs },
    ctx.jobs.any same)

/-- What a result writes to its chunk; without a checksum the old one stays. -/
def ManagedChunkNode.report (c : ManagedChunkNode F) (resultState : ChunkState)
    (checksum : Option CStr) : ManagedChunkNode F :=
  { c with
    state := resultState
    outputChecksum := checksum.elim c.outputChecksum (NulBuf.copy 63) }

/-- `job->chunks[c]` written, `c` the first chunk with the id. -/
def writeResult (job : ActiveWorkloadLifecycle F) (chunkId : UInt64) (resultState : ChunkState)
    (checksum : Option CStr) : ActiveWorkloadLifecycle F :=
  { job with
    chunks := modifyFirst (fun c => c.chunkId == chunkId) (fun c => c.report resultState checksum)
      job.chunks
    chunksFit := (length_modifyFirst _ _ job.chunks).symm ▸ job.chunksFit }

/-- The body of `vom_workload_update_chunk_result` for the job and chunk it has found. -/
def reportChunk (job : ActiveWorkloadLifecycle F) (chunkId : UInt64) (resultState : ChunkState)
    (checksum : Option CStr) : ActiveWorkloadLifecycle F :=
  recalculateJobProgress (evaluateReadyChunks (writeResult job chunkId resultState checksum))

/-- The job the two loops stop at. -/
def hasChunk (workloadId chunkId : UInt64) (job : ActiveWorkloadLifecycle F) : Bool :=
  job.workloadId == workloadId && job.chunks.any fun c => c.chunkId == chunkId

/-- `vom_workload_update_chunk_result` -/
def vomWorkloadUpdateChunkResult (ctx : WorkloadContext F) (workloadId chunkId : UInt64)
    (resultState : ChunkState) (checksum : Option CStr) : WorkloadContext F × Bool :=
  let jobs := modifyFirst (hasChunk workloadId chunkId)
    (fun job => reportChunk job chunkId resultState checksum) ctx.jobs
  ({ ctx with jobs := jobs }, ctx.jobs.any (hasChunk workloadId chunkId))

/-- The body of the loop of `vom_workload_check_deadlines`. -/
def checkDeadline (currentTimeMs : UInt64) (job : ActiveWorkloadLifecycle F) :
    ActiveWorkloadLifecycle F :=
  if job.state = .executing ∧
      (currentTimeMs - job.startTimestampMs) / 1000 ≥ job.deadlineSeconds.toUInt64 then
    { job with state := .failed }
  else job

/-- `vom_workload_check_deadlines` -/
def vomWorkloadCheckDeadlines (ctx : WorkloadContext F) (currentTimeMs : UInt64) :
    WorkloadContext F :=
  { ctx with jobs := ctx.jobs.map (checkDeadline currentTimeMs) }

/-! ## 4. The store as a machine -/

inductive WorkloadOp
  | submit (input : UserWorkloadDesc) (currentTimeMs : UInt64)
  | cancel (workloadId : UInt64)
  | updateChunkResult (workloadId chunkId : UInt64) (resultState : ChunkState)
      (checksum : Option CStr)
  | checkDeadlines (currentTimeMs : UInt64)

inductive WorkloadAnswer
  | id (workloadId : UInt64)
  | ok (b : Bool)
  | void
  deriving DecidableEq

def workloadMachine : Machine (WorkloadContext F) WorkloadOp WorkloadAnswer where
  step ctx
    | .submit input currentTimeMs =>
      let r := vomWorkloadSubmit ctx input currentTimeMs
      (r.1, .id r.2)
    | .cancel workloadId =>
      let r := vomWorkloadCancel ctx workloadId
      (r.1, .ok r.2)
    | .updateChunkResult workloadId chunkId resultState checksum =>
      let r := vomWorkloadUpdateChunkResult ctx workloadId chunkId resultState checksum
      (r.1, .ok r.2)
    | .checkDeadlines currentTimeMs => (vomWorkloadCheckDeadlines ctx currentTimeMs, .void)

end Progress

end VoidOsMerger
