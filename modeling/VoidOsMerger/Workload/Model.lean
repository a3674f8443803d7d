/-
  File:      VoidOsMerger/Workload/Model.lean
  Subject:   JOBS OF THE WORKLOAD ENGINE AND THE PROMOTION OF READY CHUNKS (master/src/workload.c).

  `ActiveWorkloadLifecycle` is the job record, its two arrays cut at their counts.
  `evaluateReadyChunks` is the source's in-place loop: chunk after chunk, reading the states as the
  earlier passes left them, parents looked up by the first chunk with the edge's source id.
-/
import VoidOsMerger.Base.CText
import VoidOsMerger.Planner.Model

namespace VoidOsMerger

/-! ## 1. Jobs -/

/-- `MAX_CHUNKS_PER_JOB` -/
def maxChunksPerJob : Nat := 64

/-- `MAX_EDGES_PER_JOB` -/
def maxEdgesPerJob : Nat := 128

inductive WorkloadState
  | submitted | planning | executing | completed | failed | cancelled
  deriving DecidableEq, Repr

inductive ChunkState
  | pending | ready | running | completed | failed
  deriving DecidableEq, Repr

structure ManagedChunkNode (F : Type) where
  chunkId : UInt64
  memoryDemandBytes : UInt64
  cpuCoresDemand : UInt64
  targetNodeId : UInt32
  dataLocalityScore : F
  state : ChunkState
  assignedWorker : NulBuf 64
  outputChecksum : NulBuf 64

/-- A job; its edges are `PlanDependencyEdge`, with the two fields of the planner's edges. -/
structure ActiveWorkloadLifecycle (F : Type) where
  workloadId : UInt64
  name : NulBuf 64
  state : WorkloadState
  startTimestampMs : UInt64
  deadlineSeconds : UInt32
  chunks : List (ManagedChunkNode F)
  chunksFit : chunks.length ≤ maxChunksPerJob
  edges : List DependencyEdge
  edgesFit : edges.length ≤ maxEdgesPerJob
  overallProgress : F
  aggregatedResultHash : NulBuf 64

variable {F : Type}

/-! ## 2. `evaluate_ready_chunks` -/

/-- The scan for one edge into a chunk: the first chunk with the source's id must be completed; a
    source that is no chunk of the job is ignored. -/
def parentCompleted (chunks : List (ManagedChunkNode F)) (e : DependencyEdge) : Bool :=
  (chunks.find? fun p => p.chunkId == e.srcChunkId).all fun p => p.state == .completed

/-- `parents_completed` after the loop over the edges, which stops at the first open parent. -/
def parentsCompleted (edges : List DependencyEdge) (chunks : List (ManagedChunkNode F))
    (id : UInt64) : Bool :=
  edges.all fun e => e.dstChunkId != id || parentCompleted chunks e

/-- One pass of the outer loop, in place. -/
def evaluateChunk (edges : List DependencyEdge) (chunks : List (ManagedChunkNode F)) (i : Nat) :
    List (ManagedChunkNode F) :=
  match chunks[i]? with
  | none => chunks
  | some c =>
    if c.state = .pending ∧ parentsCompleted edges chunks c.chunkId = true then
      chunks.set i { c with state := .ready }
    else chunks

def evaluateLoop (edges : List DependencyEdge) (chunks : List (ManagedChunkNode F)) :
    List (ManagedChunkNode F) :=
  (List.range' 0 chunks.length).foldl (evaluateChunk edges) chunks

theorem length_evaluateChunk (edges : List DependencyEdge) (chunks : List (ManagedChunkNode F))
    (i : Nat) : (evaluateChunk edges chunks i).length = chunks.length := by
  unfold evaluateChunk
  split
  · rfl
  · split
    · exact List.length_set
    · rfl

theorem length_evaluateChunks (edges : List DependencyEdge) :
    ∀ (is : List Nat) (chunks : List (ManagedChunkNode F)),
      (is.foldl (evaluateChunk edges) chunks).length = chunks.length
  | [], _ => rfl
  | i :: is, chunks =>
      (length_evaluateChunks edges is (evaluateChunk edges chunks i)).trans
        (length_evaluateChunk edges chunks i)

/-- `evaluate_ready_chunks` -/
def evaluateReadyChunks (job : ActiveWorkloadLifecycle F) : ActiveWorkloadLifecycle F :=
  { job with
    chunks := evaluateLoop job.edges job.chunks
    chunksFit := (length_evaluateChunks job.edges _ job.chunks).symm ▸ job.chunksFit }

end VoidOsMerger
