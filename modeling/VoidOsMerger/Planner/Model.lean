/-
  File:      VoidOsMerger/Planner/Model.lean
  Subject:   THE CHUNK PLANNER'S TOPOLOGY CHECK (master/src/chunk_planner.c).

  An `ExecutionPlan` is the part of the two arrays below `chunk_count` and `edge_count`, with the
  capacities as fields. `verifyPlanTopologyIsDag` is the source's loop by loop: the counting of
  in-degrees, the first fill of the queue, and the `while` loop over `head < tail` (with fuel; `none`
  is a loop that has not ended). Slots are array indices; edges are matched by chunk id.
-/
import VoidOsMerger.Base.Worklist

namespace VoidOsMerger

/-! ## 1. Plans -/

/-- `MAX_CHUNKS` -/
def maxChunks : Nat := 64

/-- `MAX_EDGES` -/
def maxEdges : Nat := 128

structure ChunkNode (F : Type) where
  chunkId : UInt64
  memoryDemandBytes : UInt64
  cpuCoresDemand : UInt64
  targetNodeId : UInt32
  dataLocalityScore : F
  deriving DecidableEq, Repr

structure DependencyEdge where
  srcChunkId : UInt64
  dstChunkId : UInt64
  deriving DecidableEq, Repr

/-- The chunks and edges in use; what lies beyond the counts is never read. -/
structure ExecutionPlan (F : Type) where
  chunks : List (ChunkNode F)
  chunksFit : chunks.length ≤ maxChunks
  edges : List DependencyEdge
  edgesFit : edges.length ≤ maxEdges
  isValid : Bool

variable {F : Type}

/-- `chunks[0].chunk_id, chunks[1].chunk_id, ..` -/
def ExecutionPlan.ids (plan : ExecutionPlan F) : List UInt64 :=
  plan.chunks.map (·.chunkId)

/-! ## 2. The check -/

section Check

variable (ids : List UInt64) (edges : List DependencyEdge)

/-- One edge of the counting loop: `in_degree[j]++` at every slot that carries the destination. -/
def countEdge (inDegree : List Int) (e : DependencyEdge) : List Int :=
  List.zipWith (fun id d => if id = e.dstChunkId then d + 1 else d) ids inDegree

/-- `in_degree` after the counting loop. -/
def inDegrees : List Int :=
  edges.foldl (countEdge ids) (List.replicate ids.length 0)

/-- The slots queued before the `while` loop. -/
def startQueue : Worklist :=
  { degree := inDegrees ids edges
    queue := (List.range ids.length).filter fun i => (inDegrees ids edges).getD i 0 = 0
    head := 0 }

/-- One edge of the loop over the edges of the current slot: `in_degree[j]--` at every slot that
    carries the destination, and the slot is queued when this gives zero. -/
def relaxEdge (current : Nat) (w : Worklist) (e : DependencyEdge) : Worklist :=
  if ids[current]? = some e.srcChunkId then
    (List.range ids.length).foldl
      (fun w j => if ids[j]? = some e.dstChunkId then w.hit j else w) w
  else w

/-- The `while (head < tail)` loop; the answer is `processed_nodes_count`. -/
def processLoop : Nat → Worklist → Nat → Option Nat
  | 0, _, _ => none
  | fuel + 1, w, processedNodesCount =>
    match w.queue[w.head]? with
    | none => some processedNodesCount
    | some current =>
      processLoop fuel (edges.foldl (relaxEdge ids current) { w with head := w.head + 1 })
        (processedNodesCount + 1)

end Check

/-- `verify_plan_topology_is_dag`; every pass of the loop takes a slot from the queue, so fuel for
    one pass more than there are slots is enough (`verify_iff_unblocked`). -/
def verifyPlanTopologyIsDag (plan : ExecutionPlan F) : Option Bool :=
  if !plan.isValid || plan.chunks.length == 0 then some false
  else
    (processLoop plan.ids plan.edges (plan.chunks.length + 1) (startQueue plan.ids plan.edges) 0).map
      fun processedNodesCount => processedNodesCount == plan.chunks.length

end VoidOsMerger
