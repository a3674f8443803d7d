/-
  File:      VoidOsMerger/Workload/Ready.lean
  Subject:   PROMOTION OF READY CHUNKS, AND WHY A CHECKED JOB DOES NOT STALL.

  * **`evaluateLoop_eq_map`** -- the in-place loop is a simultaneous update: no pass makes a chunk
    completed or takes that back, so no pass changes what a later one reads;
  * **`accepted_job_never_stalls`** -- a job whose plan the planner's check accepts, with nothing
    running or failed and something left to do, has a ready chunk after the promotion.
-/
import VoidOsMerger.Workload.Model
import VoidOsMerger.Planner.Dag

namespace VoidOsMerger

variable {F : Type}

/-! ## 1. The in-place loop is a simultaneous update -/

/-- What one chunk becomes, read off the states before the call. -/
def promote (edges : List DependencyEdge) (chunks : List (ManagedChunkNode F))
    (c : ManagedChunkNode F) : ManagedChunkNode F :=
  if c.state = .pending ∧ parentsCompleted edges chunks c.chunkId = true then
    { c with state := .ready }
  else c

/-- All that the scan for parents reads of a chunk. -/
def completion (c : ManagedChunkNode F) : UInt64 × Bool :=
  (c.chunkId, c.state == .completed)

theorem completion_promote (edges : List DependencyEdge) (chunks : List (ManagedChunkNode F))
    (c : ManagedChunkNode F) : completion (promote edges chunks c) = completion c := by
  unfold promote
  split
  · rename_i h
    simp [completion, h.1]
  · rfl

theorem parentCompleted_congr (e : DependencyEdge) : ∀ {l l' : List (ManagedChunkNode F)},
    l.map completion = l'.map completion → parentCompleted l e = parentCompleted l' e
  | [], [], _ => rfl
  | [], _ :: _, h => by cases h
  | _ :: _, [], h => by cases h
  | c :: l, c' :: l', h => by
      obtain ⟨hc, hl⟩ := List.cons_eq_cons.mp h
      obtain ⟨hid, hstate⟩ := Prod.mk.inj hc
      have ih := parentCompleted_congr e hl
      unfold parentCompleted at ih ⊢
      by_cases hsrc : c.chunkId = e.srcChunkId
      · rw [List.find?_cons_of_pos (by simpa using hsrc),
          List.find?_cons_of_pos (by simpa [hid] using hsrc)]
        exact hstate
      · rw [List.find?_cons_of_neg (by simpa using hsrc),
          List.find?_cons_of_neg (by simpa [hid] using hsrc)]
        exact ih

theorem promote_congr (edges : List DependencyEdge) {l l' : List (ManagedChunkNode F)}
    (h : l.map completion = l'.map completion) (c : ManagedChunkNode F) :
    promote edges l c = promote edges l' c := by
  have hparents : ∀ id, parentsCompleted edges l id = parentsCompleted edges l' id := fun id => by
    unfold parentsCompleted
    simp only [parentCompleted_congr _ h]
  unfold promote
  rw [hparents]

/-- One pass writes the chunk at its index and nothing else. -/
theorem evaluateChunk_append (edges : List DependencyEdge) (done : List (ManagedChunkNode F))
    (c : ManagedChunkNode F) (rest : List (ManagedChunkNode F)) :
    evaluateChunk edges (done ++ c :: rest) done.length =
      done ++ promote edges (done ++ c :: rest) c :: rest := by
  have hget : (done ++ c :: rest)[done.length]? = some c := by simp
  unfold evaluateChunk promote
  rw [hget]
  dsimp only
  split
  · rw [List.set_append_right _ _ (Nat.le_refl _), Nat.sub_self]
    rfl
  · rfl

/-- The passes that are left, when the chunks already visited agree with the start on what the scan
    reads. -/
theorem evaluatePasses_eq_map (edges : List DependencyEdge) {chunks : List (ManagedChunkNode F)} :
    ∀ (done rest : List (ManagedChunkNode F)),
      (done ++ rest).map completion = chunks.map completion →
      (List.range' done.length rest.length).foldl (evaluateChunk edges) (done ++ rest) =
        done ++ rest.map (promote edges chunks)
  | done, [], _ => by simp
  | done, c :: rest, h => by
      have hstep := evaluateChunk_append edges done c rest
      rw [promote_congr edges h c] at hstep
      have hkeep : ((done ++ [promote edges chunks c]) ++ rest).map completion =
          chunks.map completion := by
        rw [← h]
        simp [completion_promote]
      have ih := evaluatePasses_eq_map edges (done ++ [promote edges chunks c]) rest hkeep
      rw [List.length_append, List.length_singleton, List.append_assoc, List.singleton_append] at ih
      rw [List.length_cons, List.range'_succ, List.foldl_cons, hstep, ih]
      simp

/-- **The in-place loop is the simultaneous update** computed from the states before the call. -/
theorem evaluateLoop_eq_map (edges : List DependencyEdge) (chunks : List (ManagedChunkNode F)) :
    evaluateLoop edges chunks = chunks.map (promote edges chunks) :=
  evaluatePasses_eq_map edges [] chunks rfl

/-! ## 2. A checked job does not stall -/

/-- The plan a job's chunks and edges form. -/
def ActiveWorkloadLifecycle.plan (job : ActiveWorkloadLifecycle F) : ExecutionPlan F where
  chunks := job.chunks.map fun c =>
    { chunkId := c.chunkId
      memoryDemandBytes := c.memoryDemandBytes
      cpuCoresDemand := c.cpuCoresDemand
      targetNodeId := c.targetNodeId
      dataLocalityScore := c.dataLocalityScore }
  chunksFit := by
    rw [List.length_map]
    exact job.chunksFit
  edges := job.edges
  edgesFit := job.edgesFit
  isValid := true

theorem ActiveWorkloadLifecycle.plan_ids (job : ActiveWorkloadLifecycle F) :
    job.plan.ids = job.chunks.map (·.chunkId) := by
  simp [ExecutionPlan.ids, ActiveWorkloadLifecycle.plan]

/-- A pending chunk of which no predecessor is pending has all its parents completed. -/
theorem parentsCompleted_of_minimal {job : ActiveWorkloadLifecycle F}
    (hstates : ∀ c ∈ job.chunks, c.state = .pending ∨ c.state = .completed) {id : UInt64}
    (hid : id ∈ job.plan.ids)
    (hmin : ∀ p ∈ job.chunks, p.state = .pending → ¬ job.plan.PlanEdge p.chunkId id) :
    parentsCompleted job.edges job.chunks id = true := by
  unfold parentsCompleted
  refine List.all_eq_true.mpr fun e he => ?_
  by_cases hdst : e.dstChunkId = id
  · have hparent : parentCompleted job.chunks e = true := by
      unfold parentCompleted
      cases hfind : job.chunks.find? fun p => p.chunkId == e.srcChunkId with
      | none => rfl
      | some p =>
          have hp : p ∈ job.chunks := List.mem_of_find?_eq_some hfind
          have hsrc : p.chunkId = e.srcChunkId := by simpa using List.find?_some hfind
          have hpids : p.chunkId ∈ job.plan.ids := job.plan_ids ▸ List.mem_map_of_mem hp
          rcases hstates p hp with hpending | hdone
          · refine absurd ⟨hpids, hid, ?_⟩ (hmin p hp hpending)
            rw [hsrc, ← hdst]
            exact he
          · simp [hdone]
    simp [hparent]
  · simp [hdst]

/-- **A checked job does not stall**: if the planner's check accepts the plan of a job with distinct
    chunk ids, no chunk is running or failed and not all are completed, then some chunk is ready
    after `evaluate_ready_chunks`. -/
theorem accepted_job_never_stalls (job : ActiveWorkloadLifecycle F)
    (hids : (job.chunks.map (·.chunkId)).Nodup)
    (haccept : verifyPlanTopologyIsDag job.plan = some true)
    (hidle : ∀ c ∈ job.chunks, c.state ≠ .running ∧ c.state ≠ .failed)
    (hopen : ∃ c ∈ job.chunks, c.state ≠ .completed) :
    ∃ c ∈ (evaluateReadyChunks job).chunks, c.state = .ready := by
  have hchunks : (evaluateReadyChunks job).chunks =
      job.chunks.map (promote job.edges job.chunks) := evaluateLoop_eq_map job.edges job.chunks
  rw [hchunks]
  by_cases hready : ∃ c ∈ job.chunks, c.state = .ready
  · obtain ⟨c, hc, hcs⟩ := hready
    refine ⟨promote job.edges job.chunks c, List.mem_map_of_mem hc, ?_⟩
    simp [promote, hcs]
  · have hstates : ∀ c ∈ job.chunks, c.state = .pending ∨ c.state = .completed := fun c hc => by
      have hr : c.state ≠ .ready := fun h => hready ⟨c, hc, h⟩
      have hi := hidle c hc
      cases hs : c.state <;> simp_all
    -- the check gives acyclicity, and acyclicity a pending chunk with no pending predecessor
    obtain ⟨c₀, hc₀, hopen₀⟩ := hopen
    have hne : job.chunks.filter (fun c => c.state == .pending) ≠ [] :=
      List.ne_nil_of_mem (List.mem_filter.mpr
        ⟨hc₀, by simpa using (hstates c₀ hc₀).resolve_right hopen₀⟩)
    have hacyclic := (dag_of_verify (job.plan_ids ▸ hids) haccept).2
    obtain ⟨c, hc, hmin⟩ :=
      (hacyclic.comap fun p : ManagedChunkNode F => p.chunkId).exists_minimal hne
    obtain ⟨hc, hpending⟩ := List.mem_filter.mp hc
    have hparents := parentsCompleted_of_minimal hstates
      (job.plan_ids ▸ List.mem_map_of_mem hc : c.chunkId ∈ job.plan.ids)
      fun p hp hps => hmin p (List.mem_filter.mpr ⟨hp, by simpa using hps⟩)
    refine ⟨promote job.edges job.chunks c, List.mem_map_of_mem hc, ?_⟩
    unfold promote
    rw [if_pos ⟨by simpa using hpending, hparents⟩]

/-- A chunk as the planner hands it over, in a given state. -/
def plannedChunk (id : UInt64) (state : ChunkState) : ManagedChunkNode (Option ℚ) where
  chunkId := id
  memoryDemandBytes := 64
  cpuCoresDemand := 2
  targetNodeId := 0
  dataLocalityScore := some 1
  state := state
  assignedWorker := NulBuf.copy 63 ⟨[], noNul_nil⟩
  outputChecksum := NulBuf.copy 63 ⟨[], noNul_nil⟩

/-- A job of three chunks in a row, the first one completed. -/
def pipelineJob : ActiveWorkloadLifecycle (Option ℚ) where
  workloadId := 1001
  name := NulBuf.copy 63 ⟨[106], by simp⟩
  state := .executing
  startTimestampMs := 0
  deadlineSeconds := 60
  chunks := [plannedChunk 1 .completed, plannedChunk 2 .pending, plannedChunk 3 .pending]
  chunksFit := by decide
  edges := [⟨1, 2⟩, ⟨2, 3⟩]
  edgesFit := by decide
  overallProgress := some 0
  aggregatedResultHash := NulBuf.copy 63 ⟨[], noNul_nil⟩

theorem accepted_job_never_stalls_pipelineJob :
    ∃ c ∈ (evaluateReadyChunks pipelineJob).chunks, c.state = .ready :=
  accepted_job_never_stalls pipelineJob (by decide) (by decide +kernel) (by decide) (by decide)

end VoidOsMerger
