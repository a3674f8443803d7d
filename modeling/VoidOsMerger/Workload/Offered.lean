/-
  File:      VoidOsMerger/Workload/Offered.lean
  Subject:   WHEN ONLY DEPENDENCY-READY CHUNKS ARE OFFERED.

  `evaluate_ready_chunks` looks at pending chunks only: a chunk once ready stays ready, whatever is
  reported for its predecessors later.

  * `parentsCompleted_iff` -- what the scan for parents decides, where chunk ids are distinct;
  * `justified_evaluated_iff` -- the promotion offers no chunk too early;
  * **`evaluate_simultaneous`** -- it is the simultaneous update by that decision, whatever the order of
    the arrays;
  * `justified_written_iff` -- a result does so exactly when it reports a chunk as ready before its
    predecessors are completed, or takes back the completion of a predecessor;
  * **`ready_justified_iff`** -- over whole runs.
-/
import VoidOsMerger.Workload.Terminal

namespace VoidOsMerger

variable {F : Type}

/-! ## 1. Predecessors -/

/-- Every source of an edge into the chunk is completed. -/
def PredecessorsCompleted (edges : List DependencyEdge) (chunks : List (ManagedChunkNode F))
    (id : UInt64) : Prop :=
  ∀ e ∈ edges, e.dstChunkId = id → ∀ p ∈ chunks, p.chunkId = e.srcChunkId → p.state = .completed

/-- Every ready chunk has its predecessors completed. -/
def ActiveWorkloadLifecycle.ReadyJustified (job : ActiveWorkloadLifecycle F) : Prop :=
  ∀ c ∈ job.chunks, c.state = .ready → PredecessorsCompleted job.edges job.chunks c.chunkId

instance (edges : List DependencyEdge) (chunks : List (ManagedChunkNode F)) (id : UInt64) :
    Decidable (PredecessorsCompleted edges chunks id) :=
  inferInstanceAs (Decidable (∀ e ∈ edges, _ → ∀ p ∈ chunks, _ → _))

instance (job : ActiveWorkloadLifecycle F) : Decidable job.ReadyJustified :=
  inferInstanceAs (Decidable (∀ c ∈ job.chunks, _ → _))

/-- Chunk ids are distinct and no chunk depends on itself. -/
structure ActiveWorkloadLifecycle.WellFormed (job : ActiveWorkloadLifecycle F) : Prop where
  ids : (job.chunks.map (·.chunkId)).Nodup
  noLoop : ∀ e ∈ job.edges, e.srcChunkId ≠ e.dstChunkId

theorem parentCompleted_iff {chunks : List (ManagedChunkNode F)}
    (hids : (chunks.map (·.chunkId)).Nodup) (e : DependencyEdge) :
    parentCompleted chunks e = true ↔
      ∀ p ∈ chunks, p.chunkId = e.srcChunkId → p.state = .completed := by
  unfold parentCompleted
  cases hfind : chunks.find? fun p => p.chunkId == e.srcChunkId with
  | none =>
    refine iff_of_true rfl fun p hp hsrc => ?_
    exact absurd (beq_iff_eq.mpr hsrc) (List.find?_eq_none.mp hfind p hp)
  | some q =>
    have hq : q ∈ chunks := List.mem_of_find?_eq_some hfind
    have hsrc : q.chunkId = e.srcChunkId := by simpa using List.find?_some hfind
    constructor
    · intro hdone p hp hpsrc
      obtain rfl : p = q := List.inj_on_of_nodup_map hids hp hq (hpsrc.trans hsrc.symm)
      simpa using hdone
    · intro h
      simpa using h q hq hsrc

/-- **What the scan for parents decides.** -/
theorem parentsCompleted_iff (edges : List DependencyEdge) {chunks : List (ManagedChunkNode F)}
    (hids : (chunks.map (·.chunkId)).Nodup) (id : UInt64) :
    parentsCompleted edges chunks id = true ↔ PredecessorsCompleted edges chunks id := by
  unfold parentsCompleted PredecessorsCompleted
  rw [List.all_eq_true]
  refine forall₂_congr fun e _ => ?_
  rw [Bool.or_eq_true, parentCompleted_iff hids, bne_iff_ne, ← Decidable.imp_iff_not_or]

/-! ## 2. The promotion -/

@[simp] theorem promote_chunkId (edges : List DependencyEdge) (chunks : List (ManagedChunkNode F))
    (c : ManagedChunkNode F) : (promote edges chunks c).chunkId = c.chunkId := by
  unfold promote
  split <;> rfl

theorem predecessorsCompleted_promoted (edges : List DependencyEdge)
    (chunks : List (ManagedChunkNode F)) (id : UInt64) :
    PredecessorsCompleted edges (chunks.map (promote edges chunks)) id ↔
      PredecessorsCompleted edges chunks id := by
  unfold PredecessorsCompleted
  simp only [List.forall_mem_map, promote_chunkId,
    promote_state_eq_iff edges chunks _ .completed (by decide) (by decide)]

/-- **The promotion offers no chunk too early**, and takes no offer back. -/
theorem justified_evaluated_iff {job : ActiveWorkloadLifecycle F} (hwf : job.WellFormed) :
    (evaluateReadyChunks job).ReadyJustified ↔ job.ReadyJustified := by
  have hedges : (evaluateReadyChunks job).edges = job.edges := rfl
  unfold ActiveWorkloadLifecycle.ReadyJustified
  rw [hedges, evaluate_chunks, List.forall_mem_map]
  simp only [promote_chunkId, predecessorsCompleted_promoted]
  refine forall₂_congr fun c _ => ?_
  unfold promote
  split
  · -- promoted: the scan has found the predecessors completed
    rename_i h
    exact iff_of_true (fun _ => (parentsCompleted_iff job.edges hwf.ids c.chunkId).mp h.2)
      fun hready => by rw [h.1] at hready; cases hready
  · exact Iff.rfl

/-- What a chunk becomes in the simultaneous update: ready, if it is pending and its predecessors are
    completed. -/
def promoteAtOnce (edges : List DependencyEdge) (chunks : List (ManagedChunkNode F))
    (c : ManagedChunkNode F) : ManagedChunkNode F :=
  if c.state = .pending ∧ PredecessorsCompleted edges chunks c.chunkId then
    { c with state := .ready }
  else c

theorem promote_eq_atOnce (edges : List DependencyEdge) {chunks : List (ManagedChunkNode F)}
    (hids : (chunks.map (·.chunkId)).Nodup) : promote edges chunks = promoteAtOnce edges chunks := by
  funext c
  unfold promote promoteAtOnce
  simp only [parentsCompleted_iff edges hids]

/-- A promoted chunk is no longer pending, and one left pending stays so. -/
theorem promote_promote (edges : List DependencyEdge) (chunks : List (ManagedChunkNode F))
    (c : ManagedChunkNode F) :
    promote edges chunks (promote edges chunks c) = promote edges chunks c := by
  by_cases h : c.state = .pending ∧ parentsCompleted edges chunks c.chunkId = true
  · have hready : promote edges chunks c = { c with state := .ready } := if_pos h
    rw [hready]
    exact if_neg fun hagain => ChunkState.noConfusion hagain.1
  · have hkeep : promote edges chunks c = c := if_neg h
    rw [hkeep, hkeep]

theorem evaluate_evaluate (job : ActiveWorkloadLifecycle F) :
    (evaluateReadyChunks (evaluateReadyChunks job)).chunks = (evaluateReadyChunks job).chunks := by
  have hsame : (job.chunks.map (promote job.edges job.chunks)).map completion =
      job.chunks.map completion := by
    simp [completion_promote]
  have hedges : (evaluateReadyChunks job).edges = job.edges := rfl
  rw [evaluate_chunks, evaluate_chunks, hedges, List.map_map]
  refine List.map_congr_left fun c _ => ?_
  rw [Function.comp_apply, promote_congr job.edges hsame]
  exact promote_promote job.edges job.chunks c

/-- The update does not see the order of the chunks and of the edges. -/
theorem promoteAtOnce_perm {edges edges' : List DependencyEdge}
    {chunks chunks' : List (ManagedChunkNode F)} (hedges : edges'.Perm edges)
    (hchunks : chunks'.Perm chunks) : promoteAtOnce edges' chunks' = promoteAtOnce edges chunks := by
  funext c
  have hpred : PredecessorsCompleted edges' chunks' c.chunkId ↔
      PredecessorsCompleted edges chunks c.chunkId := by
    simp only [PredecessorsCompleted, hedges.mem_iff, hchunks.mem_iff]
  exact if_congr (and_congr_right fun _ => hpred) rfl rfl

/-- **The loop in place is the simultaneous update.** In a job with distinct chunk ids, whatever its
    edges, `evaluate_ready_chunks` makes ready exactly the pending chunks whose predecessors, among the
    chunks of the job, are completed before the call, and changes no other; a second call changes
    nothing; and in a job with the same chunks and edges in another order every chunk becomes the
    same. -/
theorem evaluate_simultaneous (job : ActiveWorkloadLifecycle F)
    (hids : (job.chunks.map (·.chunkId)).Nodup) :
    (evaluateReadyChunks job).chunks = job.chunks.map (promoteAtOnce job.edges job.chunks) ∧
    evaluateReadyChunks (evaluateReadyChunks job) = evaluateReadyChunks job ∧
    ∀ job' : ActiveWorkloadLifecycle F, job'.chunks.Perm job.chunks → job'.edges.Perm job.edges →
      (evaluateReadyChunks job').chunks = job'.chunks.map (promoteAtOnce job.edges job.chunks) ∧
      (evaluateReadyChunks job').chunks.Perm (evaluateReadyChunks job).chunks := by
  have hloop : ∀ job : ActiveWorkloadLifecycle F, (job.chunks.map (·.chunkId)).Nodup →
      (evaluateReadyChunks job).chunks = job.chunks.map (promoteAtOnce job.edges job.chunks) := by
    intro job hids
    rw [evaluate_chunks, promote_eq_atOnce job.edges hids]
  refine ⟨hloop job hids, ?_, fun job' hchunks hedges => ?_⟩
  · have htwice := evaluate_evaluate job
    unfold evaluateReadyChunks at htwice ⊢
    congr 1
  · have hids' : (job'.chunks.map (·.chunkId)).Nodup :=
      ((hchunks.map fun c => c.chunkId).nodup_iff).mpr hids
    have hloop' := hloop job' hids'
    rw [promoteAtOnce_perm hedges hchunks] at hloop'
    refine ⟨hloop', ?_⟩
    rw [hloop', hloop job hids]
    exact hchunks.map _

/-- The same in the pipeline of three chunks, with its arrays reversed. -/
theorem evaluate_simultaneous_pipelineJob :
    (pipelineJob.chunks.map (·.chunkId)).Nodup ∧
      (evaluateReadyChunks { pipelineJob with
        chunks := pipelineJob.chunks.reverse
        chunksFit := by decide
        edges := pipelineJob.edges.reverse
        edgesFit := by decide }).chunks.Perm (evaluateReadyChunks pipelineJob).chunks :=
  ⟨by decide, ((evaluate_simultaneous pipelineJob (by decide)).2.2 _
    (List.reverse_perm _) (List.reverse_perm _)).2⟩

/-! ## 3. A result -/

/-- A result that offers no chunk too early: ready only where the predecessors are completed, and
    another state than completed only where no successor is ready. -/
def ActiveWorkloadLifecycle.OffersInOrder (job : ActiveWorkloadLifecycle F) (chunkId : UInt64)
    (resultState : ChunkState) : Prop :=
  (resultState = .ready → PredecessorsCompleted job.edges job.chunks chunkId) ∧
  (resultState ≠ .completed → ∀ c ∈ job.chunks, c.state = .ready →
    ∀ e ∈ job.edges, e.dstChunkId = c.chunkId → e.srcChunkId ≠ chunkId)

/-- **Writing a result** keeps the ready chunks justified exactly under that condition. -/
theorem justified_written_iff {job : ActiveWorkloadLifecycle F} (hwf : job.WellFormed)
    (hjust : job.ReadyJustified) {chunkId : UInt64} (resultState : ChunkState)
    (checksum : Option CStr) (hfound : ∃ c ∈ job.chunks, c.chunkId = chunkId) :
    (writeResult job chunkId resultState checksum).ReadyJustified ↔
      job.OffersInOrder chunkId resultState := by
  have hmem : ∀ c, c ∈ (writeResult job chunkId resultState checksum).chunks ↔
      (c ∈ job.chunks ∧ c.chunkId ≠ chunkId) ∨
        ∃ c₀ ∈ job.chunks, c₀.chunkId = chunkId ∧ c = c₀.report resultState checksum := fun c =>
    mem_modifyFirst_key ManagedChunkNode.chunkId (fun _ => beq_iff_eq) hwf.ids
  obtain ⟨c₀, hc₀, hid₀⟩ := hfound
  have hnew := (hmem (c₀.report resultState checksum)).mpr (Or.inr ⟨c₀, hc₀, hid₀, rfl⟩)
  constructor
  · intro h
    constructor
    · intro hready e he hdst p hp hsrc
      have hne : p.chunkId ≠ chunkId := fun heq => hwf.noLoop e he (by rw [← hsrc, heq, hdst])
      exact h _ hnew hready e he (hdst.trans hid₀.symm) p ((hmem p).mpr (Or.inl ⟨hp, hne⟩)) hsrc
    · intro hopen c hc hready e he hdst hsrc
      have hne : c.chunkId ≠ chunkId := fun heq => hwf.noLoop e he (by rw [hsrc, hdst, heq])
      exact hopen (h c ((hmem c).mpr (Or.inl ⟨hc, hne⟩)) hready e he hdst _ hnew
        (hid₀.trans hsrc.symm))
  · rintro ⟨hearly, hback⟩ c hc hready e he hdst p hp hsrc
    rcases (hmem c).mp hc with ⟨hcold, -⟩ | ⟨c₁, -, hid₁, rfl⟩
    · rcases (hmem p).mp hp with ⟨hpold, -⟩ | ⟨p₁, -, hpid, rfl⟩
      · exact hjust c hcold hready e he hdst p hpold hsrc
      · by_contra hopen
        exact hback hopen c hcold hready e he hdst (hsrc.symm.trans hpid)
    · have hdst' : e.dstChunkId = chunkId := hdst.trans hid₁
      rcases (hmem p).mp hp with ⟨hpold, -⟩ | ⟨p₁, -, hpid, rfl⟩
      · exact hearly hready e he hdst' p hpold hsrc
      · exact absurd (hsrc.symm.trans (hpid.trans hdst'.symm)) (hwf.noLoop e he)

/-! ## 4. Planned jobs -/

/-- The index of a planned chunk is in the low bits of its id. -/
theorem plannedId_low (workloadId : UInt64) {i : UInt64} (hi : i.toNat < 2 ^ 16) :
    (plannedId workloadId i).toNat % 2 ^ 16 = i.toNat := by
  have hshift : workloadId.toNat * 2 ^ (UInt64.toNat 16 % 64) % 2 ^ 16 = 0 := Nat.mul_mod_left _ _
  unfold plannedId
  rw [UInt64.toNat_or, UInt64.toNat_shiftLeft, Nat.or_mod_two_pow, Nat.mod_eq_of_lt hi,
    Nat.mod_mod_of_dvd _ (by decide), Nat.shiftLeft_eq, hshift, Nat.zero_or]

theorem plannedId_ne (workloadId : UInt64) {i j : UInt64} (hi : i.toNat < 2 ^ 16)
    (hj : j.toNat < 2 ^ 16) (hne : i ≠ j) : plannedId workloadId i ≠ plannedId workloadId j := by
  intro h
  have hlow := congrArg (fun id => id.toNat % 2 ^ 16) h
  simp only [plannedId_low workloadId hi, plannedId_low workloadId hj] at hlow
  exact hne (UInt64.toNat_inj.mp hlow)

/-- Well-formedness reads the ids and the edges, which are written once, when a job is planned. -/
theorem ActiveWorkloadLifecycle.WellFormed.of_same {job job' : ActiveWorkloadLifecycle F}
    (hwf : job.WellFormed) (hids : job'.chunks.map (·.chunkId) = job.chunks.map (·.chunkId))
    (hedges : job'.edges = job.edges) : job'.WellFormed :=
  ⟨hids ▸ hwf.ids, hedges ▸ hwf.noLoop⟩

theorem evaluate_wellFormed {job : ActiveWorkloadLifecycle F} (hwf : job.WellFormed) :
    (evaluateReadyChunks job).WellFormed := by
  refine hwf.of_same ?_ rfl
  rw [evaluate_chunks, List.map_map]
  exact List.map_congr_left fun c _ => promote_chunkId job.edges job.chunks c

theorem writeResult_wellFormed {job : ActiveWorkloadLifecycle F} (hwf : job.WellFormed)
    (chunkId : UInt64) (resultState : ChunkState) (checksum : Option CStr) :
    (writeResult job chunkId resultState checksum).WellFormed := by
  refine hwf.of_same (map_modifyFirst _ _ _ ?_ job.chunks) rfl
  exact fun _ => rfl

section Runs

variable [DoubleArith F]

theorem recalculate_graph (job : ActiveWorkloadLifecycle F) :
    (recalculateJobProgress job).chunks = job.chunks ∧
      (recalculateJobProgress job).edges = job.edges := by
  simp only [recalculateJobProgress]
  split
  · exact ⟨rfl, rfl⟩
  · split <;> exact ⟨rfl, rfl⟩

theorem reportChunk_wellFormed {job : ActiveWorkloadLifecycle F} (hwf : job.WellFormed)
    (chunkId : UInt64) (resultState : ChunkState) (checksum : Option CStr) :
    (reportChunk job chunkId resultState checksum).WellFormed := by
  have hwritten := evaluate_wellFormed (writeResult_wellFormed hwf chunkId resultState checksum)
  obtain ⟨hchunks, hedges⟩ := recalculate_graph
    (evaluateReadyChunks (writeResult job chunkId resultState checksum))
  exact hwritten.of_same (congrArg (List.map _) hchunks) hedges

/-- **A result** keeps the ready chunks of its job justified exactly when it offers in order. -/
theorem justified_reported_iff {job : ActiveWorkloadLifecycle F} (hwf : job.WellFormed)
    (hjust : job.ReadyJustified) {chunkId : UInt64} (resultState : ChunkState)
    (checksum : Option CStr) (hfound : ∃ c ∈ job.chunks, c.chunkId = chunkId) :
    (reportChunk job chunkId resultState checksum).ReadyJustified ↔
      job.OffersInOrder chunkId resultState := by
  have hwritten := writeResult_wellFormed hwf chunkId resultState checksum
  obtain ⟨hchunks, hedges⟩ := recalculate_graph
    (evaluateReadyChunks (writeResult job chunkId resultState checksum))
  have hrecalculated : (reportChunk job chunkId resultState checksum).ReadyJustified ↔
      (evaluateReadyChunks (writeResult job chunkId resultState checksum)).ReadyJustified := by
    unfold reportChunk ActiveWorkloadLifecycle.ReadyJustified
    rw [hchunks, hedges]
  rw [hrecalculated, justified_evaluated_iff hwritten,
    justified_written_iff hwf hjust resultState checksum hfound]

theorem plannedJob_wellFormed (desc : UserWorkloadDesc) (workloadId currentTimeMs : UInt64) :
    (plannedJob desc workloadId currentTimeMs : ActiveWorkloadLifecycle F).WellFormed := by
  have h01 := plannedId_ne workloadId (i := 0) (j := 1) (by decide) (by decide) (by decide)
  have h02 := plannedId_ne workloadId (i := 0) (j := 2) (by decide) (by decide) (by decide)
  have h12 := plannedId_ne workloadId (i := 1) (j := 2) (by decide) (by decide) (by decide)
  constructor
  · simp [plannedJob, mockChunk, h01, h02, h12]
  · intro e he
    rcases List.mem_pair.mp he with rfl | rfl
    · exact h01
    · exact h12

theorem plannedJob_justified (desc : UserWorkloadDesc) (workloadId currentTimeMs : UInt64) :
    (plannedJob desc workloadId currentTimeMs : ActiveWorkloadLifecycle F).ReadyJustified := by
  intro c hc hready
  have hpending : c.state = .pending := by
    simp only [plannedJob, List.mem_cons, List.not_mem_nil, or_false] at hc
    rcases hc with rfl | rfl | rfl <;> rfl
  rw [hpending] at hready
  cases hready

/-! ## 5. Whole runs -/

/-- Every ready chunk of the store has its predecessors completed. -/
def WorkloadContext.ReadyJustified (ctx : WorkloadContext F) : Prop :=
  ∀ job ∈ ctx.jobs, job.ReadyJustified

instance (ctx : WorkloadContext F) : Decidable ctx.ReadyJustified :=
  inferInstanceAs (Decidable (∀ job ∈ ctx.jobs, _))

def WorkloadContext.WellFormed (ctx : WorkloadContext F) : Prop :=
  ∀ job ∈ ctx.jobs, job.WellFormed

/-- The steps that offer no chunk too early: all but results out of order. -/
def OffersInOrder (ctx : WorkloadContext F) : WorkloadOp → Prop
  | .updateChunkResult workloadId chunkId resultState _ =>
    ∀ job, ctx.jobs.find? (hasChunk workloadId chunkId) = some job →
      job.OffersInOrder chunkId resultState
  | _ => True

/-- What holds of every planned job and is kept by every change of a job holds of every job after
    a step. -/
theorem jobs_forall_next {P : ActiveWorkloadLifecycle F → Prop} {ctx : WorkloadContext F}
    (o : WorkloadOp) (h : ∀ job ∈ ctx.jobs, P job)
    (hplan : ∀ desc id now, P (evaluateReadyChunks (plannedJob desc id now)))
    (hstate : ∀ job st, P job → P { job with state := st })
    (hreport : ∀ workloadId chunkId resultState checksum,
      o = .updateChunkResult workloadId chunkId resultState checksum →
      ∀ job, ctx.jobs.find? (hasChunk workloadId chunkId) = some job →
        P (reportChunk job chunkId resultState checksum)) :
    ∀ job ∈ (workloadMachine.next ctx o).jobs, P job := by
  cases o with
  | submit input currentTimeMs =>
    show ∀ job ∈ (vomWorkloadSubmit ctx input currentTimeMs).1.jobs, P job
    unfold vomWorkloadSubmit
    split
    · exact h
    · split
      · exact h
      · intro job hjob
        rcases List.mem_append.mp hjob with hold | hnew
        · exact h job hold
        · rw [List.mem_singleton.mp hnew]
          exact hplan _ _ _
  | cancel workloadId =>
    refine (forall_mem_modifyFirst h).mpr fun job hfind => ?_
    exact hstate job .cancelled (h job (List.mem_of_find?_eq_some hfind))
  | updateChunkResult workloadId chunkId resultState checksum =>
    exact (forall_mem_modifyFirst h).mpr (hreport _ _ _ _ rfl)
  | checkDeadlines currentTimeMs =>
    refine List.forall_mem_map.mpr fun job hjob => ?_
    unfold checkDeadline
    split
    · exact hstate job .failed (h job hjob)
    · exact h job hjob

theorem next_wellFormed {ctx : WorkloadContext F} (hwf : ctx.WellFormed) (o : WorkloadOp) :
    (workloadMachine.next ctx o).WellFormed := by
  refine jobs_forall_next o hwf (fun desc id now => ?_) (fun job _ h => ⟨h.ids, h.noLoop⟩) ?_
  · exact evaluate_wellFormed (plannedJob_wellFormed desc id now)
  · intro _ chunkId resultState checksum _ job hfind
    exact reportChunk_wellFormed (hwf job (List.mem_of_find?_eq_some hfind)) chunkId resultState
      checksum

/-- One step keeps the ready chunks justified exactly when it offers in order. -/
theorem next_justified_iff {ctx : WorkloadContext F} (hwf : ctx.WellFormed)
    (hjust : ctx.ReadyJustified) (o : WorkloadOp) :
    (workloadMachine.next ctx o).ReadyJustified ↔ OffersInOrder ctx o := by
  have hreport : ∀ {workloadId chunkId : UInt64} (resultState : ChunkState) (checksum : Option CStr)
      {job : ActiveWorkloadLifecycle F},
      ctx.jobs.find? (hasChunk workloadId chunkId) = some job →
        ((reportChunk job chunkId resultState checksum).ReadyJustified ↔
          job.OffersInOrder chunkId resultState) := by
    intro workloadId chunkId resultState checksum job hfind
    have hjob := List.mem_of_find?_eq_some hfind
    refine justified_reported_iff (hwf job hjob) (hjust job hjob) resultState checksum ?_
    have hhit : hasChunk workloadId chunkId job = true := List.find?_some hfind
    simpa using (Bool.and_eq_true_iff.mp hhit).2
  constructor
  · intro h
    cases o with
    | updateChunkResult workloadId chunkId resultState checksum =>
      intro job hfind
      exact (hreport resultState checksum hfind).mp ((forall_mem_modifyFirst hjust).mp h job hfind)
    | _ => trivial
  · intro h
    refine jobs_forall_next o hjust (fun desc id now => ?_) (fun job _ hj => hj) ?_
    · exact (justified_evaluated_iff (plannedJob_wellFormed desc id now)).mpr
        (plannedJob_justified desc id now)
    · rintro workloadId chunkId resultState checksum rfl job hfind
      exact (hreport resultState checksum hfind).mpr (h job hfind)

/-- **When only dependency-ready chunks are offered.** In every state of a run from
    `vom_workload_init` every ready chunk has all its predecessors completed, exactly when every
    result of the run is in order where it arrives. -/
theorem ready_justified_iff (ops : List WorkloadOp) :
    (∀ pre, pre <+: ops →
      (workloadMachine.run (vomWorkloadInit : WorkloadContext F) pre).ReadyJustified) ↔
    workloadMachine.Legal OffersInOrder (vomWorkloadInit : WorkloadContext F) ops := by
  have hstart : (vomWorkloadInit : WorkloadContext F).ReadyJustified := fun job hjob => by cases hjob
  have hwf : (vomWorkloadInit : WorkloadContext F).WellFormed := fun job hjob => by cases hjob
  refine workloadMachine.always_iff_legal (fun ctx => ctx.WellFormed ∧ ctx.ReadyJustified)
    (fun ctx o hinv _ => next_justified_iff hinv.1 hinv.2 o) ?_ hstart ⟨hwf, hstart⟩
    (workloadMachine.legal_true _ ops)
  exact fun ctx o hinv _ hnext => ⟨next_wellFormed hinv.1 o, hnext⟩

end Runs

/-- The first of three chunks in a row is completed, which makes the second one ready, and then
    reported as failed. -/
def completionTakenBack : List WorkloadOp :=
  [.submit smallWorkload 0, .updateChunkResult 1001 (plannedId 1001 0) .completed none,
    .updateChunkResult 1001 (plannedId 1001 0) .failed none]

/-- **A completion taken back leaves the successor ready.** -/
theorem ready_after_failed_predecessor :
    ¬ ∀ ops : List WorkloadOp,
      (workloadMachine.run (vomWorkloadInit : WorkloadContext (Option ℚ)) ops).ReadyJustified := by
  intro h
  have hready : ¬ (workloadMachine.run (vomWorkloadInit : WorkloadContext (Option ℚ))
      completionTakenBack).ReadyJustified := by decide +kernel
  exact hready (h completionTakenBack)

end VoidOsMerger
