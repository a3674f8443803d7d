/-
  File:      VoidOsMerger/Workload/Confluence.lean
  Subject:   RESULTS MAY ARRIVE IN ANY ORDER.

  Every result runs a promotion and a recomputation over its job, so two orders pass through different
  jobs. What a job is after some results depends on the set of the chunks reported, up to the states
  of the chunks that are not (`Partway`), and once all are reported nothing is left open.

  * `Partway.report` -- one result;
  * `partway_reports` -- any list of results, those for other jobs in between;
  * **`aggregation_order_independent`** -- every order ends in `completedJob`.
-/
import VoidOsMerger.Workload.Offered

namespace VoidOsMerger

variable {F : Type}

/-! ## 1. Reports -/

/-- The arguments of `vom_workload_update_chunk_result`. -/
structure ChunkReport where
  workloadId : UInt64
  chunkId : UInt64
  resultState : ChunkState
  checksum : Option CStr
  deriving DecidableEq

def ChunkReport.op (r : ChunkReport) : WorkloadOp :=
  .updateChunkResult r.workloadId r.chunkId r.resultState r.checksum

/-- The reports that complete a chunk each, with the chunk's checksum. -/
def ActiveWorkloadLifecycle.completions (job : ActiveWorkloadLifecycle F)
    (checksum : UInt64 → Option CStr) : List ChunkReport :=
  job.chunks.map fun c => ⟨job.workloadId, c.chunkId, .completed, checksum c.chunkId⟩

/-- The reports for one job, in the order they arrive. -/
def reportsFor (workloadId : UInt64) (reports : List ChunkReport) : List ChunkReport :=
  reports.filter fun r => r.workloadId == workloadId

/-- The chunks of a job, all completed with their checksums. -/
def ActiveWorkloadLifecycle.completedChunks (job : ActiveWorkloadLifecycle F)
    (checksum : UInt64 → Option CStr) : List (ManagedChunkNode F) :=
  job.chunks.map fun c => c.report .completed (checksum c.chunkId)

/-- The job with all its chunks completed. -/
def completedJob [DoubleArith F] (job : ActiveWorkloadLifecycle F)
    (checksum : UInt64 → Option CStr) : ActiveWorkloadLifecycle F where
  workloadId := job.workloadId
  name := job.name
  state := .completed
  startTimestampMs := job.startTimestampMs
  deadlineSeconds := job.deadlineSeconds
  chunks := job.completedChunks checksum
  chunksFit := (List.length_map _).trans_le job.chunksFit
  edges := job.edges
  edgesFit := job.edgesFit
  overallProgress :=
    DoubleArith.div (DoubleArith.ofInt job.chunks.length) (DoubleArith.ofInt job.chunks.length)
  aggregatedResultHash := NulBuf.copy 63 (hashText (checksumHash (job.completedChunks checksum)))

/-! ## 2. A job partway -/

/-- What becomes of a chunk: reported, it is completed with its checksum; else only its state may
    have changed. -/
def ChunkPartway (checksum : UInt64 → Option CStr) (done : List UInt64)
    (c c' : ManagedChunkNode F) : Prop :=
  if c.chunkId ∈ done then c' = c.report .completed (checksum c.chunkId)
  else c' = { c with state := c'.state }

/-- The fields that no report writes. -/
structure SameJob (job cur : ActiveWorkloadLifecycle F) : Prop where
  workloadId : cur.workloadId = job.workloadId
  name : cur.name = job.name
  startTimestampMs : cur.startTimestampMs = job.startTimestampMs
  deadlineSeconds : cur.deadlineSeconds = job.deadlineSeconds
  edges : cur.edges = job.edges

theorem SameJob.refl (job : ActiveWorkloadLifecycle F) : SameJob job job := ⟨rfl, rfl, rfl, rfl, rfl⟩

/-- A job whose chunks in `done` have been reported. -/
structure Partway [DoubleArith F] (job : ActiveWorkloadLifecycle F) (checksum : UInt64 → Option CStr)
    (done : List UInt64) (cur : ActiveWorkloadLifecycle F) : Prop where
  same : SameJob job cur
  chunks : List.Forall₂ (ChunkPartway checksum done) job.chunks cur.chunks
  completed : (∀ c ∈ job.chunks, c.chunkId ∈ done) → cur = completedJob job checksum

/-- A second report of the same completion writes nothing new. -/
theorem report_report (c : ManagedChunkNode F) (checksum : Option CStr) :
    (c.report .completed checksum).report .completed checksum = c.report .completed checksum := by
  cases checksum <;> rfl

theorem ChunkPartway.chunkId {checksum : UInt64 → Option CStr} {done : List UInt64}
    {c c' : ManagedChunkNode F} (h : ChunkPartway checksum done c c') : c'.chunkId = c.chunkId := by
  unfold ChunkPartway at h
  split at h
  · rw [h]
    rfl
  · rw [h]

/-- The report of the chunk itself. -/
theorem ChunkPartway.report {checksum : UInt64 → Option CStr} {done : List UInt64}
    {c c' : ManagedChunkNode F} (h : ChunkPartway checksum done c c') :
    c'.report .completed (checksum c.chunkId) = c.report .completed (checksum c.chunkId) := by
  unfold ChunkPartway at h
  split at h
  · rw [h, report_report]
  · rw [h]
    rfl

theorem promote_completed (edges : List DependencyEdge) (chunks : List (ManagedChunkNode F))
    {c : ManagedChunkNode F} (h : c.state = .completed) : promote edges chunks c = c := by
  unfold promote
  rw [if_neg]
  rintro ⟨hpending, -⟩
  rw [h] at hpending
  cases hpending

/-- One chunk through a report of the chunk with the id and the promotion after it. -/
theorem ChunkPartway.step {checksum : UInt64 → Option CStr} {done : List UInt64}
    {c c' : ManagedChunkNode F} (h : ChunkPartway checksum done c c') (id : UInt64)
    (edges : List DependencyEdge) (chunks : List (ManagedChunkNode F)) :
    ChunkPartway checksum (id :: done) c (promote edges chunks
      (if c'.chunkId == id then c'.report .completed (checksum id) else c')) := by
  have hid := h.chunkId
  by_cases heq : c.chunkId = id
  · subst heq
    rw [if_pos (beq_iff_eq.mpr hid), h.report, promote_completed edges chunks rfl]
    exact (if_pos List.mem_cons_self).mpr rfl
  · rw [if_neg fun e => heq (hid.symm.trans (beq_iff_eq.mp e))]
    have hdone : c.chunkId ∈ id :: done ↔ c.chunkId ∈ done := by simp [heq]
    unfold ChunkPartway at h ⊢
    simp only [hdone]
    split at h
    · rw [if_pos ‹_›, h]
      exact promote_completed edges chunks rfl
    · rw [if_neg ‹_›]
      unfold promote
      split
      · rw [h]
      · exact h

/-- All chunks reported leaves nothing open. -/
theorem chunks_of_all_done {checksum : UInt64 → Option CStr} {done : List UInt64}
    {l l' : List (ManagedChunkNode F)} (h : List.Forall₂ (ChunkPartway checksum done) l l')
    (hall : ∀ c ∈ l, c.chunkId ∈ done) :
    l' = l.map fun c => c.report .completed (checksum c.chunkId) := by
  induction h with
  | nil => rfl
  | cons hc _ ih =>
    rw [List.map_cons, ← ih fun c hc => hall c (List.mem_cons_of_mem _ hc)]
    rw [ChunkPartway, if_pos (hall _ List.mem_cons_self)] at hc
    rw [hc]

section Runs

variable [DoubleArith F]

/-- The recomputation over a job with all its chunks completed. -/
theorem recalculate_completed {job cur : ActiveWorkloadLifecycle F}
    {checksum : UInt64 → Option CStr} (hsame : SameJob job cur) (hne : job.chunks ≠ [])
    (hchunks : cur.chunks = job.completedChunks checksum) :
    recalculateJobProgress cur = completedJob job checksum := by
  have hall : ∀ c ∈ job.completedChunks checksum, c.state = .completed := by
    simp [ActiveWorkloadLifecycle.completedChunks, ManagedChunkNode.report]
  have hlen : (job.completedChunks checksum).length = job.chunks.length := List.length_map _
  have hfailed : (job.completedChunks checksum).countP (fun c => c.state == .failed) = 0 :=
    List.countP_eq_zero.mpr fun c hc => by simp [hall c hc]
  have hdone : (job.completedChunks checksum).countP (fun c => c.state == .completed) =
      job.chunks.length :=
    hlen ▸ List.countP_eq_length.mpr fun c hc => by simp [hall c hc]
  have hpos : job.chunks.length > 0 := List.length_pos_iff.mpr hne
  rcases cur with ⟨_, _, _, _, _, chunks, _, _, _, _, _⟩
  obtain ⟨rfl, rfl, rfl, rfl, rfl⟩ := hsame
  obtain rfl : chunks = job.completedChunks checksum := hchunks
  simp only [recalculateJobProgress, hfailed, hdone, hlen, if_pos hpos, gt_iff_lt, Nat.lt_irrefl,
    if_false, if_true]
  rfl

theorem reportChunk_same {job cur : ActiveWorkloadLifecycle F} (hsame : SameJob job cur)
    (chunkId : UInt64) (resultState : ChunkState) (checksum : Option CStr) :
    SameJob job (reportChunk cur chunkId resultState checksum) := by
  have hkeep : ∀ j : ActiveWorkloadLifecycle F, SameJob j (recalculateJobProgress j) := fun j => by
    simp only [recalculateJobProgress]
    split
    · exact ⟨rfl, rfl, rfl, rfl, rfl⟩
    · split <;> exact ⟨rfl, rfl, rfl, rfl, rfl⟩
  have h := hkeep (evaluateReadyChunks (writeResult cur chunkId resultState checksum))
  exact ⟨h.workloadId.trans hsame.workloadId, h.name.trans hsame.name,
    h.startTimestampMs.trans hsame.startTimestampMs,
    h.deadlineSeconds.trans hsame.deadlineSeconds, h.edges.trans hsame.edges⟩

theorem Partway.chunkIds {job cur : ActiveWorkloadLifecycle F} {checksum : UInt64 → Option CStr}
    {done : List UInt64} (h : Partway job checksum done cur) :
    job.chunks.map (·.chunkId) = cur.chunks.map (·.chunkId) := by
  rw [← List.forall₂_eq_eq_eq, List.forall₂_map_left_iff, List.forall₂_map_right_iff]
  exact h.chunks.imp fun _ _ hc => hc.chunkId.symm

/-- **One completion** takes a job one chunk further. -/
theorem Partway.report {job cur : ActiveWorkloadLifecycle F} {checksum : UInt64 → Option CStr}
    {done : List UInt64} (h : Partway job checksum done cur)
    (hids : (job.chunks.map (·.chunkId)).Nodup) (hne : job.chunks ≠ []) (chunkId : UInt64) :
    Partway job checksum (chunkId :: done)
      (reportChunk cur chunkId .completed (checksum chunkId)) := by
  have hcur : (cur.chunks.map (·.chunkId)).Nodup := by
    rwa [← h.chunkIds]
  let written := evaluateReadyChunks (writeResult cur chunkId .completed (checksum chunkId))
  have hchunks : List.Forall₂ (ChunkPartway checksum (chunkId :: done)) job.chunks written.chunks := by
    show List.Forall₂ _ _ (evaluateReadyChunks _).chunks
    rw [evaluate_chunks]
    show List.Forall₂ _ _ (List.map _ (modifyFirst _ _ cur.chunks))
    rw [modifyFirst_eq_map _ ManagedChunkNode.chunkId (fun _ => beq_iff_eq) hcur, List.map_map,
      List.forall₂_map_right_iff]
    exact h.chunks.imp fun _ _ hc => hc.step chunkId _ _
  have hwritten : SameJob job written := ⟨h.same.workloadId, h.same.name, h.same.startTimestampMs,
    h.same.deadlineSeconds, h.same.edges⟩
  refine ⟨reportChunk_same h.same chunkId _ _, ?_, fun hall => ?_⟩
  · rw [reportChunk, (recalculate_graph _).1]
    exact hchunks
  · exact recalculate_completed hwritten hne (chunks_of_all_done hchunks hall)

/-! ## 3. Whole runs -/

/-- The job a store finds under an id. -/
def WorkloadContext.lookup (ctx : WorkloadContext F) (workloadId : UInt64) :
    Option (ActiveWorkloadLifecycle F) :=
  ctx.jobs.find? fun job => job.workloadId == workloadId

/-- A report for another job. -/
theorem lookup_other (ctx : WorkloadContext F) {workloadId : UInt64} {r : ChunkReport}
    (hr : r.workloadId ≠ workloadId) :
    (workloadMachine.next ctx r.op).lookup workloadId = ctx.lookup workloadId := by
  refine find?_modifyFirst_other (fun job hhit => ?_) ctx.jobs
  have hid : job.workloadId = r.workloadId := beq_iff_eq.mp (Bool.and_eq_true_iff.mp hhit).1
  have hkept := (reportChunk_same (SameJob.refl job) r.chunkId r.resultState r.checksum).workloadId
  simp only [hkept, hid, beq_eq_false_iff_ne]
  exact ⟨hr, hr⟩

/-- A report for the job. -/
theorem lookup_own {ctx : WorkloadContext F} {workloadId : UInt64}
    {job : ActiveWorkloadLifecycle F} (h : ctx.lookup workloadId = some job) {r : ChunkReport}
    (hr : r.workloadId = workloadId) (hchunk : r.chunkId ∈ job.chunks.map (·.chunkId)) :
    (workloadMachine.next ctx r.op).lookup workloadId =
      some (reportChunk job r.chunkId r.resultState r.checksum) := by
  have hid : (job.workloadId == workloadId) = true :=
    List.find?_some (p := fun j : ActiveWorkloadLifecycle F => j.workloadId == workloadId) h
  have hhit : hasChunk r.workloadId r.chunkId job = true := by
    obtain ⟨c, hc, hcid⟩ := List.mem_map.mp hchunk
    rw [hasChunk, hr, hid, Bool.true_and]
    exact List.any_eq_true.mpr ⟨c, hc, beq_iff_eq.mpr hcid⟩
  refine find?_modifyFirst_hit h (fun j hj => ?_) hhit ?_
  · exact hr ▸ (Bool.and_eq_true_iff.mp hj).1
  · rwa [(reportChunk_same (SameJob.refl job) _ _ _).workloadId]

/-- **Any list of reports**, of which those for the job complete chunks of it with their checksums. -/
theorem partway_reports {job : ActiveWorkloadLifecycle F} {checksum : UInt64 → Option CStr}
    (hids : (job.chunks.map (·.chunkId)).Nodup) (hne : job.chunks ≠ []) :
    ∀ (reports : List ChunkReport) {ctx : WorkloadContext F} {cur : ActiveWorkloadLifecycle F}
      {done : List UInt64}, ctx.lookup job.workloadId = some cur → Partway job checksum done cur →
      reportsFor job.workloadId reports ⊆ job.completions checksum →
      ∃ cur', (workloadMachine.run ctx (reports.map (·.op))).lookup job.workloadId = some cur' ∧
        Partway job checksum
          (((reportsFor job.workloadId reports).map (·.chunkId)).reverse ++ done) cur'
  | [], _, cur, _, hcur, hway, _ => ⟨cur, hcur, hway⟩
  | r :: reports, ctx, cur, done, hcur, hway, hown => by
      by_cases hr : r.workloadId = job.workloadId
      · have hfor : reportsFor job.workloadId (r :: reports) =
            r :: reportsFor job.workloadId reports :=
          List.filter_cons_of_pos (beq_iff_eq.mpr hr)
        rw [hfor] at hown ⊢
        obtain ⟨c, hc, rfl⟩ := List.mem_map.mp (hown List.mem_cons_self)
        have hchunk : c.chunkId ∈ cur.chunks.map (·.chunkId) :=
          hway.chunkIds ▸ List.mem_map_of_mem hc
        have hnext := lookup_own hcur
          (r := ⟨job.workloadId, c.chunkId, .completed, checksum c.chunkId⟩) rfl hchunk
        obtain ⟨cur', hcur', hway'⟩ := partway_reports hids hne reports hnext
          (hway.report hids hne c.chunkId) fun x hx => hown (List.mem_cons_of_mem _ hx)
        refine ⟨cur', hcur', ?_⟩
        rwa [List.map_cons, List.reverse_cons, List.append_assoc]
      · have hfor : reportsFor job.workloadId (r :: reports) = reportsFor job.workloadId reports :=
          List.filter_cons_of_neg (mt beq_iff_eq.mp hr)
        rw [hfor] at hown ⊢
        exact partway_reports hids hne reports ((lookup_other ctx hr).trans hcur) hway hown

/-- A job of which nothing is reported yet. -/
theorem Partway.start {job : ActiveWorkloadLifecycle F} (checksum : UInt64 → Option CStr)
    (hne : job.chunks ≠ []) : Partway job checksum [] job where
  same := SameJob.refl job
  chunks := List.forall₂_same.mpr fun _ _ => (if_neg List.not_mem_nil).mpr rfl
  completed := fun hall => by
    obtain ⟨c, hc⟩ := List.exists_mem_of_ne_nil _ hne
    cases hall c hc

theorem completed_of_reports {ctx : WorkloadContext F} {job : ActiveWorkloadLifecycle F}
    (hjob : ctx.lookup job.workloadId = some job) (hids : (job.chunks.map (·.chunkId)).Nodup)
    (hne : job.chunks ≠ []) (checksum : UInt64 → Option CStr) {reports : List ChunkReport}
    (hown : (reportsFor job.workloadId reports).Perm (job.completions checksum)) :
    (workloadMachine.run ctx (reports.map (·.op))).lookup job.workloadId =
      some (completedJob job checksum) := by
  obtain ⟨cur, hcur, hway⟩ := partway_reports hids hne reports hjob (Partway.start checksum hne)
    hown.subset
  rw [hcur, hway.completed fun c hc => ?_]
  rw [List.append_nil, List.mem_reverse, (hown.map _).mem_iff, ActiveWorkloadLifecycle.completions,
    List.map_map]
  exact List.mem_map_of_mem hc

/-- **The order of the results does not matter.** Let a store find the job under its id, the job's
    chunk ids be distinct and the job not be empty. Any two lists of reports, reports for other jobs
    among them, in which the reports for the job complete every chunk once with its checksum, lead to
    the same job: all chunks completed with their checksums, and progress, state and hash those of
    `completedJob`. No state of the job or of its chunks at the start is excluded. -/
theorem aggregation_order_independent (ctx : WorkloadContext F) (job : ActiveWorkloadLifecycle F)
    (hjob : ctx.lookup job.workloadId = some job) (hids : (job.chunks.map (·.chunkId)).Nodup)
    (hne : job.chunks ≠ []) (checksum : UInt64 → Option CStr) (reports reports' : List ChunkReport)
    (hown : (reportsFor job.workloadId reports).Perm (job.completions checksum))
    (hown' : (reportsFor job.workloadId reports').Perm (job.completions checksum)) :
    (workloadMachine.run ctx (reports.map (·.op))).lookup job.workloadId =
        some (completedJob job checksum) ∧
      (workloadMachine.run ctx (reports'.map (·.op))).lookup job.workloadId =
        some (completedJob job checksum) :=
  ⟨completed_of_reports hjob hids hne checksum hown, completed_of_reports hjob hids hne checksum hown'⟩

end Runs

/-- A job as a submission stores it. -/
def submittedJob : ActiveWorkloadLifecycle (Option ℚ) :=
  evaluateReadyChunks (plannedJob smallWorkload 1001 0)

def submittedStore : WorkloadContext (Option ℚ) where
  jobs := [submittedJob]
  nextWorkloadId := 1002

/-- A checksum of one letter for each chunk. -/
def letterChecksum (chunkId : UInt64) : Option CStr :=
  some (CStr.upTo [97 + (chunkId &&& 3).toUInt8])

/-- The completions as they are listed, and from the last to the first with a report for another job
    in between. -/
theorem aggregation_order_independent_submittedJob :
    (workloadMachine.run submittedStore
      ((submittedJob.completions letterChecksum).map (·.op))).lookup 1001 =
        some (completedJob submittedJob letterChecksum) ∧
    (workloadMachine.run submittedStore
      ((⟨7, 0, .failed, none⟩ :: (submittedJob.completions letterChecksum).reverse).map
        (·.op))).lookup 1001 = some (completedJob submittedJob letterChecksum) :=
  aggregation_order_independent submittedStore submittedJob rfl (by decide +kernel)
    (by decide +kernel) letterChecksum _ _ (by decide +kernel) (by decide +kernel)

end VoidOsMerger
