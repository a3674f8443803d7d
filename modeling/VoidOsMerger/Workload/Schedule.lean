/-
  File:      VoidOsMerger/Workload/Schedule.lean
  Subject:   THE ORDERS IN WHICH THE CHUNKS OF A JOB CAN BE WORKED OFF.

  Whoever works off a job takes chunks that are ready and reports them completed. What the states of
  the chunks are then depends on the reported chunks alone (`OnSchedule`), so the store offers what a
  plain definition over the edges allows (`TopologicalOrder`).

  * `scheduledState`, `OnSchedule.report` -- the state of every chunk read off the reports;
  * `submit_submitted` -- what a submission stores can be worked off;
  * **`ready_orders_iff_topological`** -- the orders in which ready chunks can be reported are exactly
    the topological orders;
  * **`ready_runs_complete`** -- with an accepted plan no such order gets stuck, and one report for each
    chunk completes the job.
-/
import VoidOsMerger.Workload.Frame

namespace VoidOsMerger

variable {F : Type}

/-! ## 1. The orders a plan allows -/

/-- Every source of an edge into the chunk that is a chunk itself is among `done`. -/
def PredecessorsIn (edges : List DependencyEdge) (ids done : List UInt64) (id : UInt64) : Prop :=
  ∀ e ∈ edges, e.dstChunkId = id → e.srcChunkId ∈ ids → e.srcChunkId ∈ done

instance (edges : List DependencyEdge) (ids done : List UInt64) (id : UInt64) :
    Decidable (PredecessorsIn edges ids done id) :=
  inferInstanceAs (Decidable (∀ e ∈ edges, _ → _ → _))

/-- Distinct chunks, the newest first, each after its predecessors. -/
def TopologicalOrder (edges : List DependencyEdge) (ids : List UInt64) : List UInt64 → Prop
  | [] => True
  | id :: done => id ∈ ids ∧ id ∉ done ∧ PredecessorsIn edges ids done id ∧
      TopologicalOrder edges ids done

instance decidableTopologicalOrder (edges : List DependencyEdge) (ids : List UInt64) :
    (done : List UInt64) → Decidable (TopologicalOrder edges ids done)
  | [] => isTrue trivial
  | id :: done =>
    have := decidableTopologicalOrder edges ids done
    inferInstanceAs (Decidable (id ∈ ids ∧ id ∉ done ∧ PredecessorsIn edges ids done id ∧
      TopologicalOrder edges ids done))

theorem PredecessorsIn.mono {edges : List DependencyEdge} {ids done done' : List UInt64} {id : UInt64}
    (h : PredecessorsIn edges ids done id) (hsub : done ⊆ done') : PredecessorsIn edges ids done' id :=
  fun e he hdst hsrc => hsub (h e he hdst hsrc)

theorem TopologicalOrder.subset {edges : List DependencyEdge} {ids : List UInt64} :
    ∀ {done : List UInt64}, TopologicalOrder edges ids done → done ⊆ ids
  | [], _ => List.nil_subset _
  | _ :: _, h => List.cons_subset.mpr ⟨h.1, h.2.2.2.subset⟩

theorem TopologicalOrder.nodup {edges : List DependencyEdge} {ids : List UInt64} :
    ∀ {done : List UInt64}, TopologicalOrder edges ids done → done.Nodup
  | [], _ => List.nodup_nil
  | _ :: _, h => List.nodup_cons.mpr ⟨h.2.1, h.2.2.2.nodup⟩

/-! ## 2. The states of the chunks -/

/-- The state of a chunk when the chunks `done` are completed. -/
def scheduledState (edges : List DependencyEdge) (ids done : List UInt64) (id : UInt64) : ChunkState :=
  if id ∈ done then .completed else if PredecessorsIn edges ids done id then .ready else .pending

theorem scheduledState_completed_iff {edges : List DependencyEdge} {ids done : List UInt64}
    {id : UInt64} : scheduledState edges ids done id = .completed ↔ id ∈ done := by
  unfold scheduledState
  split
  · simp [*]
  · split <;> simp [*]

theorem scheduledState_ready_iff {edges : List DependencyEdge} {ids done : List UInt64}
    {id : UInt64} :
    scheduledState edges ids done id = .ready ↔ id ∉ done ∧ PredecessorsIn edges ids done id := by
  unfold scheduledState
  split
  · simp [*]
  · split <;> simp [*]

/-- The chunks are in the states the reports ask for. -/
def StatesOf (edges : List DependencyEdge) (done : List UInt64) (chunks : List (ManagedChunkNode F)) :
    Prop :=
  ∀ c ∈ chunks, c.state = scheduledState edges (chunks.map (·.chunkId)) done c.chunkId

/-- What the scan for parents finds, when just the chunks `done` are completed. -/
theorem predecessorsCompleted_iff_in {edges : List DependencyEdge} {done : List UInt64}
    {chunks : List (ManagedChunkNode F)}
    (hdone : ∀ c ∈ chunks, c.state = .completed ↔ c.chunkId ∈ done) (id : UInt64) :
    PredecessorsCompleted edges chunks id ↔
      PredecessorsIn edges (chunks.map (·.chunkId)) done id := by
  unfold PredecessorsCompleted PredecessorsIn
  refine forall₃_congr fun e _ _ => ?_
  constructor
  · intro h hsrc
    obtain ⟨p, hp, hid⟩ := List.mem_map.mp hsrc
    exact hid ▸ (hdone p hp).mp (h p hp hid)
  · intro h p hp hid
    exact (hdone p hp).mpr (hid ▸ h (hid ▸ List.mem_map_of_mem hp))

/-- The promotion brings a chunk that is at most late into its state. -/
theorem promote_scheduled {edges : List DependencyEdge} {done : List UInt64}
    {chunks : List (ManagedChunkNode F)} (hids : (chunks.map (·.chunkId)).Nodup)
    (hdone : ∀ c ∈ chunks, c.state = .completed ↔ c.chunkId ∈ done)
    {c : ManagedChunkNode F} (hc : c ∈ chunks)
    (hstate : c.state = .pending ∨ c.state = scheduledState edges (chunks.map (·.chunkId)) done c.chunkId) :
    (promote edges chunks c).state =
      scheduledState edges (chunks.map (·.chunkId)) done c.chunkId := by
  have hparents : parentsCompleted edges chunks c.chunkId = true ↔
      PredecessorsIn edges (chunks.map (·.chunkId)) done c.chunkId :=
    (parentsCompleted_iff edges hids c.chunkId).trans (predecessorsCompleted_iff_in hdone c.chunkId)
  unfold promote
  by_cases hpending : c.state = .pending
  · have hopen : c.chunkId ∉ done := fun h => by
      rw [← hdone c hc, hpending] at h
      cases h
    unfold scheduledState
    rw [if_neg hopen]
    by_cases hpred : PredecessorsIn edges (chunks.map (·.chunkId)) done c.chunkId
    · rw [if_pos ⟨hpending, hparents.mpr hpred⟩, if_pos hpred]
    · rw [if_neg fun h => hpred (hparents.mp h.2), if_neg hpred]
      exact hpending
  · rw [if_neg fun h => hpending h.1]
    exact hstate.resolve_left hpending

theorem evaluated_ids (planned : ActiveWorkloadLifecycle F) :
    (evaluateReadyChunks planned).chunks.map (·.chunkId) = planned.chunks.map (·.chunkId) := by
  rw [evaluate_chunks, List.map_map]
  exact List.map_congr_left fun c _ => promote_chunkId _ _ c

theorem evaluate_ne_nil {planned : ActiveWorkloadLifecycle F} (h : planned.chunks ≠ []) :
    (evaluateReadyChunks planned).chunks ≠ [] := by
  rw [evaluate_chunks]
  exact mt List.map_eq_nil_iff.mp h

theorem evaluated_completions (planned : ActiveWorkloadLifecycle F)
    (checksum : UInt64 → Option CStr) :
    (evaluateReadyChunks planned).completions checksum = planned.completions checksum := by
  have hcomp : ∀ job : ActiveWorkloadLifecycle F, job.completions checksum =
      (job.chunks.map (·.chunkId)).map fun id => ⟨job.workloadId, id, .completed, checksum id⟩ :=
    fun job => by rw [List.map_map]; rfl
  rw [hcomp, hcomp, evaluated_ids]
  rfl

/-- A fresh job after its first promotion. -/
theorem statesOf_evaluated {job : ActiveWorkloadLifecycle F}
    (hids : (job.chunks.map (·.chunkId)).Nodup) (hfresh : ∀ c ∈ job.chunks, c.state = .pending) :
    StatesOf job.edges [] (evaluateReadyChunks job).chunks := by
  have hdone : ∀ c ∈ job.chunks, c.state = .completed ↔ c.chunkId ∈ ([] : List UInt64) := fun c hc => by
    simp [hfresh c hc]
  unfold StatesOf
  rw [evaluated_ids, evaluate_chunks, List.forall_mem_map]
  intro c hc
  rw [promote_chunkId]
  exact promote_scheduled hids hdone hc (Or.inl (hfresh c hc))

/-- A chunk through the writing of a completion, before the promotion. -/
theorem scheduled_written {edges : List DependencyEdge} {ids done : List UInt64}
    {c : ManagedChunkNode F} (h : c.state = scheduledState edges ids done c.chunkId) (id : UInt64)
    (checksum : Option CStr) {c' : ManagedChunkNode F}
    (hc' : c' = if c.chunkId = id then c.report .completed checksum else c) :
    c'.chunkId = c.chunkId ∧ (c'.state = .completed ↔ c.chunkId ∈ id :: done) ∧
      (c'.state = .pending ∨ c'.state = scheduledState edges ids (id :: done) c.chunkId) := by
  by_cases heq : c.chunkId = id
  · rw [if_pos heq] at hc'
    subst hc'
    have hmem : c.chunkId ∈ id :: done := heq ▸ List.mem_cons_self
    exact ⟨rfl, iff_of_true rfl hmem, Or.inr (scheduledState_completed_iff.mpr hmem).symm⟩
  · rw [if_neg heq] at hc'
    subst hc'
    have hmem : c'.chunkId ∈ id :: done ↔ c'.chunkId ∈ done := by simp [heq]
    refine ⟨rfl, by rw [hmem, h, scheduledState_completed_iff], ?_⟩
    by_cases hdone : c'.chunkId ∈ done
    · exact Or.inr ((h.trans (scheduledState_completed_iff.mpr hdone)).trans
        (scheduledState_completed_iff.mpr (hmem.mpr hdone)).symm)
    · by_cases hpred : PredecessorsIn edges ids done c'.chunkId
      · have hready := scheduledState_ready_iff.mpr
          ⟨mt hmem.mp hdone, hpred.mono (List.subset_cons_self id done)⟩
        exact Or.inr ((h.trans (scheduledState_ready_iff.mpr ⟨hdone, hpred⟩)).trans hready.symm)
      · refine Or.inl (h.trans ?_)
        rw [scheduledState, if_neg hdone, if_neg hpred]

/-- With an accepted plan every topological order that leaves a chunk out goes on. -/
theorem topologicalOrder_continues {planned : ActiveWorkloadLifecycle F}
    (hids : (planned.chunks.map (·.chunkId)).Nodup)
    (haccept : verifyPlanTopologyIsDag planned.plan = some true) {done : List UInt64}
    (hshort : done.length < planned.chunks.length) :
    ∃ id ∈ planned.chunks.map (·.chunkId), id ∉ done ∧
      PredecessorsIn planned.edges (planned.chunks.map (·.chunkId)) done id := by
  have hopen : (planned.chunks.map (·.chunkId)).filter (· ∉ done) ≠ [] := by
    intro hnone
    have hsub : planned.chunks.map (·.chunkId) ⊆ done := fun id hid => by
      by_contra hnew
      exact List.filter_eq_nil_iff.mp hnone id hid (by simpa using hnew)
    have hle := (List.subperm_of_subset hids hsub).length_le
    rw [List.length_map] at hle
    omega
  have hacyclic := (dag_of_verify (planned.plan_ids ▸ hids) haccept).2
  obtain ⟨id, hid, hmin⟩ := hacyclic.exists_minimal hopen
  obtain ⟨hmem, hnew⟩ := List.mem_filter.mp hid
  refine ⟨id, hmem, by simpa using hnew, fun e he hdst hsrc => ?_⟩
  by_contra hundone
  refine hmin e.srcChunkId (List.mem_filter.mpr ⟨hsrc, by simpa using hundone⟩)
    ⟨planned.plan_ids ▸ hsrc, planned.plan_ids ▸ hmem, ?_⟩
  rw [← hdst]
  exact he

section Reports

variable [DoubleArith F]

/-- **One report of a completion.** -/
theorem statesOf_report {job : ActiveWorkloadLifecycle F} {done : List UInt64}
    (hids : (job.chunks.map (·.chunkId)).Nodup) (h : StatesOf job.edges done job.chunks)
    (id : UInt64) (checksum : Option CStr) :
    StatesOf job.edges (id :: done) (reportChunk job id .completed checksum).chunks := by
  have hwritten : (writeResult job id .completed checksum).chunks =
      job.chunks.map fun c => if c.chunkId = id then c.report .completed checksum else c := by
    refine (modifyFirst_eq_map _ ManagedChunkNode.chunkId (fun c => beq_iff_eq) hids).trans ?_
    simp only [beq_iff_eq]
  have hsame : (writeResult job id .completed checksum).chunks.map (·.chunkId) =
      job.chunks.map (·.chunkId) := by
    rw [hwritten, List.map_map]
    exact List.map_congr_left fun c hc => (scheduled_written (h c hc) id checksum rfl).1
  have hone : ∀ c' ∈ (writeResult job id .completed checksum).chunks,
      (c'.state = .completed ↔ c'.chunkId ∈ id :: done) ∧
        (c'.state = .pending ∨ c'.state =
          scheduledState job.edges (job.chunks.map (·.chunkId)) (id :: done) c'.chunkId) := by
    rw [hwritten, List.forall_mem_map]
    intro c hc
    obtain ⟨hid, hdone, hstate⟩ := scheduled_written (h c hc) id checksum rfl
    rw [hid]
    exact ⟨hdone, hstate⟩
  have hedges : (writeResult job id .completed checksum).edges = job.edges := rfl
  unfold StatesOf reportChunk
  rw [(recalculate_graph _).1, evaluated_ids, evaluate_chunks, List.forall_mem_map, hedges]
  intro c' hc'
  rw [promote_chunkId]
  refine promote_scheduled (hsame ▸ hids) (fun c hc => (hone c hc).1) hc' ?_
  rw [hsame]
  exact (hone c' hc').2

/-! ## 3. The job in the store -/

/-- The job of which the chunks `done` have been reported, in this order. -/
structure OnSchedule (job : ActiveWorkloadLifecycle F) (checksum : UInt64 → Option CStr)
    (done : List UInt64) (cur : ActiveWorkloadLifecycle F) : Prop where
  way : Partway job checksum done cur
  states : StatesOf cur.edges done cur.chunks

theorem OnSchedule.report {job cur : ActiveWorkloadLifecycle F} {checksum : UInt64 → Option CStr}
    {done : List UInt64} (h : OnSchedule job checksum done cur)
    (hids : (job.chunks.map (·.chunkId)).Nodup) (hne : job.chunks ≠ []) (id : UInt64) :
    OnSchedule job checksum (id :: done) (reportChunk cur id .completed (checksum id)) := by
  have hway := h.way.report hids hne id
  refine ⟨hway, ?_⟩
  rw [hway.same.edges, ← h.way.same.edges]
  exact statesOf_report (h.way.chunkIds ▸ hids) h.states id (checksum id)

/-- A chunk of the job is ready. -/
def ActiveWorkloadLifecycle.Offers (job : ActiveWorkloadLifecycle F) (id : UInt64) : Prop :=
  ∃ c ∈ job.chunks, c.chunkId = id ∧ c.state = .ready

/-- **What the job offers** is what may come next in a topological order. -/
theorem OnSchedule.offers_iff {job cur : ActiveWorkloadLifecycle F} {checksum : UInt64 → Option CStr}
    {done : List UInt64} (h : OnSchedule job checksum done cur) (id : UInt64) :
    cur.Offers id ↔ id ∈ job.chunks.map (·.chunkId) ∧ id ∉ done ∧
      PredecessorsIn job.edges (job.chunks.map (·.chunkId)) done id := by
  have hstates := h.states
  rw [StatesOf, ← h.way.chunkIds, h.way.same.edges] at hstates
  rw [h.way.chunkIds]
  constructor
  · rintro ⟨c, hc, rfl, hready⟩
    rw [← h.way.chunkIds]
    exact ⟨h.way.chunkIds ▸ List.mem_map_of_mem hc,
      scheduledState_ready_iff.mp ((hstates c hc).symm.trans hready)⟩
  · rintro ⟨hid, hnext⟩
    obtain ⟨c, hc, rfl⟩ := List.mem_map.mp hid
    rw [← h.way.chunkIds] at hnext
    exact ⟨c, hc, rfl, (hstates c hc).trans (scheduledState_ready_iff.mpr hnext)⟩

/-- The operation is no report for the job, or one of a chunk that the job offers. -/
def OffersReady (workloadId : UInt64) (ctx : WorkloadContext F) : WorkloadOp → Prop
  | .updateChunkResult w id _ _ => w = workloadId → ∃ job, ctx.lookup w = some job ∧ job.Offers id
  | _ => True

/-- The chunks of the job that were reported, the newest first. -/
def reportedChunks (workloadId : UInt64) (reports : List ChunkReport) : List UInt64 :=
  ((reportsFor workloadId reports).map (·.chunkId)).reverse

theorem reportedChunks_snoc (workloadId : UInt64) (reports : List ChunkReport) (r : ChunkReport) :
    reportedChunks workloadId (reports ++ [r]) =
      if r.workloadId = workloadId then r.chunkId :: reportedChunks workloadId reports
      else reportedChunks workloadId reports := by
  unfold reportedChunks reportsFor
  by_cases h : r.workloadId = workloadId
  · simp [h]
  · simp [h]

/-- **After any completions of its chunks**, with reports for other jobs in between, the job is where
    the reports say. -/
theorem onSchedule_reports {ctx : WorkloadContext F} {job : ActiveWorkloadLifecycle F}
    (hjob : ctx.lookup job.workloadId = some job) (hids : (job.chunks.map (·.chunkId)).Nodup)
    (hne : job.chunks ≠ []) (hstates : StatesOf job.edges [] job.chunks)
    (checksum : UInt64 → Option CStr) (reports : List ChunkReport)
    (hown : reportsFor job.workloadId reports ⊆ job.completions checksum) :
    ∃ cur, (workloadMachine.run ctx (reports.map (·.op))).lookup job.workloadId = some cur ∧
      OnSchedule job checksum (reportedChunks job.workloadId reports) cur := by
  induction reports using List.reverseRecOn with
  | nil => exact ⟨job, hjob, Partway.start checksum hne, hstates⟩
  | append_singleton reports r ih =>
    rw [reportsFor, List.filter_append, List.append_subset] at hown
    obtain ⟨cur, hcur, hsched⟩ := ih hown.1
    rw [List.map_append, Machine.run_append, reportedChunks_snoc]
    change ∃ cur, (workloadMachine.next (workloadMachine.run ctx _) r.op).lookup _ = some cur ∧ _
    by_cases hr : r.workloadId = job.workloadId
    · rw [if_pos hr]
      have hr' := hown.2 (List.mem_filter.mpr ⟨List.mem_singleton_self r, beq_iff_eq.mpr hr⟩)
      obtain ⟨c, hc, rfl⟩ := List.mem_map.mp hr'
      have hchunk : c.chunkId ∈ cur.chunks.map (·.chunkId) :=
        hsched.way.chunkIds ▸ List.mem_map_of_mem hc
      exact ⟨_, lookup_own hcur hr hchunk, hsched.report hids hne c.chunkId⟩
    · rw [if_neg hr, lookup_other _ hr]
      exact ⟨cur, hcur, hsched⟩

/-- The orders a job offers, from any state in which nothing is reported. -/
theorem legal_iff_topological {ctx : WorkloadContext F} {job : ActiveWorkloadLifecycle F}
    (hjob : ctx.lookup job.workloadId = some job) (hids : (job.chunks.map (·.chunkId)).Nodup)
    (hne : job.chunks ≠ []) (hstates : StatesOf job.edges [] job.chunks)
    (checksum : UInt64 → Option CStr) (reports : List ChunkReport)
    (hown : reportsFor job.workloadId reports ⊆ job.completions checksum) :
    workloadMachine.Legal (OffersReady job.workloadId) ctx (reports.map (·.op)) ↔
      TopologicalOrder job.edges (job.chunks.map (·.chunkId))
        (reportedChunks job.workloadId reports) := by
  induction reports using List.reverseRecOn with
  | nil => exact Iff.rfl
  | append_singleton reports r ih =>
    rw [reportsFor, List.filter_append, List.append_subset] at hown
    obtain ⟨cur, hcur, hsched⟩ := onSchedule_reports hjob hids hne hstates checksum reports hown.1
    have hoffers : OffersReady job.workloadId (workloadMachine.run ctx (reports.map (·.op))) r.op ↔
        (r.workloadId = job.workloadId → cur.Offers r.chunkId) := by
      refine imp_congr_right fun hr => ?_
      rw [hr, hcur]
      exact ⟨fun ⟨_, hj, h⟩ => Option.some_inj.mp hj ▸ h, fun h => ⟨cur, rfl, h⟩⟩
    rw [List.map_append, Machine.legal_append, ih hown.1, reportedChunks_snoc]
    change _ ∧ (OffersReady _ _ r.op ∧ True) ↔ _
    rw [and_true, hoffers, hsched.offers_iff]
    by_cases hr : r.workloadId = job.workloadId
    · rw [if_pos hr, TopologicalOrder]
      constructor
      · rintro ⟨hbefore, hnext⟩
        obtain ⟨hid, hnew, hpred⟩ := hnext hr
        exact ⟨hid, hnew, hpred, hbefore⟩
      · rintro ⟨hid, hnew, hpred, hbefore⟩
        exact ⟨hbefore, fun _ => ⟨hid, hnew, hpred⟩⟩
    · rw [if_neg hr]
      exact ⟨fun h => h.1, fun h => ⟨h, fun h' => absurd h' hr⟩⟩

/-! ## 4. A job from its submission on -/

theorem completedJob_evaluated (planned : ActiveWorkloadLifecycle F)
    (checksum : UInt64 → Option CStr) :
    completedJob (evaluateReadyChunks planned) checksum = completedJob planned checksum := by
  have hchunks : (evaluateReadyChunks planned).completedChunks checksum =
      planned.completedChunks checksum := by
    unfold ActiveWorkloadLifecycle.completedChunks
    rw [evaluate_chunks, List.map_map]
    refine List.map_congr_left fun c _ => ?_
    rcases promote_cases planned.edges planned.chunks c with h | ⟨-, h⟩
    · rw [Function.comp_apply, h]
    · rw [Function.comp_apply, h]
      rfl
  have hlen : (evaluateReadyChunks planned).chunks.length = planned.chunks.length :=
    length_evaluateChunks planned.edges _ planned.chunks
  unfold completedJob
  simp only [hchunks, hlen]
  rfl

/-- A job as a submission stores it: found under its id, its chunks distinct, none looked at before the
    first promotion. -/
structure Submitted (ctx : WorkloadContext F) (planned : ActiveWorkloadLifecycle F) : Prop where
  found : ctx.lookup planned.workloadId = some (evaluateReadyChunks planned)
  ids : (planned.chunks.map (·.chunkId)).Nodup
  nonempty : planned.chunks ≠ []
  fresh : ∀ c ∈ planned.chunks, c.state = .pending

/-- **A submission with room stores such a job**, after any run. -/
theorem submit_submitted (ops : List WorkloadOp) {input : UserWorkloadDesc}
    (hsplit : input.isSplittable = true) (currentTimeMs : UInt64) :
    let ctx := workloadMachine.run (vomWorkloadInit : WorkloadContext F) ops
    ctx.jobs.length < maxActiveWorkloads →
      Submitted (vomWorkloadSubmit ctx input currentTimeMs).1
        (plannedJob input ctx.nextWorkloadId currentTimeMs) := by
  intro ctx hroom
  have hstored : (vomWorkloadSubmit ctx input currentTimeMs).1.jobs =
      ctx.jobs ++ [evaluateReadyChunks (plannedJob input ctx.nextWorkloadId currentTimeMs)] := by
    rw [vomWorkloadSubmit, if_neg (by rw [hsplit]; decide), if_neg (Nat.not_le.mpr hroom)]
  -- the id is new: after the submission no id occurs twice
  have hids := workloadIds_nodup ((idsAssigned_run (F := F) ops).submit input currentTimeMs)
  rw [hstored, List.map_append, List.map_singleton, List.nodup_append] at hids
  have hnew : ctx.jobs.find? (fun job => job.workloadId == ctx.nextWorkloadId) = none := by
    refine List.find?_eq_none.mpr fun job hjob heq => ?_
    exact hids.2.2 job.workloadId (List.mem_map_of_mem hjob) ctx.nextWorkloadId
      (List.mem_singleton_self _) (eq_of_beq heq)
  have hfresh : ∀ c ∈ (plannedJob input ctx.nextWorkloadId currentTimeMs :
      ActiveWorkloadLifecycle F).chunks, c.state = .pending := by
    intro c hc
    simp only [plannedJob, List.mem_cons, List.not_mem_nil, or_false] at hc
    rcases hc with rfl | rfl | rfl <;> rfl
  refine ⟨?_, (plannedJob_wellFormed input ctx.nextWorkloadId currentTimeMs).1,
    List.cons_ne_nil _ _, hfresh⟩
  have hown : ((evaluateReadyChunks (plannedJob input ctx.nextWorkloadId currentTimeMs :
      ActiveWorkloadLifecycle F)).workloadId == ctx.nextWorkloadId) = true := beq_self_eq_true _
  unfold WorkloadContext.lookup
  rw [hstored, List.find?_append]
  change (ctx.jobs.find? fun job => job.workloadId == ctx.nextWorkloadId).or
    (List.find? (fun job => job.workloadId == ctx.nextWorkloadId) _) = _
  rw [hnew, Option.none_or, List.find?_cons, hown]

/-- **The orders in which the chunks of a job can be worked off.** Let the reports for a submitted job,
    among any reports for other jobs, be completions of its chunks. Every one of them is for a chunk
    that is ready at that moment exactly when their order is a topological one: no chunk twice, and
    each after its predecessors. -/
theorem ready_orders_iff_topological (ctx : WorkloadContext F) (planned : ActiveWorkloadLifecycle F)
    (hsub : Submitted ctx planned) (checksum : UInt64 → Option CStr) (reports : List ChunkReport)
    (hown : reportsFor planned.workloadId reports ⊆ planned.completions checksum) :
    workloadMachine.Legal (OffersReady planned.workloadId) ctx (reports.map (·.op)) ↔
      TopologicalOrder planned.edges (planned.chunks.map (·.chunkId))
        (reportedChunks planned.workloadId reports) := by
  rw [← evaluated_completions] at hown
  rw [← evaluated_ids planned]
  exact legal_iff_topological hsub.found (evaluated_ids planned ▸ hsub.ids)
    (evaluate_ne_nil hsub.nonempty) (statesOf_evaluated hsub.ids hsub.fresh) checksum reports hown

/-- **Whoever works off ready chunks gets through.** For a submitted job whose plan the planner's check
    accepts, after any completions of chunks that were ready, as long as fewer are reported than the job
    has chunks one is ready; and once as many are reported the job is completed, with all checksums,
    progress and hash. -/
theorem ready_runs_complete (ctx : WorkloadContext F) (planned : ActiveWorkloadLifecycle F)
    (hsub : Submitted ctx planned) (haccept : verifyPlanTopologyIsDag planned.plan = some true)
    (checksum : UInt64 → Option CStr) (reports : List ChunkReport)
    (hown : reportsFor planned.workloadId reports ⊆ planned.completions checksum)
    (hready : workloadMachine.Legal (OffersReady planned.workloadId) ctx (reports.map (·.op))) :
    let done := reportedChunks planned.workloadId reports
    done.length ≤ planned.chunks.length ∧
    ∃ cur, (workloadMachine.run ctx (reports.map (·.op))).lookup planned.workloadId = some cur ∧
      (done.length < planned.chunks.length → ∃ id, cur.Offers id) ∧
      (done.length = planned.chunks.length → cur = completedJob planned checksum) := by
  intro done
  have hids := evaluated_ids planned ▸ hsub.ids
  rw [← evaluated_completions] at hown
  have horder := (legal_iff_topological hsub.found hids (evaluate_ne_nil hsub.nonempty)
    (statesOf_evaluated hsub.ids hsub.fresh) checksum reports hown).mp hready
  obtain ⟨cur, hcur, hsched⟩ := onSchedule_reports hsub.found hids (evaluate_ne_nil hsub.nonempty)
    (statesOf_evaluated hsub.ids hsub.fresh) checksum reports hown
  rw [evaluated_ids] at horder
  have hperm := List.subperm_of_subset horder.nodup horder.subset
  have hlen : (planned.chunks.map (·.chunkId)).length = planned.chunks.length := List.length_map _
  refine ⟨hlen ▸ hperm.length_le, cur, hcur, fun hshort => ?_, fun hall => ?_⟩
  · obtain ⟨id, hid⟩ := topologicalOrder_continues hsub.ids haccept hshort
    exact ⟨id, (hsched.offers_iff id).mpr (evaluated_ids planned ▸ hid)⟩
  · have hsame := hperm.perm_of_length_le (hlen.trans hall.symm).le
    rw [hsched.way.completed, completedJob_evaluated]
    intro c hc
    refine hsame.mem_iff.mpr ?_
    rw [← evaluated_ids]
    exact List.mem_map_of_mem hc

end Reports

/-- The completions of a submitted job, with a report for another job between them. -/
def submittedReports (n : Nat) : List ChunkReport :=
  ((submittedJob.completions letterChecksum).take n).flatMap fun r => [⟨7, 0, .failed, none⟩, r]

theorem submittedStore_submitted :
    Submitted submittedStore (plannedJob smallWorkload 1001 0) := by
  have hsplit : smallWorkload.isSplittable = true := rfl
  have hroom : (workloadMachine.run (vomWorkloadInit : WorkloadContext (Option ℚ)) []).jobs.length <
      maxActiveWorkloads := by decide
  exact submit_submitted [] hsplit 0 hroom

theorem submittedReports_legal (n : Nat)
    (hown : reportsFor 1001 (submittedReports n) ⊆ submittedJob.completions letterChecksum)
    (horder : TopologicalOrder submittedJob.edges (submittedJob.chunks.map (·.chunkId))
      (reportedChunks 1001 (submittedReports n))) :
    workloadMachine.Legal (OffersReady 1001) submittedStore ((submittedReports n).map (·.op)) :=
  (legal_iff_topological submittedStore_submitted.found (by decide +kernel) (by decide +kernel)
    (statesOf_evaluated submittedStore_submitted.ids submittedStore_submitted.fresh) letterChecksum
    (submittedReports n) hown).mpr horder

theorem ready_orders_iff_topological_submitted :
    workloadMachine.Legal (OffersReady 1001) submittedStore ((submittedReports 2).map (·.op)) := by
  refine (ready_orders_iff_topological submittedStore (plannedJob smallWorkload 1001 0)
    submittedStore_submitted letterChecksum (submittedReports 2) (by decide +kernel)).mpr ?_
  decide +kernel

theorem ready_runs_complete_submitted :
    ∃ cur, (workloadMachine.run submittedStore ((submittedReports 3).map (·.op))).lookup 1001 =
      some cur ∧ cur = completedJob (plannedJob smallWorkload 1001 0) letterChecksum := by
  obtain ⟨-, cur, hcur, -, hdone⟩ := ready_runs_complete submittedStore
    (plannedJob smallWorkload 1001 0) submittedStore_submitted (by decide +kernel) letterChecksum
    (submittedReports 3) (by decide +kernel) (submittedReports_legal 3 (by decide +kernel)
      (by decide +kernel))
  exact ⟨cur, hcur, hdone (by decide +kernel)⟩

end VoidOsMerger
