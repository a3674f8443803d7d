/-
  File:      VoidOsMerger/Workload/Terminal.lean
  Subject:   WHEN A JOB'S TERMINAL STATE IS FINAL.

  Deadlines look at executing jobs only. A cancellation and a result write the state of any job they
  find: a result marks its job failed when a chunk is failed, completed when all are completed.

  * `reportChunk_state` -- the state a result leaves, from the result and the job's other chunks;
  * **`terminal_final_iff`** -- terminal states are final in a run exactly when no step cancels a
    completed or failed job and no late result turns a terminal state.
-/
import VoidOsMerger.Workload.Store
import VoidOsMerger.Workload.Ready

namespace VoidOsMerger

variable {F : Type}

/-! ## 1. The state a result leaves -/

/-- Every chunk of the job is completed once the result is written; `others` are its other chunks. -/
def AllDone (resultState : ChunkState) (others : List (ManagedChunkNode F)) : Prop :=
  resultState = .completed ∧ ∀ c ∈ others, c.state = .completed

/-- Some chunk of the job is failed once the result is written. -/
def AnyFailed (resultState : ChunkState) (others : List (ManagedChunkNode F)) : Prop :=
  resultState = .failed ∨ ∃ c ∈ others, c.state = .failed

instance (resultState : ChunkState) (others : List (ManagedChunkNode F)) :
    Decidable (AllDone resultState others) :=
  inferInstanceAs (Decidable (_ ∧ _))

instance (resultState : ChunkState) (others : List (ManagedChunkNode F)) :
    Decidable (AnyFailed resultState others) :=
  inferInstanceAs (Decidable (_ ∨ _))

/-- The chunks of a job but for the first one with the id. -/
def ActiveWorkloadLifecycle.others (job : ActiveWorkloadLifecycle F) (chunkId : UInt64) :
    List (ManagedChunkNode F) :=
  job.chunks.eraseP fun c => c.chunkId == chunkId

theorem recalculate_state [DoubleArith F] (job : ActiveWorkloadLifecycle F) :
    (recalculateJobProgress job).state =
      if ∃ c ∈ job.chunks, c.state = .failed then .failed
      else if ∀ c ∈ job.chunks, c.state = .completed then .completed
      else job.state := by
  have hfailed : (job.chunks.countP (fun c => c.state == .failed) > 0) ↔
      ∃ c ∈ job.chunks, c.state = .failed := by
    simp [List.countP_pos_iff]
  have hdone : (job.chunks.countP (fun c => c.state == .completed) = job.chunks.length) ↔
      ∀ c ∈ job.chunks, c.state = .completed := by
    simp [List.countP_eq_length]
  simp only [recalculateJobProgress, hfailed, hdone]
  split
  · rfl
  · split <;> rfl

/-- Promotion makes no chunk completed or failed, nor takes that back. -/
theorem promote_state_eq_iff (edges : List DependencyEdge) (chunks : List (ManagedChunkNode F))
    (c : ManagedChunkNode F) (st : ChunkState) (hp : st ≠ .pending) (hr : st ≠ .ready) :
    (promote edges chunks c).state = st ↔ c.state = st := by
  unfold promote
  split
  · rename_i h
    exact iff_of_false (Ne.symm hr) fun e => hp (e.symm.trans h.1)
  · exact Iff.rfl

/-- The chunks after a result: the reported one and the others, up to order and promotion. -/
theorem mem_reported {job : ActiveWorkloadLifecycle F} {chunkId : UInt64} (resultState : ChunkState)
    (checksum : Option CStr) (hfound : job.chunks.any (fun c => c.chunkId == chunkId) = true) :
    ∃ c₀ ∈ job.chunks, ∀ c, c ∈ (writeResult job chunkId resultState checksum).chunks ↔
      c = c₀.report resultState checksum ∨ c ∈ job.others chunkId := by
  obtain ⟨c₀, hc₀⟩ : ∃ c, job.chunks.find? (fun c => c.chunkId == chunkId) = some c :=
    Option.isSome_iff_exists.mp (by rwa [List.isSome_find?])
  refine ⟨c₀, List.mem_of_find?_eq_some hc₀, fun c => ?_⟩
  rw [← List.mem_cons]
  exact (modifyFirst_perm (fun c => c.report resultState checksum) hc₀).mem_iff

theorem evaluate_chunks (job : ActiveWorkloadLifecycle F) :
    (evaluateReadyChunks job).chunks = job.chunks.map (promote job.edges job.chunks) :=
  evaluateLoop_eq_map job.edges job.chunks

theorem reported_exists_iff {job : ActiveWorkloadLifecycle F} {chunkId : UInt64}
    (resultState : ChunkState) (checksum : Option CStr)
    (hfound : job.chunks.any (fun c => c.chunkId == chunkId) = true) :
    (∃ c ∈ (evaluateReadyChunks (writeResult job chunkId resultState checksum)).chunks,
      c.state = .failed) ↔ AnyFailed resultState (job.others chunkId) := by
  obtain ⟨c₀, -, hmem⟩ := mem_reported resultState checksum hfound
  have hstate := fun edges chunks (c : ManagedChunkNode F) =>
    promote_state_eq_iff edges chunks c .failed (by decide) (by decide)
  rw [evaluate_chunks]
  constructor
  · rintro ⟨_, hpromoted, hst⟩
    obtain ⟨c, hc, rfl⟩ := List.mem_map.mp hpromoted
    rw [hstate] at hst
    rcases (hmem c).mp hc with rfl | hother
    · exact Or.inl hst
    · exact Or.inr ⟨c, hother, hst⟩
  · rintro (hst | ⟨c, hc, hst⟩)
    · exact ⟨_, List.mem_map_of_mem ((hmem _).mpr (Or.inl rfl)), (hstate _ _ _).mpr hst⟩
    · exact ⟨_, List.mem_map_of_mem ((hmem c).mpr (Or.inr hc)), (hstate _ _ _).mpr hst⟩

theorem reported_forall_iff {job : ActiveWorkloadLifecycle F} {chunkId : UInt64}
    (resultState : ChunkState) (checksum : Option CStr)
    (hfound : job.chunks.any (fun c => c.chunkId == chunkId) = true) :
    (∀ c ∈ (evaluateReadyChunks (writeResult job chunkId resultState checksum)).chunks,
      c.state = .completed) ↔ AllDone resultState (job.others chunkId) := by
  obtain ⟨c₀, -, hmem⟩ := mem_reported resultState checksum hfound
  rw [evaluate_chunks, List.forall_mem_map]
  simp only [promote_state_eq_iff _ _ _ .completed (by decide) (by decide), hmem]
  constructor
  · intro h
    exact ⟨h _ (Or.inl rfl), fun c hc => h c (Or.inr hc)⟩
  · rintro ⟨hst, hothers⟩ c (rfl | hc)
    · exact hst
    · exact hothers c hc

/-- **The state a result leaves.** -/
theorem reportChunk_state [DoubleArith F] {job : ActiveWorkloadLifecycle F} {chunkId : UInt64}
    (resultState : ChunkState) (checksum : Option CStr)
    (hfound : job.chunks.any (fun c => c.chunkId == chunkId) = true) :
    (reportChunk job chunkId resultState checksum).state =
      if AnyFailed resultState (job.others chunkId) then .failed
      else if AllDone resultState (job.others chunkId) then .completed
      else job.state := by
  unfold reportChunk
  rw [recalculate_state]
  simp only [reported_exists_iff resultState checksum hfound,
    reported_forall_iff resultState checksum hfound]
  rfl

/-! ## 2. Terminal states -/

def WorkloadState.Terminal (st : WorkloadState) : Prop :=
  st = .completed ∨ st = .failed ∨ st = .cancelled

/-- Every job that is in a terminal state in `s` is in the same state in `s'`. -/
def KeepsTerminal (s s' : WorkloadContext F) : Prop :=
  ∀ (i : Nat) (job : ActiveWorkloadLifecycle F), s.jobs[i]? = some job → job.state.Terminal →
    ∃ job', s'.jobs[i]? = some job' ∧ job'.state = job.state

theorem KeepsTerminal.refl (s : WorkloadContext F) : KeepsTerminal s s :=
  fun _ job hget _ => ⟨job, hget, rfl⟩

theorem KeepsTerminal.trans {a b c : WorkloadContext F} (h : KeepsTerminal a b)
    (h' : KeepsTerminal b c) : KeepsTerminal a c := by
  intro i job hget hterm
  obtain ⟨job₁, hget₁, hst₁⟩ := h i job hget hterm
  obtain ⟨job₂, hget₂, hst₂⟩ := h' i job₁ hget₁ (hst₁ ▸ hterm)
  exact ⟨job₂, hget₂, hst₂.trans hst₁⟩

/-- A change of the first job with `p`. -/
theorem keepsTerminal_modifyFirst {ctx ctx' : WorkloadContext F}
    {p : ActiveWorkloadLifecycle F → Bool} {f : ActiveWorkloadLifecycle F → ActiveWorkloadLifecycle F}
    (hjobs : ctx'.jobs = modifyFirst p f ctx.jobs) :
    KeepsTerminal ctx ctx' ↔
      ∀ job, ctx.jobs.find? p = some job → job.state.Terminal → (f job).state = job.state := by
  constructor
  · intro h job hfind hterm
    obtain ⟨i, hidx, hget⟩ := find?_iff_findIdx?.mp hfind
    obtain ⟨job', hget', hst⟩ := h i job hget hterm
    rw [hjobs, getElem?_modifyFirst, if_pos hidx, hget] at hget'
    cases hget'
    exact hst
  · intro h i job hget hterm
    rw [hjobs, getElem?_modifyFirst]
    split
    · rename_i hidx
      rw [hget]
      exact ⟨f job, rfl, h job (find?_iff_findIdx?.mpr ⟨i, hidx, hget⟩) hterm⟩
    · exact ⟨job, hget, rfl⟩

/-- All chunks completed and some chunk failed exclude each other. -/
theorem AllDone.not_anyFailed {resultState : ChunkState} {others : List (ManagedChunkNode F)}
    (h : AllDone resultState others) : ¬ AnyFailed resultState others := by
  rintro (hf | ⟨c, hc, hf⟩)
  · rw [h.1] at hf
    cases hf
  · rw [h.2 c hc] at hf
    cases hf

section Runs

variable [DoubleArith F]

/-- The steps that leave terminal states alone: a cancellation of a job that is neither completed nor
    failed; a result that does not complete a failed job, fail a completed one, or do either to a
    cancelled one. -/
def LeavesTerminal (ctx : WorkloadContext F) : WorkloadOp → Prop
  | .cancel workloadId => ∀ job, ctx.jobs.find? (fun job => job.workloadId == workloadId) = some job →
      job.state ≠ .completed ∧ job.state ≠ .failed
  | .updateChunkResult workloadId chunkId resultState _ =>
    ∀ job, ctx.jobs.find? (hasChunk workloadId chunkId) = some job →
      (job.state = .failed → ¬ AllDone resultState (job.others chunkId)) ∧
      (job.state = .completed → ¬ AnyFailed resultState (job.others chunkId)) ∧
      (job.state = .cancelled → ¬ AllDone resultState (job.others chunkId) ∧
        ¬ AnyFailed resultState (job.others chunkId))
  | _ => True

/-- A result keeps the terminal state of its job exactly under the condition. -/
theorem report_keeps_iff {job : ActiveWorkloadLifecycle F} {chunkId : UInt64}
    (resultState : ChunkState) (checksum : Option CStr)
    (hfound : job.chunks.any (fun c => c.chunkId == chunkId) = true) :
    (job.state.Terminal → (reportChunk job chunkId resultState checksum).state = job.state) ↔
      (job.state = .failed → ¬ AllDone resultState (job.others chunkId)) ∧
      (job.state = .completed → ¬ AnyFailed resultState (job.others chunkId)) ∧
      (job.state = .cancelled → ¬ AllDone resultState (job.others chunkId) ∧
        ¬ AnyFailed resultState (job.others chunkId)) := by
  have hexcl : AllDone resultState (job.others chunkId) →
      ¬ AnyFailed resultState (job.others chunkId) := AllDone.not_anyFailed
  rw [reportChunk_state resultState checksum hfound]
  by_cases hfail : AnyFailed resultState (job.others chunkId)
  · have hnd : ¬ AllDone resultState (job.others chunkId) := fun h => hexcl h hfail
    cases hst : job.state <;> simp [WorkloadState.Terminal, hfail, hnd]
  · by_cases hdone : AllDone resultState (job.others chunkId)
    · cases hst : job.state <;> simp [WorkloadState.Terminal, hfail, hdone]
    · cases hst : job.state <;> simp [WorkloadState.Terminal, hfail, hdone]

/-- One step keeps terminal states exactly under the condition. -/
theorem step_keepsTerminal_iff (ctx : WorkloadContext F) (o : WorkloadOp) :
    KeepsTerminal ctx (workloadMachine.next ctx o) ↔ LeavesTerminal ctx o := by
  cases o with
  | submit input currentTimeMs =>
    refine iff_of_true (fun i job hget _ => ⟨job, ?_, rfl⟩) trivial
    show (vomWorkloadSubmit ctx input currentTimeMs).1.jobs[i]? = some job
    unfold vomWorkloadSubmit
    split
    · exact hget
    · split
      · exact hget
      · exact List.getElem?_append_left (List.getElem?_eq_some_iff.mp hget).1 ▸ hget
  | cancel workloadId =>
    refine (keepsTerminal_modifyFirst rfl).trans (forall_congr' fun job => imp_congr_right fun _ => ?_)
    cases hst : job.state <;> simp [WorkloadState.Terminal]
  | updateChunkResult workloadId chunkId resultState checksum =>
    refine (keepsTerminal_modifyFirst rfl).trans
      (forall_congr' fun job => imp_congr_right fun hfind => ?_)
    have hhit : hasChunk workloadId chunkId job = true := List.find?_some hfind
    exact report_keeps_iff resultState checksum (Bool.and_eq_true_iff.mp hhit).2
  | checkDeadlines currentTimeMs =>
    refine iff_of_true (fun i job hget hterm => ⟨checkDeadline currentTimeMs job, ?_, ?_⟩) trivial
    · show (ctx.jobs.map (checkDeadline currentTimeMs))[i]? = _
      rw [List.getElem?_map, hget]
      rfl
    · have hne : job.state ≠ .executing := by
        rcases hterm with h | h | h <;> simp [h]
      rw [checkDeadline, if_neg fun h => hne h.1]

/-- **When a terminal state is final.** In a run from `vom_workload_init` every job that is completed,
    failed or cancelled at some point is in the same state at every later point, exactly when every
    step of the run leaves terminal states alone. -/
theorem terminal_final_iff (ops : List WorkloadOp) :
    (∀ pre mid, pre ++ mid <+: ops →
      KeepsTerminal (workloadMachine.run (vomWorkloadInit : WorkloadContext F) pre)
        (workloadMachine.run vomWorkloadInit (pre ++ mid))) ↔
    workloadMachine.Legal LeavesTerminal (vomWorkloadInit : WorkloadContext F) ops := by
  refine (workloadMachine.between_iff_legal KeepsTerminal.refl KeepsTerminal.trans).trans ?_
  exact workloadMachine.legal_iff step_keepsTerminal_iff

end Runs

/-- A splittable workload with a deadline of a minute. -/
def smallWorkload : UserWorkloadDesc where
  workloadName := emptyText
  totalSizeBytes := 300
  intensityFactor := 2
  isSplittable := true
  dataNodeHint := 0
  deadlineSeconds := 60

/-- A job is cancelled, and then its first chunk is reported as failed. -/
def lateFailure : List WorkloadOp :=
  [.submit smallWorkload 0, .cancel 1001, .updateChunkResult 1001 (plannedId 1001 0) .failed none]

/-- **A late result revives a cancelled job.** -/
theorem cancelled_job_fails :
    ¬ ∀ ops pre mid, pre ++ mid <+: ops →
      KeepsTerminal (workloadMachine.run (vomWorkloadInit : WorkloadContext (Option ℚ)) pre)
        (workloadMachine.run vomWorkloadInit (pre ++ mid)) := by
  intro h
  have hkeep := h lateFailure (lateFailure.take 2) (lateFailure.drop 2) (List.prefix_refl _)
  have hcancelled : ((workloadMachine.run (vomWorkloadInit : WorkloadContext (Option ℚ))
      (lateFailure.take 2)).jobs[0]?.map (·.state)) = some .cancelled := by decide +kernel
  have hfailed : ((workloadMachine.run (vomWorkloadInit : WorkloadContext (Option ℚ))
      (lateFailure.take 2 ++ lateFailure.drop 2)).jobs[0]?.map (·.state)) = some .failed := by
    decide +kernel
  obtain ⟨job, hget, hst⟩ := Option.map_eq_some_iff.mp hcancelled
  obtain ⟨job', hget', hst'⟩ := hkeep 0 job hget (Or.inr (Or.inr hst))
  rw [hget', Option.map_some, hst', hst] at hfailed
  cases hfailed

end VoidOsMerger
