/-
  File:      VoidOsMerger/Workload/Frame.lean
  Subject:   WHAT A CHUNK RESULT CHANGES IN THE WORKLOAD STORE (master/src/workload.c).

  Workload ids are counted up from 1001, and the id of a chunk is the workload id shifted by sixteen
  bits with the index of the chunk below it. Jobs are found by linear search over these ids.

  * `IdsAssigned` -- the ids of the store are those of the submissions in order; `idsAssigned_run` --
    after every run;
  * `workloadIds_nodup`, `chunkIds_distinct` -- no id occurs twice, over all jobs;
  * `JobAfter`, `ChunkAfter` -- the fields a result may write;
  * **`chunk_result_frame`** -- when a result is taken, and what it leaves as it was.
-/
import VoidOsMerger.Workload.Offered
import VoidOsMerger.Workload.Confluence

namespace VoidOsMerger

variable {F : Type}

/-! ## 1. The ids of the store -/

/-- The id of a job and the ids of its chunks. -/
def ActiveWorkloadLifecycle.jobIds (job : ActiveWorkloadLifecycle F) : UInt64 × List UInt64 :=
  (job.workloadId, job.chunks.map (·.chunkId))

/-- The workload id of submission `i` since `vom_workload_init`. -/
def assignedId (i : Nat) : UInt64 := 1001 + UInt64.ofNat i

/-- The ids of the chunks of submission `i`. -/
def assignedChunkIds (i : Nat) : List UInt64 :=
  [plannedId (assignedId i) 0, plannedId (assignedId i) 1, plannedId (assignedId i) 2]

structure IdsAssigned (ctx : WorkloadContext F) : Prop where
  nextId : ctx.nextWorkloadId = assignedId ctx.jobs.length
  jobsFit : ctx.jobs.length ≤ maxActiveWorkloads
  ids : ctx.jobs.map (·.jobIds) =
    (List.range ctx.jobs.length).map fun i => (assignedId i, assignedChunkIds i)

theorem assignedId_succ (i : Nat) : assignedId i + 1 = assignedId (i + 1) := by
  unfold assignedId
  rw [UInt64.ofNat_add, UInt64.add_assoc]
  rfl

theorem assignedId_toNat {i : Nat} (h : i < maxActiveWorkloads) : (assignedId i).toNat = 1001 + i := by
  unfold maxActiveWorkloads at h
  have hsmall : i < 2 ^ 64 := by omega
  unfold assignedId
  rw [UInt64.toNat_add, UInt64.toNat_ofNat_of_lt' hsmall]
  show (1001 + i) % 2 ^ 64 = 1001 + i
  omega

theorem assignedId_injective {i j : Nat} (hi : i < maxActiveWorkloads) (hj : j < maxActiveWorkloads)
    (h : assignedId i = assignedId j) : i = j := by
  have hnat := congrArg UInt64.toNat h
  rw [assignedId_toNat hi, assignedId_toNat hj] at hnat
  omega

/-- The workload id is above the low bits of the ids of its chunks. -/
theorem plannedId_high {workloadId i : UInt64} (hid : workloadId.toNat < 2 ^ 48)
    (hi : i.toNat < 2 ^ 16) : (plannedId workloadId i).toNat / 2 ^ 16 = workloadId.toNat := by
  have hshift : workloadId.toNat <<< (UInt64.toNat 16 % 64) % 2 ^ 64 = workloadId.toNat <<< 16 := by
    show workloadId.toNat <<< 16 % 2 ^ 64 = workloadId.toNat <<< 16
    rw [Nat.shiftLeft_eq]
    exact Nat.mod_eq_of_lt (by omega)
  have hlow : i.toNat >>> 16 = 0 := by
    rw [Nat.shiftRight_eq_div_pow]
    exact Nat.div_eq_of_lt hi
  unfold plannedId
  rw [UInt64.toNat_or, UInt64.toNat_shiftLeft, hshift, ← Nat.shiftRight_eq_div_pow,
    Nat.shiftRight_or_distrib, Nat.shiftLeft_shiftRight, hlow, Nat.or_zero]

theorem assignedChunkIds_high {i : Nat} (hi : i < maxActiveWorkloads) {id : UInt64}
    (h : id ∈ assignedChunkIds i) : id.toNat / 2 ^ 16 = 1001 + i := by
  have hnat := assignedId_toNat hi
  have hid : (assignedId i).toNat < 2 ^ 48 := by
    unfold maxActiveWorkloads at hi
    omega
  rw [← hnat]
  simp only [assignedChunkIds, List.mem_cons, List.not_mem_nil, or_false] at h
  rcases h with rfl | rfl | rfl <;> exact plannedId_high hid (by decide)

theorem assignedChunkIds_nodup (i : Nat) : (assignedChunkIds i).Nodup := by
  have hne : ∀ {a b : UInt64}, a.toNat < 2 ^ 16 → b.toNat < 2 ^ 16 → a ≠ b →
      plannedId (assignedId i) a ≠ plannedId (assignedId i) b := fun ha hb => plannedId_ne _ ha hb
  simp only [assignedChunkIds, List.nodup_cons, List.mem_cons, List.not_mem_nil, or_false, not_or,
    List.nodup_nil, not_false_eq_true, and_true]
  exact ⟨⟨hne (by decide) (by decide) (by decide), hne (by decide) (by decide) (by decide)⟩,
    hne (by decide) (by decide) (by decide)⟩

section Distinct

variable {ctx : WorkloadContext F} (h : IdsAssigned ctx)

include h

/-- **No workload id occurs twice.** -/
theorem workloadIds_nodup : (ctx.jobs.map (·.workloadId)).Nodup := by
  have hids : ctx.jobs.map (·.workloadId) = (List.range ctx.jobs.length).map assignedId := by
    have hfst := congrArg (List.map Prod.fst) h.ids
    rwa [List.map_map, List.map_map] at hfst
  rw [hids]
  refine List.Nodup.map_on (fun i hi j hj => ?_) List.nodup_range
  rw [List.mem_range] at hi hj
  exact assignedId_injective (Nat.lt_of_lt_of_le hi h.jobsFit) (Nat.lt_of_lt_of_le hj h.jobsFit)

/-- **No chunk id occurs twice**, within a job or in two jobs. -/
theorem chunkIds_distinct : (ctx.jobs.flatMap fun job => job.chunks.map (·.chunkId)).Nodup := by
  have hids : (ctx.jobs.flatMap fun job => job.chunks.map (·.chunkId)) =
      (List.range ctx.jobs.length).flatMap assignedChunkIds := by
    have hsnd := congrArg (List.flatMap Prod.snd) h.ids
    rwa [List.flatMap_map, List.flatMap_map] at hsnd
  rw [hids, List.nodup_flatMap]
  refine ⟨fun i _ => assignedChunkIds_nodup i, ?_⟩
  refine List.nodup_range.imp_of_mem fun {i j} hi hj hne id hid hid' => hne ?_
  rw [List.mem_range] at hi hj
  have hhigh := assignedChunkIds_high (Nat.lt_of_lt_of_le hi h.jobsFit) hid
  have hhigh' := assignedChunkIds_high (Nat.lt_of_lt_of_le hj h.jobsFit) hid'
  omega

end Distinct

/-! ## 2. Every run -/

/-- A step that keeps the ids of every job. -/
theorem IdsAssigned.of_same {ctx ctx' : WorkloadContext F} (h : IdsAssigned ctx)
    (hnext : ctx'.nextWorkloadId = ctx.nextWorkloadId)
    (hids : ctx'.jobs.map (·.jobIds) = ctx.jobs.map (·.jobIds)) : IdsAssigned ctx' := by
  have hlen : ctx'.jobs.length = ctx.jobs.length := by
    simpa using congrArg List.length hids
  exact ⟨by rw [hnext, hlen, h.nextId], hlen ▸ h.jobsFit, by rw [hids, hlen, h.ids]⟩

section Runs

variable [DoubleArith F]

theorem reportChunk_jobIds (job : ActiveWorkloadLifecycle F) (chunkId : UInt64)
    (resultState : ChunkState) (checksum : Option CStr) :
    (reportChunk job chunkId resultState checksum).jobIds = job.jobIds := by
  have hid := (reportChunk_same (SameJob.refl job) chunkId resultState checksum).workloadId
  have hchunks : (reportChunk job chunkId resultState checksum).chunks.map (·.chunkId) =
      job.chunks.map (·.chunkId) := by
    unfold reportChunk
    rw [(recalculate_graph _).1, evaluate_chunks, List.map_map]
    have hpromote : ∀ chunks : List (ManagedChunkNode F),
        chunks.map ((·.chunkId) ∘ promote job.edges chunks) = chunks.map (·.chunkId) := fun chunks =>
      List.map_congr_left fun c _ => promote_chunkId job.edges chunks c
    refine (hpromote _).trans (map_modifyFirst _ _ _ ?_ job.chunks)
    exact fun _ => rfl
  exact Prod.ext hid hchunks

theorem plannedJob_jobIds (desc : UserWorkloadDesc) (i : Nat) (currentTimeMs : UInt64) :
    (evaluateReadyChunks (plannedJob (F := F) desc (assignedId i) currentTimeMs)).jobIds =
      (assignedId i, assignedChunkIds i) := by
  unfold ActiveWorkloadLifecycle.jobIds
  rw [evaluate_chunks, List.map_map]
  refine Prod.ext rfl ?_
  exact List.map_congr_left fun c _ => promote_chunkId _ _ c

theorem IdsAssigned.submit {ctx : WorkloadContext F} (h : IdsAssigned ctx) (input : UserWorkloadDesc)
    (currentTimeMs : UInt64) : IdsAssigned (vomWorkloadSubmit ctx input currentTimeMs).1 := by
  unfold vomWorkloadSubmit
  split
  · exact h
  · split
    · exact h
    · rename_i hroom
      refine ⟨?_, ?_, ?_⟩
      · dsimp only
        rw [List.length_append, List.length_singleton, h.nextId, assignedId_succ]
      · rw [List.length_append, List.length_singleton]
        exact Nat.not_le.mp hroom
      · dsimp only
        rw [h.nextId, List.length_append, List.length_singleton, List.range_succ, List.map_append,
          List.map_append, h.ids, List.map_singleton, plannedJob_jobIds, List.map_singleton]

theorem idsAssigned_next (ctx : WorkloadContext F) (o : WorkloadOp) (h : IdsAssigned ctx) :
    IdsAssigned (workloadMachine.next ctx o) := by
  cases o with
  | submit input currentTimeMs => exact h.submit input currentTimeMs
  | cancel workloadId =>
    refine h.of_same rfl (map_modifyFirst _ _ _ ?_ ctx.jobs)
    exact fun _ => rfl
  | updateChunkResult workloadId chunkId resultState checksum =>
    exact h.of_same rfl
      (map_modifyFirst _ _ _ (fun job => reportChunk_jobIds job chunkId resultState checksum) ctx.jobs)
  | checkDeadlines currentTimeMs =>
    refine h.of_same rfl ?_
    show (ctx.jobs.map (checkDeadline currentTimeMs)).map (·.jobIds) = _
    rw [List.map_map]
    refine List.map_congr_left fun job _ => ?_
    show (checkDeadline currentTimeMs job).jobIds = job.jobIds
    unfold checkDeadline
    split <;> rfl

theorem idsAssigned_run (ops : List WorkloadOp) :
    IdsAssigned (workloadMachine.run (vomWorkloadInit : WorkloadContext F) ops) :=
  workloadMachine.invariant_all IdsAssigned idsAssigned_next ops ⟨rfl, Nat.zero_le _, rfl⟩

end Runs

/-! ## 3. What a result writes -/

/-- A chunk of the job that gets a result: the chunk itself gets the result's state and checksum, any
    other one is as it was; a pending one may be promoted after that. -/
def ChunkAfter (chunkId : UInt64) (resultState : ChunkState) (checksum : Option CStr)
    (c c' : ManagedChunkNode F) : Prop :=
  let written := if c.chunkId = chunkId then c.report resultState checksum else c
  c' = written ∨ written.state = .pending ∧ c' = { written with state := .ready }

/-- The job that gets a result keeps all fields but its state, its progress, its hash and those of its
    chunks; any other job is as it was. -/
structure JobAfter (workloadId chunkId : UInt64) (resultState : ChunkState) (checksum : Option CStr)
    (job job' : ActiveWorkloadLifecycle F) : Prop where
  other : job.workloadId ≠ workloadId → job' = job
  same : SameJob job job'
  chunks : job.workloadId = workloadId →
    List.Forall₂ (ChunkAfter chunkId resultState checksum) job.chunks job'.chunks

theorem promote_cases (edges : List DependencyEdge) (chunks : List (ManagedChunkNode F))
    (c : ManagedChunkNode F) :
    promote edges chunks c = c ∨
      c.state = .pending ∧ promote edges chunks c = { c with state := .ready } := by
  unfold promote
  split
  · rename_i hready
    exact Or.inr ⟨hready.1, rfl⟩
  · exact Or.inl rfl

section Results

variable [DoubleArith F]

theorem reportChunk_chunks {job : ActiveWorkloadLifecycle F}
    (hids : (job.chunks.map (·.chunkId)).Nodup) (chunkId : UInt64) (resultState : ChunkState)
    (checksum : Option CStr) :
    List.Forall₂ (ChunkAfter chunkId resultState checksum) job.chunks
      (reportChunk job chunkId resultState checksum).chunks := by
  have hwritten : (writeResult job chunkId resultState checksum).chunks =
      job.chunks.map fun c => if c.chunkId = chunkId then c.report resultState checksum else c := by
    refine (modifyFirst_eq_map _ ManagedChunkNode.chunkId (fun c => beq_iff_eq) hids).trans ?_
    simp only [beq_iff_eq]
  unfold reportChunk
  rw [(recalculate_graph _).1, evaluate_chunks, hwritten, List.map_map, List.forall₂_map_right_iff,
    List.forall₂_same]
  exact fun c _ => promote_cases _ _ _

/-- The job found is the one with the workload id. -/
theorem update_jobs {ctx : WorkloadContext F} (hids : (ctx.jobs.map (·.workloadId)).Nodup)
    {workloadId chunkId : UInt64} (resultState : ChunkState) (checksum : Option CStr)
    (hfound : ctx.jobs.any (hasChunk workloadId chunkId) = true) :
    (vomWorkloadUpdateChunkResult ctx workloadId chunkId resultState checksum).1.jobs =
      ctx.jobs.map fun job =>
        if job.workloadId = workloadId then reportChunk job chunkId resultState checksum else job := by
  obtain ⟨job, hjob, hhit⟩ := List.any_eq_true.mp hfound
  have hid : ∀ {job : ActiveWorkloadLifecycle F}, hasChunk workloadId chunkId job = true →
      (job.workloadId == workloadId) = true := fun h => (Bool.and_eq_true_iff.mp h).1
  have hfind : ctx.jobs.find? (fun job => job.workloadId == workloadId) = some job :=
    find?_key (·.workloadId) hids hjob fun x => by rw [beq_iff_eq, beq_iff_eq.mp (hid hhit)]
  refine (modifyFirst_narrow _ hfind (fun x => hid) hhit).trans ?_
  refine (modifyFirst_eq_map _ ActiveWorkloadLifecycle.workloadId (fun job => beq_iff_eq) hids).trans ?_
  simp only [beq_iff_eq]

/-- **What a chunk result changes.** After every run from `vom_workload_init` the workload ids are
    pairwise distinct, and so are the chunk ids of all jobs. A result is taken exactly when the job with
    the workload id has the chunk; it then writes to that job only, as `JobAfter` and `ChunkAfter` say,
    and otherwise leaves the store as it was. -/
theorem chunk_result_frame (ops : List WorkloadOp) (workloadId chunkId : UInt64)
    (resultState : ChunkState) (checksum : Option CStr) :
    let ctx := workloadMachine.run (vomWorkloadInit : WorkloadContext F) ops
    let r := vomWorkloadUpdateChunkResult ctx workloadId chunkId resultState checksum
    (ctx.jobs.map (·.workloadId)).Nodup ∧
    (ctx.jobs.flatMap fun job => job.chunks.map (·.chunkId)).Nodup ∧
    (r.2 = true ↔ ∃ job ∈ ctx.jobs, job.workloadId = workloadId ∧ ∃ c ∈ job.chunks, c.chunkId = chunkId) ∧
    (r.2 = true → r.1.nextWorkloadId = ctx.nextWorkloadId ∧
      List.Forall₂ (JobAfter workloadId chunkId resultState checksum) ctx.jobs r.1.jobs) ∧
    (r.2 = false → r.1 = ctx) := by
  intro ctx r
  have hassigned : IdsAssigned ctx := idsAssigned_run ops
  have hids := workloadIds_nodup hassigned
  have hchunks := chunkIds_distinct hassigned
  refine ⟨hids, hchunks, ?_, fun htrue => ⟨rfl, ?_⟩, fun hfalse => ?_⟩
  · show ctx.jobs.any (hasChunk workloadId chunkId) = true ↔ _
    simp [hasChunk]
  · have hjobs : r.1.jobs = ctx.jobs.map fun job =>
        if job.workloadId = workloadId then reportChunk job chunkId resultState checksum else job :=
      update_jobs hids resultState checksum htrue
    rw [hjobs, List.forall₂_map_right_iff, List.forall₂_same]
    intro job hjob
    by_cases hid : job.workloadId = workloadId
    · rw [if_pos hid]
      refine ⟨fun hne => absurd hid hne, reportChunk_same (SameJob.refl job) _ _ _, fun _ => ?_⟩
      exact reportChunk_chunks ((List.nodup_flatMap.mp hchunks).1 job hjob) chunkId resultState checksum
    · rw [if_neg hid]
      exact ⟨fun _ => rfl, SameJob.refl job, fun h => absurd h hid⟩
  · have hnone : ctx.jobs.find? (hasChunk workloadId chunkId) = none := by
      rw [List.find?_eq_none]
      exact List.any_eq_false.mp hfalse
    show { ctx with jobs := modifyFirst _ _ ctx.jobs } = ctx
    rw [modifyFirst_of_none _ hnone]

end Results

end VoidOsMerger
