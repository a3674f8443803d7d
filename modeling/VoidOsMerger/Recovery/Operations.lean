/-
  File:      VoidOsMerger/Recovery/Operations.lean
  Subject:   WHAT EACH OPERATION OF THE RECOVERY ENGINE DOES, as equations.

  * `sweep_workers`, `sweep_leases_map` -- a sweep works on every worker and on every lease for
    itself: the loops over both tables amount to two maps;
  * `sweep_jobs` -- the counter of recovery jobs after a sweep that began with none;
  * `result_cases`, `heartbeat_leases`, `inject_workers`, .. -- the other operations.
-/
import VoidOsMerger.Recovery.Model

namespace VoidOsMerger

/-! ## 1. Sweeps -/

/-- The sweep finds this worker silent for too long. -/
def RecWorkerObs.Lost (nowMs timeoutMs : UInt64) (w : RecWorkerObs) : Prop :=
  w.isHealthy ∧ nowMs - w.lastHeartbeatMs > timeoutMs

instance (nowMs timeoutMs : UInt64) (w : RecWorkerObs) : Decidable (w.Lost nowMs timeoutMs) :=
  inferInstanceAs (Decidable (_ ∧ _))

/-- What a sweep of the recovery engine makes of one worker. -/
def RecWorkerObs.mark (nowMs timeoutMs : UInt64) (w : RecWorkerObs) : RecWorkerObs :=
  if w.isHealthy ∧ nowMs - w.lastHeartbeatMs > timeoutMs then { w with isHealthy := false } else w

/-- What a sweep's first step makes of one lease. -/
def RecLeaseRecord.lose (nowMs timeoutMs : UInt64) (ws : List RecWorkerObs) (l : RecLeaseRecord) :
    RecLeaseRecord :=
  if l.state = .active ∧ ∃ w ∈ ws, w.Lost nowMs timeoutMs ∧ l.assignedWorkerId.str = w.workerId.str
  then { l with state := .uncertain } else l

/-- The lease is one a sweep's second step takes. -/
def RecLeaseRecord.Taken (nowMs : UInt64) (l : RecLeaseRecord) : Prop :=
  l.state = .uncertain ∨ (l.state = .active ∧ nowMs > l.leaseExpiresMs)

instance (nowMs : UInt64) (l : RecLeaseRecord) : Decidable (l.Taken nowMs) :=
  inferInstanceAs (Decidable (_ ∨ _))

theorem sweepWorkers_workers (nowMs timeoutMs : UInt64) :
    ∀ (ws : List RecWorkerObs) (ls : List RecLeaseRecord) (jobs : UInt32),
      (sweepWorkers nowMs timeoutMs ws ls jobs).1 = ws.map (·.mark nowMs timeoutMs)
  | [], _, _ => rfl
  | w :: ws, ls, jobs => by
      unfold sweepWorkers
      rw [List.map_cons, RecWorkerObs.mark]
      split
      · exact congrArg (_ :: ·) (sweepWorkers_workers nowMs timeoutMs ws _ _)
      · exact congrArg (_ :: ·) (sweepWorkers_workers nowMs timeoutMs ws _ _)

theorem markUncertain_leases (workerId : CStr) :
    ∀ (ls : List RecLeaseRecord) (jobs : UInt32), (markUncertain workerId ls jobs).1 =
      ls.map fun l =>
        if l.assignedWorkerId.str = workerId ∧ l.state = .active then { l with state := .uncertain }
        else l
  | [], _ => rfl
  | l :: ls, jobs => by
      unfold markUncertain
      rw [List.map_cons]
      simp only [strcmp_eq_zero_iff]
      split
      · exact congrArg (_ :: ·) (markUncertain_leases workerId ls _)
      · exact congrArg (_ :: ·) (markUncertain_leases workerId ls _)

/-- Losing the workers one after another. -/
theorem lose_cons {nowMs timeoutMs : UInt64} {w : RecWorkerObs} (hw : w.Lost nowMs timeoutMs)
    (ws : List RecWorkerObs) (l : RecLeaseRecord) :
    RecLeaseRecord.lose nowMs timeoutMs ws
      (if l.assignedWorkerId.str = w.workerId.str ∧ l.state = .active
        then { l with state := .uncertain } else l) = l.lose nowMs timeoutMs (w :: ws) := by
  unfold RecLeaseRecord.lose
  by_cases hl : l.assignedWorkerId.str = w.workerId.str ∧ l.state = .active
  · rw [if_pos hl, if_neg (by simp), if_pos ⟨hl.2, w, List.mem_cons_self, hw, hl.1⟩]
  · rw [if_neg hl]
    refine if_congr (and_congr_right fun hact => ?_) rfl rfl
    have hother : l.assignedWorkerId.str ≠ w.workerId.str := fun e => hl ⟨e, hact⟩
    simp [hother]

theorem lose_cons_kept {nowMs timeoutMs : UInt64} {w : RecWorkerObs}
    (hw : ¬ w.Lost nowMs timeoutMs) (ws : List RecWorkerObs) (l : RecLeaseRecord) :
    l.lose nowMs timeoutMs ws = l.lose nowMs timeoutMs (w :: ws) := by
  unfold RecLeaseRecord.lose
  simp [hw]

theorem sweepWorkers_leases (nowMs timeoutMs : UInt64) :
    ∀ (ws : List RecWorkerObs) (ls : List RecLeaseRecord) (jobs : UInt32),
      (sweepWorkers nowMs timeoutMs ws ls jobs).2.1 = ls.map (·.lose nowMs timeoutMs ws)
  | [], ls, _ => by
      have hid : ∀ l ∈ ls, l.lose nowMs timeoutMs [] = id l := fun l _ => if_neg (by simp)
      rw [List.map_congr_left hid, List.map_id]
      rfl
  | w :: ws, ls, jobs => by
      unfold sweepWorkers
      split
      · rename_i hw
        show (sweepWorkers nowMs timeoutMs ws _ _).2.1 = _
        rw [sweepWorkers_leases nowMs timeoutMs ws, markUncertain_leases, List.map_map]
        exact List.map_congr_left fun l _ => lose_cons hw ws l
      · rename_i hw
        show (sweepWorkers nowMs timeoutMs ws _ _).2.1 = _
        rw [sweepWorkers_leases nowMs timeoutMs ws]
        exact List.map_congr_left fun l _ => lose_cons_kept hw ws l

theorem sweepLeases_leases (nowMs : UInt64) : ∀ (ls : List RecLeaseRecord) (jobs : UInt32),
    (sweepLeases nowMs ls jobs).1 = ls.map (sweepLease nowMs)
  | [], _ => rfl
  | _ :: ls, _ => congrArg (_ :: ·) (sweepLeases_leases nowMs ls _)

/-- **The workers after a sweep.** -/
theorem sweep_workers (ctx : RecoveryContext) (nowMs timeoutMs : UInt64) :
    (vomRecoverySweepTimeouts ctx nowMs timeoutMs).workers =
      ctx.workers.map (·.mark nowMs timeoutMs) :=
  sweepWorkers_workers nowMs timeoutMs _ _ _

/-- **The leases after a sweep.** -/
theorem sweep_leases_map (ctx : RecoveryContext) (nowMs timeoutMs : UInt64) :
    (vomRecoverySweepTimeouts ctx nowMs timeoutMs).leases =
      ctx.leases.map fun l => sweepLease nowMs (l.lose nowMs timeoutMs ctx.workers) := by
  show (sweepLeases nowMs _ _).1 = _
  rw [sweepLeases_leases, sweepWorkers_leases, List.map_map]
  rfl

/-- What a sweep does to the lease table, told by what its two steps do to one lease. -/
theorem sweep_leases {R : RecLeaseRecord → RecLeaseRecord → Prop} (hrefl : ∀ l, R l l)
    (htrans : ∀ a b c, R a b → R b c → R a c)
    (hmark : ∀ l, l.state = .active → R l { l with state := .uncertain }) {nowMs : UInt64}
    (hsweep : ∀ l, R l (sweepLease nowMs l)) (ctx : RecoveryContext) (timeoutMs : UInt64) :
    List.Forall₂ R ctx.leases (vomRecoverySweepTimeouts ctx nowMs timeoutMs).leases := by
  rw [sweep_leases_map, List.forall₂_map_right_iff]
  refine List.forall₂_same.mpr fun l _ => htrans _ _ _ ?_ (hsweep _)
  unfold RecLeaseRecord.lose
  split
  · rename_i h
    exact hmark l h.1
  · exact hrefl l

/-! ## 2. One lease under a sweep -/

theorem sweepLease_kept {nowMs : UInt64} {l : RecLeaseRecord} (h : ¬ l.Taken nowMs) :
    sweepLease nowMs l = l := if_neg h

/-- The second step leaves a taken lease expired or reconciled. -/
theorem sweepLease_taken {nowMs : UInt64} {l : RecLeaseRecord} (h : l.Taken nowMs) :
    (sweepLease nowMs l).state = .expired ∨ (sweepLease nowMs l).state = .reconciled := by
  unfold RecLeaseRecord.Taken at h
  rw [sweepLease, if_pos h]
  dsimp only
  split
  · exact Or.inl rfl
  · exact Or.inr rfl

/-- No lease is uncertain after a sweep. -/
theorem sweepLease_not_uncertain (nowMs : UInt64) (l : RecLeaseRecord) :
    (sweepLease nowMs l).state ≠ .uncertain := by
  by_cases h : l.Taken nowMs
  · rcases sweepLease_taken h with e | e <;> rw [e] <;> decide
  · rw [sweepLease_kept h]
    exact fun e => h (Or.inl e)

/-- **The leases that are active after a sweep**: those that were, whose time is not up, and of whose
    workers none was lost in this sweep. They are unchanged. -/
theorem mem_sweep_active {ctx : RecoveryContext} {nowMs timeoutMs : UInt64} {l : RecLeaseRecord} :
    (l ∈ (vomRecoverySweepTimeouts ctx nowMs timeoutMs).leases ∧ l.state = .active) ↔
      l ∈ ctx.leases ∧ l.state = .active ∧ ¬ nowMs > l.leaseExpiresMs ∧
        ∀ w ∈ ctx.workers, l.assignedWorkerId.str = w.workerId.str → ¬ w.Lost nowMs timeoutMs := by
  rw [sweep_leases_map, List.mem_map]
  constructor
  · rintro ⟨⟨a, ha, rfl⟩, hact⟩
    have hkept : ¬ (a.lose nowMs timeoutMs ctx.workers).Taken nowMs := fun h => by
      rcases sweepLease_taken h with e | e <;> rw [e] at hact <;> cases hact
    rw [sweepLease_kept hkept] at hact ⊢
    have hnot : ¬ (a.state = .active ∧ ∃ w ∈ ctx.workers, w.Lost nowMs timeoutMs ∧
        a.assignedWorkerId.str = w.workerId.str) := fun h => by
      rw [RecLeaseRecord.lose, if_pos h] at hact
      cases hact
    rw [RecLeaseRecord.lose, if_neg hnot] at hact hkept ⊢
    exact ⟨ha, hact, fun h => hkept (Or.inr ⟨hact, h⟩),
      fun w hw e hlost => hnot ⟨hact, w, hw, hlost, e⟩⟩
  · rintro ⟨hl, hact, htime, hworker⟩
    have hlose : l.lose nowMs timeoutMs ctx.workers = l := by
      rw [RecLeaseRecord.lose, if_neg]
      rintro ⟨_, w, hw, hlost, e⟩
      exact hworker w hw e hlost
    have hkept : ¬ l.Taken nowMs := by
      rintro (h | h)
      · rw [hact] at h
        cases h
      · exact htime h.2
    exact ⟨⟨l, hl, by rw [hlose, sweepLease_kept hkept]⟩, hact⟩

/-! ## 3. The counter of recovery jobs -/

/-- The number of uncertain leases. -/
def uncertainLeases (ls : List RecLeaseRecord) : Nat := ls.countP fun l => l.state = .uncertain

theorem uncertainLeases_cons (l : RecLeaseRecord) (ls : List RecLeaseRecord) :
    uncertainLeases (l :: ls) = uncertainLeases ls + if l.state = .uncertain then 1 else 0 := by
  simp [uncertainLeases, List.countP_cons]

theorem toNat_add_one_le (n : UInt32) : (n + 1).toNat ≤ n.toNat + 1 := by
  rw [UInt32.toNat_add]
  exact Nat.mod_le _ _

/-- Marking a lease counts at most one job. -/
theorem markUncertain_jobs (workerId : CStr) : ∀ (ls : List RecLeaseRecord) (jobs : UInt32),
    (markUncertain workerId ls jobs).2.toNat + uncertainLeases ls ≤
      jobs.toNat + uncertainLeases (markUncertain workerId ls jobs).1
  | [], _ => Nat.le_refl _
  | l :: ls, jobs => by
      unfold markUncertain
      split
      · rename_i h
        have ih := markUncertain_jobs workerId ls (jobs + 1)
        have hone := toNat_add_one_le jobs
        dsimp only
        rw [uncertainLeases_cons, uncertainLeases_cons, h.2, if_neg (by decide), if_pos rfl]
        omega
      · have ih := markUncertain_jobs workerId ls jobs
        dsimp only
        rw [uncertainLeases_cons, uncertainLeases_cons]
        omega

theorem sweepWorkers_jobs (nowMs timeoutMs : UInt64) :
    ∀ (ws : List RecWorkerObs) (ls : List RecLeaseRecord) (jobs : UInt32),
      (sweepWorkers nowMs timeoutMs ws ls jobs).2.2.toNat + uncertainLeases ls ≤
        jobs.toNat + uncertainLeases (sweepWorkers nowMs timeoutMs ws ls jobs).2.1
  | [], _, _ => Nat.le_refl _
  | w :: ws, ls, jobs => by
      unfold sweepWorkers
      split
      · have hmark := markUncertain_jobs w.workerId.str ls jobs
        have hrest := sweepWorkers_jobs nowMs timeoutMs ws (markUncertain w.workerId.str ls jobs).1
          (markUncertain w.workerId.str ls jobs).2
        dsimp only
        omega
      · exact sweepWorkers_jobs nowMs timeoutMs ws ls jobs

/-- Taking at least as many leases as there are jobs leaves none: the subtraction stops at zero. -/
theorem sweepLeases_jobs (nowMs : UInt64) : ∀ (ls : List RecLeaseRecord) (jobs : UInt32),
    jobs.toNat ≤ ls.countP (fun l => l.Taken nowMs) → (sweepLeases nowMs ls jobs).2 = 0
  | [], jobs, h => UInt32.toNat_inj.mp (Nat.le_zero.mp h)
  | l :: ls, jobs, h => by
      refine sweepLeases_jobs nowMs ls _ ?_
      rw [List.countP_cons] at h
      by_cases hl : l.Taken nowMs
      · rw [if_pos (decide_eq_true hl)] at h
        by_cases hpos : jobs > 0
        · have hone : jobs.toNat ≠ 0 := fun e => by
            have : jobs = 0 := UInt32.toNat_inj.mp e
            rw [this] at hpos
            exact absurd hpos (by decide)
          rw [if_pos ⟨hl, hpos⟩, UInt32.toNat_sub_of_le]
          · show jobs.toNat - 1 ≤ _
            omega
          · exact UInt32.le_iff_toNat_le.mpr (Nat.one_le_iff_ne_zero.mpr hone)
        · have hzero : jobs.toNat = 0 := Nat.le_zero.mp (UInt32.le_iff_toNat_le.mp (UInt32.not_lt.mp hpos))
          rw [if_neg fun hc => hpos hc.2, hzero]
          exact Nat.zero_le _
      · rw [if_neg (by simpa using hl)] at h
        rwa [if_neg fun hc => hl hc.1]

/-- **A sweep that begins with no job and no uncertain lease ends with none.** -/
theorem sweep_jobs {ctx : RecoveryContext} (hjobs : ctx.activeRecoveryJobs = 0)
    (hnone : uncertainLeases ctx.leases = 0) (nowMs timeoutMs : UInt64) :
    (vomRecoverySweepTimeouts ctx nowMs timeoutMs).activeRecoveryJobs = 0 := by
  refine sweepLeases_jobs nowMs _ _ ?_
  have hfirst := sweepWorkers_jobs nowMs timeoutMs ctx.workers ctx.leases ctx.activeRecoveryJobs
  have hzero : ctx.activeRecoveryJobs.toNat = 0 := by rw [hjobs]; rfl
  rw [hnone, hzero, Nat.add_zero, Nat.zero_add] at hfirst
  refine hfirst.trans (List.countP_mono_left fun l _ h => ?_)
  exact decide_eq_true (Or.inl (of_decide_eq_true h))

/-! ## 4. The other operations -/

/-- **What a result does**: it commits the lease it names, which is open and held by its sender, or
    nothing happens. -/
theorem result_cases (ctx : RecoveryContext) (leaseId : UInt64) (workerId : CStr) :
    (∃ l, ctx.leases.find? (fun l => l.leaseId == leaseId) = some l ∧ l.state ≠ .expired ∧
      l.state ≠ .reconciled ∧ l.assignedWorkerId.str = workerId ∧
      vomRecoveryProcessIncomingResult ctx leaseId workerId =
        ({ ctx with leases := reconcileLease leaseId ctx.leases }, true)) ∨
    vomRecoveryProcessIncomingResult ctx leaseId workerId = (ctx, false) := by
  unfold vomRecoveryProcessIncomingResult
  split
  · exact Or.inr rfl
  · rename_i l hfind
    split
    · exact Or.inr rfl
    · rename_i hopen
      split
      · exact Or.inr rfl
      · rename_i hworker
        rw [not_or] at hopen
        rw [not_not, strcmp_eq_zero_iff] at hworker
        exact Or.inl ⟨l, hfind, hopen.1, hopen.2, hworker, rfl⟩

theorem result_workers (ctx : RecoveryContext) (leaseId : UInt64) (workerId : CStr) :
    (vomRecoveryProcessIncomingResult ctx leaseId workerId).1.workers = ctx.workers := by
  rcases result_cases ctx leaseId workerId with ⟨_, _, _, _, _, heq⟩ | heq <;> rw [heq]

/-- A heartbeat changes the workers only. -/
theorem heartbeat_eq (ctx : RecoveryContext) (workerId : CStr) (nowMs : UInt64) :
    ∃ ws, vomRecoveryRegisterWorkerHeartbeat ctx workerId nowMs = { ctx with workers := ws } := by
  unfold vomRecoveryRegisterWorkerHeartbeat
  dsimp only
  split
  · exact ⟨_, rfl⟩
  · split
    · exact ⟨_, rfl⟩
    · exact ⟨ctx.workers, rfl⟩

theorem heartbeat_leases (ctx : RecoveryContext) (workerId : CStr) (nowMs : UInt64) :
    (vomRecoveryRegisterWorkerHeartbeat ctx workerId nowMs).leases = ctx.leases := by
  obtain ⟨ws, h⟩ := heartbeat_eq ctx workerId nowMs
  rw [h]

/-- A worker that is unhealthy after a heartbeat was tracked, and unhealthy, before. -/
theorem heartbeat_unhealthy {ctx : RecoveryContext} {workerId : CStr} {nowMs : UInt64}
    {w : RecWorkerObs} (hw : w ∈ (vomRecoveryRegisterWorkerHeartbeat ctx workerId nowMs).workers)
    (hdead : w.isHealthy = false) : w ∈ ctx.workers := by
  unfold vomRecoveryRegisterWorkerHeartbeat at hw
  dsimp only at hw
  split at hw
  · have hall : ∀ a ∈ ctx.workers, a.isHealthy = false → a ∈ ctx.workers := fun _ ha _ => ha
    refine (forall_mem_modifyFirst hall).mpr ?_ w hw hdead
    intro a _ hhealthy
    cases hhealthy
  · split at hw
    · rcases List.mem_append.mp hw with hw | hw
      · exact hw
      · rw [List.mem_singleton.mp hw] at hdead
        cases hdead
    · exact hw

theorem inject_workers (ctx : RecoveryContext) (leaseId chunkId : UInt64) (workerId : CStr)
    (expiresMs : UInt64) (policy : VomRetryAction) :
    (vomRecoveryInjectTestLease ctx leaseId chunkId workerId expiresMs policy).workers =
      ctx.workers := by
  unfold vomRecoveryInjectTestLease
  split <;> rfl

/-- A lease that is open after a result was in the table before it. -/
theorem reconcile_mem {leaseId : UInt64} {ls : List RecLeaseRecord} {l : RecLeaseRecord}
    (hl : l ∈ reconcileLease leaseId ls) (hopen : l.state ≠ .reconciled) : l ∈ ls := by
  have hall : ∀ a ∈ ls, a.state ≠ .reconciled → a ∈ ls := fun _ ha _ => ha
  exact (forall_mem_modifyFirst hall).mpr (fun a _ h => absurd rfl h) l hl hopen

end VoidOsMerger
