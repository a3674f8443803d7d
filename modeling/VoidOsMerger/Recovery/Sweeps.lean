/-
  File:      VoidOsMerger/Recovery/Sweeps.lean
  Subject:   WHAT HOLDS RIGHT AFTER A SWEEP.

  A sweep looks at the leases of a worker only when the worker turns unhealthy. So a lease that is
  issued to a worker which is unhealthy already is not taken from it by any later sweep, only by its
  own clock.

  * `NoLeaseOnDeadWorker` -- what a sweep is for;
  * **`noLeaseOnDeadWorker_iff`** -- it holds after whatever sweep comes next, at every moment of a
    run, exactly when no lease of the run was issued to a worker tracked as unhealthy;
  * **`recoveryJobs_exact`** -- the published counter is the number of uncertain leases: between calls
    both are zero (`Settled`).
-/
import VoidOsMerger.Recovery.Operations

namespace VoidOsMerger

/-! ## 1. Leases on dead workers -/

/-- No active lease is past its time, and none is assigned to a tracked worker that is not healthy. -/
structure NoLeaseOnDeadWorker (nowMs : UInt64) (ctx : RecoveryContext) : Prop where
  notPast : ∀ l ∈ ctx.leases, l.state = .active → ¬ l.leaseExpiresMs < nowMs
  notDead : ∀ l ∈ ctx.leases, l.state = .active → ∀ w ∈ ctx.workers,
    l.assignedWorkerId.str = w.workerId.str → w.isHealthy = true

/-- Every active lease is assigned to a worker that is healthy as far as it is tracked. -/
def ActiveOnHealthy (ctx : RecoveryContext) : Prop :=
  ∀ l ∈ ctx.leases, l.state = .active → ∀ w ∈ ctx.workers,
    l.assignedWorkerId.str = w.workerId.str → w.isHealthy = true

/-- How leases are injected: not to a worker that is tracked as unhealthy, the worker's id being what
    the lease stores of it. A full table takes no lease, and nothing is asked of the other
    operations. -/
def InjectsToHealthy (ctx : RecoveryContext) : RecoveryOp → Prop
  | .inject _ _ workerId _ _ => ctx.leases.length < recMaxLeases →
    ∀ w ∈ ctx.workers, (NulBuf.copy 63 workerId).str = w.workerId.str → w.isHealthy = true
  | _ => True

theorem mark_healthy {nowMs timeoutMs : UInt64} {w : RecWorkerObs} (h : w.isHealthy = true)
    (hlost : ¬ w.Lost nowMs timeoutMs) : (w.mark nowMs timeoutMs).isHealthy = true := by
  unfold RecWorkerObs.Lost at hlost
  rwa [RecWorkerObs.mark, if_neg hlost]

theorem mark_id (nowMs timeoutMs : UInt64) (w : RecWorkerObs) :
    (w.mark nowMs timeoutMs).workerId = w.workerId := by
  unfold RecWorkerObs.mark
  split <;> rfl

theorem sweep_activeOnHealthy {ctx : RecoveryContext} (h : ActiveOnHealthy ctx)
    (nowMs timeoutMs : UInt64) : ActiveOnHealthy (vomRecoverySweepTimeouts ctx nowMs timeoutMs) := by
  intro l hl hact w hw hid
  obtain ⟨hmem, -, -, hnot⟩ := mem_sweep_active.mp ⟨hl, hact⟩
  rw [sweep_workers, List.mem_map] at hw
  obtain ⟨v, hv, rfl⟩ := hw
  rw [mark_id] at hid
  exact mark_healthy (h l hmem hact v hv hid) (hnot v hv hid)

/-- **What an operation makes of it**: it is kept exactly by the operations that inject to healthy
    workers. -/
theorem next_activeOnHealthy_iff {ctx : RecoveryContext} (h : ActiveOnHealthy ctx) (o : RecoveryOp) :
    ActiveOnHealthy (recoveryMachine.next ctx o) ↔ InjectsToHealthy ctx o := by
  cases o with
  | heartbeat workerId nowMs =>
    refine iff_of_true ?_ trivial
    intro l hl hact w hw hid
    cases hdead : w.isHealthy with
    | true => rfl
    | false =>
      have hl : l ∈ (vomRecoveryRegisterWorkerHeartbeat ctx workerId nowMs).leases := hl
      rw [heartbeat_leases] at hl
      rw [← hdead]
      exact h l hl hact w (heartbeat_unhealthy hw hdead) hid
  | sweep nowMs timeoutMs => exact iff_of_true (sweep_activeOnHealthy h nowMs timeoutMs) trivial
  | result leaseId workerId =>
    refine iff_of_true ?_ trivial
    show ActiveOnHealthy (vomRecoveryProcessIncomingResult ctx leaseId workerId).1
    rcases result_cases ctx leaseId workerId with ⟨_, _, _, _, _, heq⟩ | heq
    · rw [heq]
      intro l hl hact w hw hid
      exact h l (reconcile_mem hl (by rw [hact]; decide)) hact w hw hid
    · rw [heq]
      exact h
  | inject leaseId chunkId workerId expiresMs policy =>
    show ActiveOnHealthy (vomRecoveryInjectTestLease ctx leaseId chunkId workerId expiresMs policy) ↔ _
    unfold vomRecoveryInjectTestLease
    split
    · rename_i hroom
      constructor
      · intro hnext _ w hw hid
        exact hnext _ (List.mem_append_right _ List.mem_cons_self) rfl w hw hid
      · intro hok l hl hact w hw hid
        rcases List.mem_append.mp hl with hl | hl
        · exact h l hl hact w hw hid
        · rw [List.mem_singleton.mp hl] at hid
          exact hok hroom w hw hid
    · rename_i hfull
      exact iff_of_true h fun hroom => absurd hroom hfull

/-- A sweep at time 0 that allows any silence takes nothing. -/
theorem lenient_sweep_active {ctx : RecoveryContext} {l : RecLeaseRecord} (hl : l ∈ ctx.leases)
    (hact : l.state = .active) :
    l ∈ (vomRecoverySweepTimeouts ctx 0 (UInt64.ofNat (2 ^ 64 - 1))).leases := by
  refine (mem_sweep_active.mpr ⟨hl, hact, UInt64.not_lt.mpr UInt64.zero_le, fun w _ _ hlost => ?_⟩).1
  have hle : (0 - w.lastHeartbeatMs).toNat ≤ 2 ^ 64 - 1 := Nat.le_sub_one_of_lt (UInt64.toNat_lt _)
  exact absurd (UInt64.lt_iff_toNat_lt.mp hlost.2) (Nat.not_lt.mpr hle)

theorem mark_dead {nowMs timeoutMs : UInt64} {w : RecWorkerObs} (h : w.isHealthy = false) :
    w.mark nowMs timeoutMs = w := by
  rw [RecWorkerObs.mark, if_neg]
  rw [h]
  exact fun hc => Bool.false_ne_true hc.1

/-- The next sweep, whenever and however strict, leaves no lease on a dead worker exactly when there
    is none on a worker that is dead before it. -/
theorem sweeps_iff_activeOnHealthy (ctx : RecoveryContext) :
    (∀ nowMs timeoutMs, NoLeaseOnDeadWorker nowMs (vomRecoverySweepTimeouts ctx nowMs timeoutMs)) ↔
      ActiveOnHealthy ctx := by
  constructor
  · intro h l hl hact w hw hid
    cases hdead : w.isHealthy with
    | true => rfl
    | false =>
      -- neither the lease nor the worker is touched by the most lenient sweep
      have hsame : w ∈ (vomRecoverySweepTimeouts ctx 0 (UInt64.ofNat (2 ^ 64 - 1))).workers := by
        rw [sweep_workers, List.mem_map]
        exact ⟨w, hw, mark_dead hdead⟩
      rw [← hdead]
      exact (h 0 _).notDead l (lenient_sweep_active hl hact) hact w hsame hid
  · intro h nowMs timeoutMs
    refine ⟨fun l hl hact => ?_, sweep_activeOnHealthy h nowMs timeoutMs⟩
    exact (mem_sweep_active.mp ⟨hl, hact⟩).2.2.1

/-- **No lease is left on a dead worker**, at every moment of a run and whatever sweep comes next,
    exactly when every lease of the run was issued to a worker that was not tracked as unhealthy. -/
theorem noLeaseOnDeadWorker_iff (ops : List RecoveryOp) :
    (∀ pre, pre <+: ops → ∀ nowMs timeoutMs,
      NoLeaseOnDeadWorker nowMs
        (recoveryMachine.run vomRecoveryInit (pre ++ [.sweep nowMs timeoutMs]))) ↔
      recoveryMachine.Legal InjectsToHealthy vomRecoveryInit ops := by
  have hinit : ActiveOnHealthy vomRecoveryInit := fun _ hl => absurd hl List.not_mem_nil
  have hpoint : ∀ pre, (∀ nowMs timeoutMs, NoLeaseOnDeadWorker nowMs
      (recoveryMachine.run vomRecoveryInit (pre ++ [.sweep nowMs timeoutMs]))) ↔
      ActiveOnHealthy (recoveryMachine.run vomRecoveryInit pre) := fun pre => by
    rw [← sweeps_iff_activeOnHealthy]
    exact forall₂_congr fun nowMs timeoutMs => by rw [Machine.run_append]; rfl
  rw [forall₂_congr fun pre _ => hpoint pre]
  exact recoveryMachine.always_iff_legal ActiveOnHealthy
    (fun s o hs _ => next_activeOnHealthy_iff hs o) (fun _ _ _ _ hnext => hnext) hinit hinit
    (recoveryMachine.legal_true _ ops)

/-- A worker is lost, then gets a lease. -/
def leaseToLostWorker : List RecoveryOp :=
  let w := CStr.upTo [119]
  [.heartbeat w 0, .sweep 10000 1000, .inject 1 7 w 50000 .immediate]

/-- The lease issued to the lost worker is still active after the next sweep, and the worker still
    unhealthy. -/
theorem lease_stays_on_dead_worker :
    ¬ ∀ (ops : List RecoveryOp) (nowMs timeoutMs : UInt64), NoLeaseOnDeadWorker nowMs
      (recoveryMachine.run vomRecoveryInit (ops ++ [.sweep nowMs timeoutMs])) := by
  intro h
  have hdead := (h leaseToLostWorker 11000 1000).notDead
  revert hdead
  decide +kernel

/-! ## 2. The counter of recovery jobs -/

/-- What holds between calls: no recovery job, and no uncertain lease. -/
structure Settled (ctx : RecoveryContext) : Prop where
  jobs : ctx.activeRecoveryJobs = 0
  certain : ∀ l ∈ ctx.leases, l.state ≠ .uncertain

theorem Settled.uncertainLeases {ctx : RecoveryContext} (h : Settled ctx) :
    uncertainLeases ctx.leases = 0 := by
  refine List.countP_eq_zero.mpr fun l hl => ?_
  simpa using h.certain l hl

theorem recoveryStep_settled {ctx : RecoveryContext} (h : Settled ctx) (o : RecoveryOp) :
    Settled (recoveryMachine.next ctx o) := by
  cases o with
  | heartbeat workerId nowMs =>
    show Settled (vomRecoveryRegisterWorkerHeartbeat ctx workerId nowMs)
    obtain ⟨ws, heq⟩ := heartbeat_eq ctx workerId nowMs
    rw [heq]
    exact ⟨h.jobs, h.certain⟩
  | sweep nowMs timeoutMs =>
    show Settled (vomRecoverySweepTimeouts ctx nowMs timeoutMs)
    refine ⟨sweep_jobs h.jobs h.uncertainLeases nowMs timeoutMs, fun l hl => ?_⟩
    rw [sweep_leases_map, List.mem_map] at hl
    obtain ⟨a, -, rfl⟩ := hl
    exact sweepLease_not_uncertain nowMs _
  | result leaseId workerId =>
    show Settled (vomRecoveryProcessIncomingResult ctx leaseId workerId).1
    rcases result_cases ctx leaseId workerId with ⟨_, _, _, _, _, heq⟩ | heq
    · rw [heq]
      refine ⟨h.jobs, fun l hl e => ?_⟩
      exact h.certain l (reconcile_mem hl (by rw [e]; decide)) e
    · rw [heq]
      exact h
  | inject leaseId chunkId workerId expiresMs policy =>
    show Settled (vomRecoveryInjectTestLease ctx leaseId chunkId workerId expiresMs policy)
    unfold vomRecoveryInjectTestLease
    split
    · refine ⟨h.jobs, fun l hl => ?_⟩
      rcases List.mem_append.mp hl with hl | hl
      · exact h.certain l hl
      · rw [List.mem_singleton.mp hl]
        exact fun e => by cases e
    · exact h

/-- **The published counter is exact** in every state a run passes through between calls. -/
theorem recoveryJobs_exact (ops : List RecoveryOp) :
    (recoveryMachine.run vomRecoveryInit ops).activeRecoveryJobs.toNat =
      uncertainLeases (recoveryMachine.run vomRecoveryInit ops).leases := by
  have hinit : Settled vomRecoveryInit := ⟨rfl, fun _ hl => absurd hl List.not_mem_nil⟩
  have hrun : Settled (recoveryMachine.run vomRecoveryInit ops) :=
    recoveryMachine.invariant_all Settled (fun _ o hs => recoveryStep_settled hs o) ops hinit
  rw [hrun.jobs, hrun.uncertainLeases]
  rfl

end VoidOsMerger
