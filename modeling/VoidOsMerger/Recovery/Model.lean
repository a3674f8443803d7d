/-
  File:      VoidOsMerger/Recovery/Model.lean
  Subject:   THE MASTER'S RECOVERY ENGINE (master/src/recovery.c).

  Workers are observed by their heartbeats; a sweep takes leases from workers that fell silent and
  from the clock, and either requeues their chunk or ends it; a result commits a lease once. The two
  tables are lists with the source's capacities as guards of the appends; slots are never reused.
-/
import VoidOsMerger.Base.CText
import VoidOsMerger.Base.Run
import VoidOsMerger.Base.Table

namespace VoidOsMerger

/-! ## 1. The engine -/

/-- `REC_MAX_WORKERS` -/
def recMaxWorkers : Nat := 64

/-- `REC_MAX_LEASES` -/
def recMaxLeases : Nat := 128

inductive VomRetryAction
  | none | immediate | backoff | replan
  deriving DecidableEq, Repr

inductive UiHealthStatus
  | ok | warn | critical
  deriving DecidableEq, Repr

inductive LeaseState
  | active | uncertain | expired | reconciled
  deriving DecidableEq, Repr

structure RecLeaseRecord where
  leaseId : UInt64
  chunkId : UInt64
  workloadId : UInt64
  assignedWorkerId : NulBuf 64
  leaseExpiresMs : UInt64
  state : LeaseState
  retryCount : UInt32
  retryPolicy : VomRetryAction
  deriving DecidableEq

structure RecWorkerObs where
  workerId : NulBuf 64
  lastHeartbeatMs : UInt64
  isHealthy : Bool
  deriving DecidableEq

structure RecoveryContext where
  workers : List RecWorkerObs
  leases : List RecLeaseRecord
  summaryHealth : UiHealthStatus
  operationalStatusText : NulBuf 64
  activeRecoveryJobs : UInt32
  deriving DecidableEq

/-- `"HEALTHY"` -/
def statusHealthy : NulBuf 64 :=
  NulBuf.copy 63 (CStr.upTo [72, 69, 65, 76, 84, 72, 89])

/-- `"DEGRADED / RECOVERING"` -/
def statusDegraded : NulBuf 64 :=
  NulBuf.copy 63 (CStr.upTo [68, 69, 71, 82, 65, 68, 69, 68, 32, 47, 32, 82, 69, 67, 79, 86, 69, 82,
    73, 78, 71])

/-- `vom_recovery_init` -/
def vomRecoveryInit : RecoveryContext where
  workers := []
  leases := []
  summaryHealth := .ok
  operationalStatusText := statusHealthy
  activeRecoveryJobs := 0

/-! ## 2. Operations -/

/-- `vom_recovery_register_worker_heartbeat` -/
def vomRecoveryRegisterWorkerHeartbeat (ctx : RecoveryContext) (workerId : CStr) (nowMs : UInt64) :
    RecoveryContext :=
  let same := fun w : RecWorkerObs => strcmp w.workerId.str workerId = 0
  if ctx.workers.any same then
    let seen := fun w : RecWorkerObs => { w with lastHeartbeatMs := nowMs, isHealthy := true }
    { ctx with workers := modifyFirst same seen ctx.workers }
  else if ctx.workers.length < recMaxWorkers then
    { ctx with workers := ctx.workers ++
        [{ workerId := NulBuf.copy 63 workerId, lastHeartbeatMs := nowMs, isHealthy := true }] }
  else ctx

/-- The inner loop of a sweep's first step: the active leases of a lost worker become uncertain. -/
def markUncertain (workerId : CStr) : List RecLeaseRecord → UInt32 → List RecLeaseRecord × UInt32
  | [], jobs => ([], jobs)
  | l :: ls, jobs =>
    if strcmp l.assignedWorkerId.str workerId = 0 ∧ l.state = .active then
      let r := markUncertain workerId ls (jobs + 1)
      ({ l with state := .uncertain } :: r.1, r.2)
    else
      let r := markUncertain workerId ls jobs
      (l :: r.1, r.2)

/-- A sweep's first step, worker after worker. -/
def sweepWorkers (nowMs heartbeatTimeoutMs : UInt64) :
    List RecWorkerObs → List RecLeaseRecord → UInt32 → List RecWorkerObs × List RecLeaseRecord × UInt32
  | [], leases, jobs => ([], leases, jobs)
  | w :: ws, leases, jobs =>
    if w.isHealthy ∧ nowMs - w.lastHeartbeatMs > heartbeatTimeoutMs then
      let m := markUncertain w.workerId.str leases jobs
      let r := sweepWorkers nowMs heartbeatTimeoutMs ws m.1 m.2
      ({ w with isHealthy := false } :: r.1, r.2)
    else
      let r := sweepWorkers nowMs heartbeatTimeoutMs ws leases jobs
      (w :: r.1, r.2)

/-- What a sweep's second step does to one lease: a lease of a lost worker or past its time is
    requeued while its policy allows a retry, and ended otherwise. -/
def sweepLease (nowMs : UInt64) (l : RecLeaseRecord) : RecLeaseRecord :=
  if l.state = .uncertain ∨ (l.state = .active ∧ nowMs > l.leaseExpiresMs) then
    let l := { l with retryCount := l.retryCount + 1 }
    if l.retryPolicy ≠ .none ∧ l.retryCount ≤ 3 then { l with state := .expired }
    else { l with state := .reconciled }
  else l

/-- A sweep's second step, lease after lease, with the counter of recovery jobs. -/
def sweepLeases (nowMs : UInt64) : List RecLeaseRecord → UInt32 → List RecLeaseRecord × UInt32
  | [], jobs => ([], jobs)
  | l :: ls, jobs =>
    let taken := l.state = .uncertain ∨ (l.state = .active ∧ nowMs > l.leaseExpiresMs)
    let r := sweepLeases nowMs ls (if taken ∧ jobs > 0 then jobs - 1 else jobs)
    (sweepLease nowMs l :: r.1, r.2)

/-- `vom_recovery_sweep_timeouts` -/
def vomRecoverySweepTimeouts (ctx : RecoveryContext) (nowMs heartbeatTimeoutMs : UInt64) :
    RecoveryContext :=
  let first := sweepWorkers nowMs heartbeatTimeoutMs ctx.workers ctx.leases ctx.activeRecoveryJobs
  let second := sweepLeases nowMs first.2.1 first.2.2
  let degraded := first.1.any fun w => !w.isHealthy
  { workers := first.1
    leases := second.1
    summaryHealth := if degraded then .warn else .ok
    operationalStatusText := if degraded then statusDegraded else statusHealthy
    activeRecoveryJobs := second.2 }

/-- `l->state = LEASE_RECONCILED` on the first lease with the id. -/
def reconcileLease (leaseId : UInt64) (leases : List RecLeaseRecord) : List RecLeaseRecord :=
  modifyFirst (fun l => l.leaseId == leaseId) (fun l => { l with state := .reconciled }) leases

/-- `vom_recovery_process_incoming_result`; the result hash is only logged. -/
def vomRecoveryProcessIncomingResult (ctx : RecoveryContext) (leaseId : UInt64) (workerId : CStr) :
    RecoveryContext × Bool :=
  match ctx.leases.find? (fun l => l.leaseId == leaseId) with
  | none => (ctx, false)
  | some l =>
    if l.state = .expired ∨ l.state = .reconciled then (ctx, false)
    else if strcmp l.assignedWorkerId.str workerId ≠ 0 then (ctx, false)
    else ({ ctx with leases := reconcileLease leaseId ctx.leases }, true)

/-- The record `vom_recovery_inject_test_lease` writes. -/
def testLease (leaseId chunkId : UInt64) (workerId : CStr) (expiresMs : UInt64)
    (policy : VomRetryAction) : RecLeaseRecord where
  leaseId := leaseId
  chunkId := chunkId
  workloadId := 999
  assignedWorkerId := NulBuf.copy 63 workerId
  leaseExpiresMs := expiresMs
  state := .active
  retryCount := 0
  retryPolicy := policy

/-- `vom_recovery_inject_test_lease` -/
def vomRecoveryInjectTestLease (ctx : RecoveryContext) (leaseId chunkId : UInt64) (workerId : CStr)
    (expiresMs : UInt64) (policy : VomRetryAction) : RecoveryContext :=
  if ctx.leases.length < recMaxLeases then
    { ctx with leases := ctx.leases ++ [testLease leaseId chunkId workerId expiresMs policy] }
  else ctx

/-! ## 3. The engine as a machine -/

inductive RecoveryOp
  | heartbeat (workerId : CStr) (nowMs : UInt64)
  | sweep (nowMs heartbeatTimeoutMs : UInt64)
  | result (leaseId : UInt64) (workerId : CStr)
  | inject (leaseId chunkId : UInt64) (workerId : CStr) (expiresMs : UInt64)
      (policy : VomRetryAction)
  deriving DecidableEq

/-- The answer is what `vom_recovery_process_incoming_result` returns; the others return nothing. -/
def recoveryMachine : Machine RecoveryContext RecoveryOp (Option Bool) where
  step ctx
    | .heartbeat workerId nowMs => (vomRecoveryRegisterWorkerHeartbeat ctx workerId nowMs, none)
    | .sweep nowMs heartbeatTimeoutMs => (vomRecoverySweepTimeouts ctx nowMs heartbeatTimeoutMs, none)
    | .result leaseId workerId =>
      let r := vomRecoveryProcessIncomingResult ctx leaseId workerId
      (r.1, some r.2)
    | .inject leaseId chunkId workerId expiresMs policy =>
      (vomRecoveryInjectTestLease ctx leaseId chunkId workerId expiresMs policy, none)

end VoidOsMerger
