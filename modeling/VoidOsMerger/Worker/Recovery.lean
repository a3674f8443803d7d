/-
  File:      VoidOsMerger/Worker/Recovery.lean
  Subject:   THE WORKER'S LEASES ACROSS A LOST CONNECTION (worker/src/recovery.c).

  The lease table is a fixed array with a count, and both are kept: `reconcileLoop` is the source's
  `while` loop, which edits and deletes in place with `memmove` and moves its index on only when it
  has not deleted. Records behind the count are what was there before; no loop reads them
  (`WorkerRecoveryContext.leases` are the others).
-/
import VoidOsMerger.Base.CText
import VoidOsMerger.Base.Run
import VoidOsMerger.Base.Slots

namespace VoidOsMerger

/-! ## 1. The table -/

/-- `WORKER_MAX_ACTIVE_LEASES` -/
def workerMaxActiveLeases : Nat := 16

inductive WorkerChunkState
  | running | revoked | completed | reconciled
  deriving DecidableEq, Repr

/-- `worker_active_lease_t` -/
structure WorkerActiveLease where
  leaseId : UInt64
  chunkId : UInt64
  state : WorkerChunkState
  outputChecksum : NulBuf 64
  partialOutputPreserved : Bool
  policyDiscardOnCancel : Bool
  deriving DecidableEq

/-- `struct vom_worker_recovery_context` -/
structure WorkerRecoveryContext where
  activeLeases : Vector WorkerActiveLease workerMaxActiveLeases
  activeLeaseCount : Nat
  countFits : activeLeaseCount ≤ workerMaxActiveLeases
  isDraining : Bool
  isConnectedToMaster : Bool
  deriving DecidableEq

/-- A zero-filled buffer of 64 bytes. -/
def zeroChecksum : NulBuf 64 := NulBuf.copy 63 ⟨[], noNul_nil⟩

/-- A record of `calloc`; `CHUNK_RUNNING` is 0. -/
def zeroActiveLease : WorkerActiveLease := ⟨0, 0, .running, zeroChecksum, false, false⟩

/-- `vom_worker_recovery_init` -/
def vomWorkerRecoveryInit : WorkerRecoveryContext where
  activeLeases := Vector.replicate workerMaxActiveLeases zeroActiveLease
  activeLeaseCount := 0
  countFits := Nat.zero_le _
  isDraining := false
  isConnectedToMaster := true

namespace WorkerRecoveryContext

/-- The records in use. -/
def leases (ctx : WorkerRecoveryContext) : List WorkerActiveLease :=
  used ctx.activeLeases ctx.activeLeaseCount

/-- Write record `i`. -/
def writeLease (ctx : WorkerRecoveryContext) (i : Nat) (l : WorkerActiveLease) :
    WorkerRecoveryContext :=
  { ctx with activeLeases := ctx.activeLeases.setIfInBounds i l }

/-- The loop that changes the first record with `p` and stops. -/
def updateFirst (p : WorkerActiveLease → Bool) (f : WorkerActiveLease → WorkerActiveLease)
    (ctx : WorkerRecoveryContext) : WorkerRecoveryContext :=
  match ctx.leases.findIdx? p with
  | none => ctx
  | some i => match ctx.activeLeases[i]? with
    | none => ctx
    | some l => ctx.writeLease i (f l)

/-- Delete record `i`: the records behind it move down, unless it is the last one. -/
def removeLease (ctx : WorkerRecoveryContext) (i : Nat) : WorkerRecoveryContext :=
  { ctx with
    activeLeases := if i < ctx.activeLeaseCount - 1
      then moveDown ctx.activeLeases i ctx.activeLeaseCount else ctx.activeLeases
    activeLeaseCount := ctx.activeLeaseCount - 1
    countFits := le_trans (Nat.sub_le _ _) ctx.countFits }

end WorkerRecoveryContext

/-- A record taken back: its partial output is kept unless the policy says otherwise. -/
def WorkerActiveLease.revoke (l : WorkerActiveLease) : WorkerActiveLease :=
  { l with state := .revoked, partialOutputPreserved := !l.policyDiscardOnCancel }

/-- A record whose output is there: `strncpy` cuts the checksum at 63 bytes. -/
def WorkerActiveLease.complete (checksum : CStr) (l : WorkerActiveLease) : WorkerActiveLease :=
  { l with state := .completed, outputChecksum := NulBuf.copy 63 checksum }

def WorkerActiveLease.reconcile (l : WorkerActiveLease) : WorkerActiveLease :=
  { l with state := .reconciled }

/-! ## 2. The operations -/

/-- `vom_worker_recovery_set_drain` -/
def vomWorkerRecoverySetDrain (ctx : WorkerRecoveryContext) (drainActive : Bool) :
    WorkerRecoveryContext :=
  { ctx with isDraining := drainActive }

/-- `vom_worker_recovery_accept_new_chunk` -/
def vomWorkerRecoveryAcceptNewChunk (ctx : WorkerRecoveryContext) (leaseId chunkId : UInt64)
    (discardPolicy : Bool) : Bool × WorkerRecoveryContext :=
  if ctx.isDraining then (false, ctx)
  else if h : workerMaxActiveLeases ≤ ctx.activeLeaseCount then (false, ctx)
  else (true,
    { ctx with
      activeLeases := ctx.activeLeases.setIfInBounds ctx.activeLeaseCount
        { leaseId := leaseId
          chunkId := chunkId
          state := .running
          outputChecksum := zeroChecksum
          partialOutputPreserved := false
          policyDiscardOnCancel := discardPolicy }
      activeLeaseCount := ctx.activeLeaseCount + 1
      countFits := Nat.not_le.mp h })

/-- `vom_worker_recovery_handle_revocation` -/
def vomWorkerRecoveryHandleRevocation (ctx : WorkerRecoveryContext) (leaseId : UInt64) :
    WorkerRecoveryContext :=
  ctx.updateFirst (fun l => l.leaseId == leaseId) WorkerActiveLease.revoke

/-- `vom_worker_recovery_on_disconnect` -/
def vomWorkerRecoveryOnDisconnect (ctx : WorkerRecoveryContext) : WorkerRecoveryContext :=
  { ctx with isConnectedToMaster := false }

/-- One pass of the `while` loop at index `i`: the table and the index after it. -/
def reconcileStep (authoritativeLeases : List UInt64) (ctx : WorkerRecoveryContext) (i : Nat)
    (l : WorkerActiveLease) : WorkerRecoveryContext × Nat :=
  if authoritativeLeases.contains l.leaseId then
    (if l.state = .completed then ctx.writeLease i l.reconcile else ctx, i + 1)
  else
    let l' := if l.state = .running then l.revoke else l
    let ctx' := if l.state = .running then ctx.writeLease i l' else ctx
    if l'.state ≠ .revoked then (ctx'.removeLease i, i) else (ctx', i + 1)

/-- **The four things a pass can do.** -/
theorem reconcileStep_cases (authoritativeLeases : List UInt64) (ctx : WorkerRecoveryContext)
    (i : Nat) (l : WorkerActiveLease) :
    (l.leaseId ∈ authoritativeLeases ∧ reconcileStep authoritativeLeases ctx i l =
      (if l.state = .completed then ctx.writeLease i l.reconcile else ctx, i + 1)) ∨
    (l.leaseId ∉ authoritativeLeases ∧ l.state = .running ∧
      reconcileStep authoritativeLeases ctx i l = (ctx.writeLease i l.revoke, i + 1)) ∨
    (l.leaseId ∉ authoritativeLeases ∧ l.state = .revoked ∧
      reconcileStep authoritativeLeases ctx i l = (ctx, i + 1)) ∨
    (l.leaseId ∉ authoritativeLeases ∧ l.state ≠ .running ∧ l.state ≠ .revoked ∧
      reconcileStep authoritativeLeases ctx i l = (ctx.removeLease i, i)) := by
  unfold reconcileStep
  by_cases hin : l.leaseId ∈ authoritativeLeases
  · exact Or.inl ⟨hin, if_pos (List.contains_iff_mem.mpr hin)⟩
  · rw [if_neg fun e => hin (List.contains_iff_mem.mp e)]
    dsimp only
    by_cases hrun : l.state = .running
    · have hrevoked : ¬ l.revoke.state ≠ .revoked := not_not.mpr rfl
      rw [if_pos hrun, if_pos hrun, if_neg hrevoked]
      exact Or.inr (Or.inl ⟨hin, hrun, rfl⟩)
    · rw [if_neg hrun, if_neg hrun]
      by_cases hrev : l.state = .revoked
      · exact Or.inr (Or.inr (Or.inl ⟨hin, hrev, if_neg (not_not.mpr hrev)⟩))
      · exact Or.inr (Or.inr (Or.inr ⟨hin, hrun, hrev, if_pos hrev⟩))

/-- A pass moves the index on or makes the table shorter. -/
theorem reconcileStep_shrinks (authoritativeLeases : List UInt64) {ctx : WorkerRecoveryContext}
    {i : Nat} (hi : i < ctx.activeLeaseCount) (l : WorkerActiveLease) :
    (reconcileStep authoritativeLeases ctx i l).1.activeLeaseCount -
      (reconcileStep authoritativeLeases ctx i l).2 < ctx.activeLeaseCount - i := by
  rcases reconcileStep_cases authoritativeLeases ctx i l with
    ⟨-, e⟩ | ⟨-, -, e⟩ | ⟨-, -, e⟩ | ⟨-, -, -, e⟩
  · have hcount : (if l.state = .completed then ctx.writeLease i l.reconcile
        else ctx).activeLeaseCount = ctx.activeLeaseCount := by split <;> rfl
    rw [e, hcount]
    omega
  · rw [e]
    show ctx.activeLeaseCount - (i + 1) < _
    omega
  · rw [e]
    dsimp only
    omega
  · rw [e]
    show ctx.activeLeaseCount - 1 - i < _
    omega

/-- The `while` loop from index `i` on. -/
def reconcileLoop (authoritativeLeases : List UInt64) (ctx : WorkerRecoveryContext) (i : Nat) :
    WorkerRecoveryContext :=
  if h : i < ctx.activeLeaseCount then
    have hi : i < workerMaxActiveLeases := lt_of_lt_of_le h ctx.countFits
    let l := ctx.activeLeases[i]
    reconcileLoop authoritativeLeases (reconcileStep authoritativeLeases ctx i l).1
      (reconcileStep authoritativeLeases ctx i l).2
  else ctx
termination_by ctx.activeLeaseCount - i
decreasing_by exact reconcileStep_shrinks authoritativeLeases h _

/-- `vom_worker_recovery_reconnect_reconcile`; the list is the first `auth_count` ids. -/
def vomWorkerRecoveryReconnectReconcile (ctx : WorkerRecoveryContext)
    (authoritativeLeases : List UInt64) : WorkerRecoveryContext :=
  reconcileLoop authoritativeLeases { ctx with isConnectedToMaster := true } 0

/-- `vom_worker_recovery_claim_result`: what it writes to `out_checksum` when it returns true. -/
def vomWorkerRecoveryClaimResult (ctx : WorkerRecoveryContext) (leaseId : UInt64) :
    Option (NulBuf 64) :=
  match ctx.leases.find? fun l => l.leaseId == leaseId with
  | none => none
  | some l =>
    if l.state ≠ .reconciled ∧ l.state ≠ .completed then none
    else some (NulBuf.copy 63 l.outputChecksum.str)

/-- `vom_worker_recovery_complete_chunk`; `none` is a null checksum. -/
def vomWorkerRecoveryCompleteChunk (ctx : WorkerRecoveryContext) (leaseId : UInt64) :
    Option CStr → WorkerRecoveryContext
  | none => ctx
  | some checksum =>
    ctx.updateFirst (fun l => l.leaseId == leaseId && l.state == .running)
      (WorkerActiveLease.complete checksum)

/-! ## 3. The machine -/

/-- One call of the worker's recovery engine. -/
inductive WorkerRecoveryOp
  | acceptNewChunk (leaseId chunkId : UInt64) (discardPolicy : Bool)
  | setDrain (drainActive : Bool)
  | handleRevocation (leaseId : UInt64)
  | onDisconnect
  | reconnectReconcile (authoritativeLeases : List UInt64)
  | completeChunk (leaseId : UInt64) (checksum : Option CStr)
  | claimResult (leaseId : UInt64)
  deriving DecidableEq

/-- What a call answers: whether a chunk was taken, the claimed checksum, or nothing. -/
inductive WorkerRecoveryAnswer
  | accepted (ok : Bool)
  | claimed (checksum : Option (NulBuf 64))
  | done
  deriving DecidableEq

/-- The recovery engine of a worker as a machine. -/
def workerRecoveryMachine :
    Machine WorkerRecoveryContext WorkerRecoveryOp WorkerRecoveryAnswer where
  step ctx
    | .acceptNewChunk leaseId chunkId discardPolicy =>
      let r := vomWorkerRecoveryAcceptNewChunk ctx leaseId chunkId discardPolicy
      (r.2, .accepted r.1)
    | .setDrain drainActive => (vomWorkerRecoverySetDrain ctx drainActive, .done)
    | .handleRevocation leaseId => (vomWorkerRecoveryHandleRevocation ctx leaseId, .done)
    | .onDisconnect => (vomWorkerRecoveryOnDisconnect ctx, .done)
    | .reconnectReconcile authoritativeLeases =>
      (vomWorkerRecoveryReconnectReconcile ctx authoritativeLeases, .done)
    | .completeChunk leaseId checksum =>
      (vomWorkerRecoveryCompleteChunk ctx leaseId checksum, .done)
    | .claimResult leaseId => (ctx, .claimed (vomWorkerRecoveryClaimResult ctx leaseId))

end VoidOsMerger
