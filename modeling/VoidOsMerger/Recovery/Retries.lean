/-
  File:      VoidOsMerger/Recovery/Retries.lean
  Subject:   WHEN A CHUNK IS REQUEUED AT MOST THREE TIMES.

  The limit of three is tested on the counter of one lease, and a lease is requeued at most once: it is
  expired then, and an expired lease is never looked at again. So the requeues of a chunk are its
  expired leases, and nothing but the injections bounds their number.

  * `Requeues` -- what any operation may do to a stored lease, as far as requeues go;
  * `RequeueBook` -- the log of requeues against the table;
  * **`requeued_at_most_three`** -- the bound, where a lease with a retry policy is injected only
    while the chunk has fewer than three such leases that are not reconciled.
-/
import VoidOsMerger.Recovery.ExactlyOnce

namespace VoidOsMerger

/-! ## 1. Requeues -/

/-- The chunks a sweep requeues: those of the leases it moves to `LEASE_EXPIRED`. -/
def requeued (ctx : RecoveryContext) : RecoveryOp → List UInt64
  | .sweep nowMs heartbeatTimeoutMs =>
    ((ctx.leases.zip (vomRecoverySweepTimeouts ctx nowMs heartbeatTimeoutMs).leases).filter fun p =>
      p.1.state ≠ .expired ∧ p.2.state = .expired).map (·.1.chunkId)
  | _ => []

/-- The requeues of a run from `vom_recovery_init`, in order. -/
def requeues (ops : List RecoveryOp) : List UInt64 :=
  recoveryMachine.log requeued vomRecoveryInit ops

/-! ## 2. What happens to a lease -/

/-- What any operation may do to a stored lease: it is requeued only where its policy allows it. -/
structure Requeues (l l' : RecLeaseRecord) : Prop where
  chunkId : l'.chunkId = l.chunkId
  policy : l'.retryPolicy = l.retryPolicy
  expired : l.state = .expired → l'.state = .expired
  reconciled : l.state = .reconciled → l'.state = .reconciled
  allowed : l'.state = .expired → l.state = .expired ∨ l.retryPolicy ≠ .none

theorem Requeues.refl (l : RecLeaseRecord) : Requeues l l := ⟨rfl, rfl, id, id, Or.inl⟩

theorem Requeues.trans {a b c : RecLeaseRecord} (h : Requeues a b) (h' : Requeues b c) :
    Requeues a c where
  chunkId := h'.chunkId.trans h.chunkId
  policy := h'.policy.trans h.policy
  expired := fun e => h'.expired (h.expired e)
  reconciled := fun e => h'.reconciled (h.reconciled e)
  allowed := fun e => (h'.allowed e).elim h.allowed fun hp => Or.inr (h.policy ▸ hp)

/-- A new state of a lease that is neither expired nor reconciled. -/
theorem requeues_of_open {l l' : RecLeaseRecord} (hch : l'.chunkId = l.chunkId)
    (hp : l'.retryPolicy = l.retryPolicy) (he : l.state ≠ .expired) (hr : l.state ≠ .reconciled)
    (hnew : l'.state = .expired → l.retryPolicy ≠ .none) : Requeues l l' :=
  ⟨hch, hp, fun e => absurd e he, fun e => absurd e hr, fun e => Or.inr (hnew e)⟩

theorem sweepLease_requeues (nowMs : UInt64) (l : RecLeaseRecord) :
    Requeues l (sweepLease nowMs l) := by
  unfold sweepLease
  split
  · rename_i h
    have he : l.state ≠ .expired := by rcases h with h | h <;> simp [h]
    have hr : l.state ≠ .reconciled := by rcases h with h | h <;> simp [h]
    dsimp only
    split
    · rename_i hretry
      exact requeues_of_open rfl rfl he hr fun _ => hretry.1
    · exact requeues_of_open rfl rfl he hr nofun
  · exact Requeues.refl l

theorem sweep_requeues (ctx : RecoveryContext) (nowMs timeoutMs : UInt64) :
    List.Forall₂ Requeues ctx.leases (vomRecoverySweepTimeouts ctx nowMs timeoutMs).leases := by
  refine sweep_leases Requeues.refl (fun _ _ _ => Requeues.trans) (fun l h => ?_)
    (sweepLease_requeues nowMs) ctx timeoutMs
  exact requeues_of_open rfl rfl (by simp [h]) (by simp [h]) nofun

/-! ## 3. The log and the table -/

/-- A lease of the chunk that was requeued. -/
def expiredOf (chunkId : UInt64) (l : RecLeaseRecord) : Bool :=
  l.chunkId = chunkId ∧ l.state = .expired

/-- A lease of the chunk that was requeued or may still be. -/
def retriableOf (chunkId : UInt64) (l : RecLeaseRecord) : Bool :=
  l.chunkId = chunkId ∧ l.retryPolicy ≠ .none ∧ l.state ≠ .reconciled

/-- The log of requeues against the table: the requeues of a chunk are its expired leases, those had
    a policy that allows it, and the leases that count are at most three for each chunk. -/
structure RequeueBook (ls : List RecLeaseRecord) (log : List UInt64) : Prop where
  counted : ∀ chunkId, log.count chunkId = ls.countP (expiredOf chunkId)
  allowed : ∀ l ∈ ls, l.state = .expired → l.retryPolicy ≠ .none
  budget : ∀ chunkId, ls.countP (retriableOf chunkId) ≤ 3

/-- The steps that keep to the budget: a lease with a retry policy is injected for a chunk only while
    fewer than three of the chunk's leases with a retry policy are not reconciled. -/
def InjectsWithinBudget (ctx : RecoveryContext) : RecoveryOp → Prop
  | .inject _ chunkId _ _ policy => policy ≠ .none → ctx.leases.countP (retriableOf chunkId) < 3
  | _ => True

instance (ctx : RecoveryContext) (o : RecoveryOp) : Decidable (InjectsWithinBudget ctx o) := by
  cases o <;> unfold InjectsWithinBudget <;> infer_instance

/-- The book after leases have aged and the newly expired ones were logged. -/
theorem RequeueBook.aged {ls ls' : List RecLeaseRecord} {log : List UInt64}
    (h : RequeueBook ls log) (new : List UInt64) (ha : List.Forall₂ Requeues ls ls')
    (hnew : ∀ chunkId, new.count chunkId =
      (ls.zip ls').countP fun p => !expiredOf chunkId p.1 && expiredOf chunkId p.2) :
    RequeueBook ls' (log ++ new) where
  counted := fun chunkId => by
    have hzip := countP_zip_of_forall₂ (p := expiredOf chunkId) (q := expiredOf chunkId) ha
      fun l l' hl he => by
        simp only [expiredOf, decide_eq_true_eq] at he ⊢
        exact ⟨hl.chunkId.trans he.1, hl.expired he.2⟩
    rw [List.count_append, h.counted, hnew, ← hzip, Nat.add_comm]
  allowed := fun l' hl' he => by
    obtain ⟨l, hl, hll⟩ := forall₂_exists_left ha hl'
    rw [hll.policy]
    exact (hll.allowed he).elim (h.allowed l hl) id
  budget := fun chunkId => by
    refine (countP_le_of_forall₂ ha fun l l' hl hr => ?_).trans (h.budget chunkId)
    simp only [retriableOf, decide_eq_true_eq] at hr ⊢
    exact ⟨hl.chunkId.symm.trans hr.1, hl.policy ▸ hr.2.1, fun e => hr.2.2 (hl.reconciled e)⟩

/-- The requeues of a sweep are counted by what is newly expired. -/
theorem count_requeued (ctx : RecoveryContext) (nowMs timeoutMs chunkId : UInt64) :
    (requeued ctx (.sweep nowMs timeoutMs)).count chunkId =
      (ctx.leases.zip (vomRecoverySweepTimeouts ctx nowMs timeoutMs).leases).countP fun p =>
        !expiredOf chunkId p.1 && expiredOf chunkId p.2 := by
  unfold requeued
  rw [List.count, List.countP_map, List.countP_filter]
  refine List.countP_congr fun p hp => ?_
  have hsame : p.2.chunkId = p.1.chunkId :=
    (List.forall₂_zip (sweep_requeues ctx nowMs timeoutMs) hp).chunkId
  by_cases hch : p.1.chunkId = chunkId <;> simp [expiredOf, hsame, hch]

/-- Leases that aged without a requeue. -/
theorem RequeueBook.quiet {ls ls' : List RecLeaseRecord} {log : List UInt64} (h : RequeueBook ls log)
    (ha : List.Forall₂ (fun l l' => Requeues l l' ∧ (l'.state = .expired → l.state = .expired)) ls ls') :
    RequeueBook ls' log := by
  have hquiet := h.aged [] (ha.imp fun _ _ hl => hl.1) fun chunkId => by
    refine (List.countP_eq_zero.mpr fun p hp => ?_).symm
    obtain ⟨hl, hexp⟩ := List.forall₂_zip ha hp
    simp only [expiredOf, hl.chunkId, Bool.and_eq_true, Bool.not_eq_true', decide_eq_false_iff_not,
      decide_eq_true_eq]
    exact fun ⟨hnot, hch, he⟩ => hnot ⟨hch, hexp he⟩
  rwa [List.append_nil] at hquiet

theorem RequeueBook.injected {ls : List RecLeaseRecord} {log : List UInt64} (h : RequeueBook ls log)
    (leaseId chunkId : UInt64) (workerId : CStr) (expiresMs : UInt64) {policy : VomRetryAction}
    (hbudget : policy ≠ .none → ls.countP (retriableOf chunkId) < 3) :
    RequeueBook (ls ++ [testLease leaseId chunkId workerId expiresMs policy]) log where
  counted := fun c => by
    have hactive : expiredOf c (testLease leaseId chunkId workerId expiresMs policy) = false :=
      decide_eq_false fun he => nomatch he.2
    rw [List.countP_append, h.counted, List.countP_singleton, hactive]
    rfl
  allowed := fun l hl he => by
    rcases List.mem_append.mp hl with hold | hnew
    · exact h.allowed l hold he
    · rw [List.mem_singleton.mp hnew] at he
      cases he
  budget := fun c => by
    rw [List.countP_append, List.countP_singleton]
    split
    · rename_i hr
      obtain ⟨hch, hpolicy, -⟩ := of_decide_eq_true hr
      obtain rfl : chunkId = c := hch
      exact hbudget hpolicy
    · exact h.budget c

/-- **One operation** within the budget keeps the book. -/
theorem requeueBook_next (ctx : RecoveryContext) (o : RecoveryOp) (log : List UInt64)
    (h : RequeueBook ctx.leases log) (ho : InjectsWithinBudget ctx o) :
    RequeueBook (recoveryMachine.next ctx o).leases (log ++ requeued ctx o) := by
  cases o with
  | heartbeat workerId nowMs =>
    show RequeueBook (vomRecoveryRegisterWorkerHeartbeat ctx workerId nowMs).leases (log ++ [])
    rwa [heartbeat_leases, List.append_nil]
  | sweep nowMs timeoutMs =>
    exact h.aged _ (sweep_requeues ctx nowMs timeoutMs) (count_requeued ctx nowMs timeoutMs)
  | result leaseId workerId =>
    show RequeueBook (vomRecoveryProcessIncomingResult ctx leaseId workerId).1.leases (log ++ [])
    rw [List.append_nil]
    rcases result_cases ctx leaseId workerId with ⟨l, hfind, he, hr, _, heq⟩ | heq
    · rw [heq]
      refine h.quiet (forall₂_modifyFirst (fun l => ⟨Requeues.refl l, id⟩) fun a ha => ?_)
      obtain rfl : l = a := Option.some.inj (hfind.symm.trans ha)
      exact ⟨requeues_of_open rfl rfl he hr nofun, nofun⟩
    · rwa [heq]
  | inject leaseId chunkId workerId expiresMs policy =>
    show RequeueBook (vomRecoveryInjectTestLease _ _ _ _ _ _).leases (log ++ [])
    rw [List.append_nil, vomRecoveryInjectTestLease]
    split
    · exact h.injected leaseId chunkId workerId expiresMs ho
    · exact h

/-! ## 4. Whole runs -/

/-- An expired lease is one that counts. -/
theorem RequeueBook.count_le {ls : List RecLeaseRecord} {log : List UInt64} (h : RequeueBook ls log)
    (chunkId : UInt64) : log.count chunkId ≤ 3 := by
  rw [h.counted]
  refine (List.countP_mono_left fun l hl he => ?_).trans (h.budget chunkId)
  simp only [expiredOf, retriableOf, decide_eq_true_eq] at he ⊢
  refine ⟨he.1, h.allowed l hl he.2, ?_⟩
  rw [he.2]
  decide

/-- **When retries are bounded.** In every run from `vom_recovery_init` in which a lease with a retry
    policy is injected for a chunk only while fewer than three of the chunk's leases with a retry
    policy are not reconciled, no chunk is requeued more than three times. -/
theorem requeued_at_most_three (ops : List RecoveryOp)
    (hbudget : recoveryMachine.Legal InjectsWithinBudget vomRecoveryInit ops) (chunkId : UInt64) :
    (requeues ops).count chunkId ≤ 3 := by
  have hstart : RequeueBook vomRecoveryInit.leases [] := ⟨fun _ => rfl, nofun, fun _ => Nat.zero_le 3⟩
  have hrun := recoveryMachine.invariant_log requeued (fun ctx log => RequeueBook ctx.leases log)
    requeueBook_next hstart hbudget
  exact hrun.count_le chunkId

/-- Three leases of one chunk, one after the other, each past its time at the next sweep; a fourth one
    without a retry policy. -/
def threeRequeues : List RecoveryOp :=
  [.inject 1 7 (CStr.upTo [97]) 10 .immediate, .sweep 100 1000,
    .inject 2 7 (CStr.upTo [98]) 110 .backoff, .sweep 200 1000,
    .inject 3 7 (CStr.upTo [97]) 210 .replan, .sweep 300 1000,
    .inject 4 7 (CStr.upTo [98]) 310 .none, .sweep 400 1000]

theorem requeued_at_most_three_threeRequeues :
    requeues threeRequeues = [7, 7, 7] ∧ (requeues threeRequeues).count 7 ≤ 3 :=
  ⟨by decide +kernel, requeued_at_most_three threeRequeues (by decide +kernel) 7⟩

/-- The same with a retry policy for the fourth lease. -/
def fourRequeues : List RecoveryOp :=
  [.inject 1 7 (CStr.upTo [97]) 10 .immediate, .sweep 100 1000,
    .inject 2 7 (CStr.upTo [98]) 110 .immediate, .sweep 200 1000,
    .inject 3 7 (CStr.upTo [97]) 210 .immediate, .sweep 300 1000,
    .inject 4 7 (CStr.upTo [98]) 310 .immediate, .sweep 400 1000]

/-- **Nothing else bounds the retries**: every new lease starts its counter anew. -/
theorem fourth_requeue : ¬ ∀ (ops : List RecoveryOp) (chunkId : UInt64),
    (requeues ops).count chunkId ≤ 3 := by
  intro h
  have hfour : (requeues fourRequeues).count 7 = 4 := by decide +kernel
  have hle := h fourRequeues 7
  rw [hfour] at hle
  exact absurd hle (by decide)

end VoidOsMerger
