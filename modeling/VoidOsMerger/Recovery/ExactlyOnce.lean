/-
  File:      VoidOsMerger/Recovery/ExactlyOnce.lean
  Subject:   A CHUNK IS COMMITTED AT MOST ONCE, by the worker that holds its lease.

  Results, heartbeats and sweeps arrive in any order. A stored lease only ages: its ids and its worker
  stay, and once expired or reconciled it stays so (`Ages`). So what has to hold together is the table
  and the log of commits: every commit has a reconciled lease in the table, and a chunk has at most
  one lease that is not expired (`OneCommit`).
-/
import VoidOsMerger.Recovery.Operations

namespace VoidOsMerger

/-! ## 1. Leases age -/

/-- What any operation may do to a stored lease. -/
structure Ages (l l' : RecLeaseRecord) : Prop where
  leaseId : l'.leaseId = l.leaseId
  chunkId : l'.chunkId = l.chunkId
  worker : l'.assignedWorkerId = l.assignedWorkerId
  expired : l.state = .expired → l'.state = .expired
  reconciled : l.state = .reconciled → l'.state = .reconciled

theorem Ages.refl (l : RecLeaseRecord) : Ages l l := ⟨rfl, rfl, rfl, id, id⟩

theorem Ages.trans {a b c : RecLeaseRecord} (h : Ages a b) (h' : Ages b c) : Ages a c where
  leaseId := h'.leaseId.trans h.leaseId
  chunkId := h'.chunkId.trans h.chunkId
  worker := h'.worker.trans h.worker
  expired := fun e => h'.expired (h.expired e)
  reconciled := fun e => h'.reconciled (h.reconciled e)

/-- A new state is an ageing of a lease that is neither expired nor reconciled. -/
theorem ages_of_open {l l' : RecLeaseRecord} (hid : l'.leaseId = l.leaseId)
    (hch : l'.chunkId = l.chunkId) (hw : l'.assignedWorkerId = l.assignedWorkerId)
    (he : l.state ≠ .expired) (hr : l.state ≠ .reconciled) : Ages l l' :=
  ⟨hid, hch, hw, fun e => absurd e he, fun e => absurd e hr⟩

/-- The tables before and after an operation that stores no lease. -/
def TableAges (ls ls' : List RecLeaseRecord) : Prop := List.Forall₂ Ages ls ls'

theorem TableAges.refl (ls : List RecLeaseRecord) : TableAges ls ls :=
  List.forall₂_same.mpr fun l _ => Ages.refl l

theorem sweepLease_ages (nowMs : UInt64) (l : RecLeaseRecord) : Ages l (sweepLease nowMs l) := by
  unfold sweepLease
  split
  · rename_i h
    have he : l.state ≠ .expired := by rcases h with h | h <;> simp [h]
    have hr : l.state ≠ .reconciled := by rcases h with h | h <;> simp [h]
    dsimp only
    split
    · exact ages_of_open rfl rfl rfl he hr
    · exact ages_of_open rfl rfl rfl he hr
  · exact Ages.refl l

theorem sweep_ages (ctx : RecoveryContext) (nowMs timeoutMs : UInt64) :
    TableAges ctx.leases (vomRecoverySweepTimeouts ctx nowMs timeoutMs).leases := by
  refine sweep_leases Ages.refl (fun _ _ _ => Ages.trans) (fun l h => ?_) (sweepLease_ages nowMs) ctx
    timeoutMs
  exact ages_of_open rfl rfl rfl (by simp [h]) (by simp [h])

@[simp] theorem answer_result (ctx : RecoveryContext) (leaseId : UInt64) (workerId : CStr) :
    recoveryMachine.answer ctx (.result leaseId workerId) =
      some (vomRecoveryProcessIncomingResult ctx leaseId workerId).2 := rfl

theorem result_ages (ctx : RecoveryContext) (leaseId : UInt64) (workerId : CStr) :
    TableAges ctx.leases (vomRecoveryProcessIncomingResult ctx leaseId workerId).1.leases := by
  rcases result_cases ctx leaseId workerId with ⟨l, hfind, he, hr, _, heq⟩ | heq
  · rw [heq]
    refine forall₂_modifyFirst Ages.refl fun a ha => ?_
    obtain rfl : l = a := Option.some.inj (hfind.symm.trans ha)
    exact ages_of_open rfl rfl rfl he hr
  · rw [heq]
    exact TableAges.refl _

/-- **What an operation does to the lease table**: the stored leases age, and an injection may store
    one more. -/
theorem recoveryStep_cases (ctx : RecoveryContext) (o : RecoveryOp) :
    TableAges ctx.leases (recoveryMachine.next ctx o).leases ∨
    ∃ leaseId chunkId workerId expiresMs policy,
      o = .inject leaseId chunkId workerId expiresMs policy ∧
      (recoveryMachine.next ctx o).leases =
        ctx.leases ++ [testLease leaseId chunkId workerId expiresMs policy] := by
  cases o with
  | heartbeat workerId nowMs =>
    left
    show TableAges _ (vomRecoveryRegisterWorkerHeartbeat ctx workerId nowMs).leases
    rw [heartbeat_leases]
    exact TableAges.refl _
  | sweep nowMs timeoutMs => exact Or.inl (sweep_ages ctx nowMs timeoutMs)
  | result leaseId workerId => exact Or.inl (result_ages ctx leaseId workerId)
  | inject leaseId chunkId workerId expiresMs policy =>
    show TableAges _ (vomRecoveryInjectTestLease _ _ _ _ _ _).leases ∨ _
    by_cases hroom : ctx.leases.length < recMaxLeases
    · right
      refine ⟨leaseId, chunkId, workerId, expiresMs, policy, rfl, ?_⟩
      show (vomRecoveryInjectTestLease _ _ _ _ _ _).leases = _
      rw [vomRecoveryInjectTestLease, if_pos hroom]
    · left
      rw [vomRecoveryInjectTestLease, if_neg hroom]
      exact TableAges.refl _

/-- A stored lease is found again, aged, in the table after any run. -/
theorem run_ages {l : RecLeaseRecord} (ops : List RecoveryOp) {ctx : RecoveryContext}
    (hl : l ∈ ctx.leases) : ∃ l' ∈ (recoveryMachine.run ctx ops).leases, Ages l l' := by
  refine recoveryMachine.invariant_all (fun s => ∃ l' ∈ s.leases, Ages l l') ?_ ops
    ⟨l, hl, Ages.refl l⟩
  rintro s o ⟨a, ha, hla⟩
  rcases recoveryStep_cases s o with h | ⟨_, _, _, _, _, _, h⟩
  · obtain ⟨b, hb, hab⟩ := forall₂_exists_right h ha
    exact ⟨b, hb, hla.trans hab⟩
  · exact ⟨a, h ▸ List.mem_append_left _ ha, hla⟩

/-! ## 2. The log of commits -/

/-- A result that was answered `true`: the lease it names, the chunk of that lease, its sender. -/
structure Commit where
  leaseId : UInt64
  chunkId : UInt64
  workerId : CStr
  deriving DecidableEq

/-- What an operation commits. -/
def commitOf (ctx : RecoveryContext) : RecoveryOp → List Commit
  | .result leaseId workerId =>
    if (vomRecoveryProcessIncomingResult ctx leaseId workerId).2 then
      match ctx.leases.find? (fun l => l.leaseId == leaseId) with
      | some l => [{ leaseId := leaseId, chunkId := l.chunkId, workerId := workerId }]
      | none => []
    else []
  | _ => []

/-- The commits of a run from `vom_recovery_init`, in order. -/
def commits (ops : List RecoveryOp) : List Commit :=
  recoveryMachine.log commitOf vomRecoveryInit ops

/-- How leases are injected: the worker id fits its field, the lease id is not stored yet, and every
    stored lease of the chunk is expired. Nothing is asked of heartbeats, sweeps and results. -/
def InjectsSafely (ctx : RecoveryContext) : RecoveryOp → Prop
  | .inject leaseId chunkId workerId _ _ =>
    workerId.strlen ≤ 63 ∧ (∀ l ∈ ctx.leases, l.leaseId ≠ leaseId) ∧
      ∀ l ∈ ctx.leases, l.chunkId = chunkId → l.state = .expired
  | _ => True

instance decidableInjectsSafely (ctx : RecoveryContext) :
    (o : RecoveryOp) → Decidable (InjectsSafely ctx o)
  | .heartbeat _ _ => isTrue trivial
  | .sweep _ _ => isTrue trivial
  | .result _ _ => isTrue trivial
  | .inject _ _ _ _ _ => inferInstanceAs (Decidable (_ ∧ _ ∧ _))

/-- **What holds of the lease table and the log of commits together**, in a run of the operations
    `T`. -/
structure OneCommit (T : List RecoveryOp) (ls : List RecLeaseRecord) (log : List Commit) : Prop where
  leaseIds : (ls.map (·.leaseId)).Nodup
  oneOpen : ((ls.filter (fun l => l.state ≠ .expired)).map (·.chunkId)).Nodup
  origin : ∀ l ∈ ls, ∃ expiresMs policy,
    .inject l.leaseId l.chunkId l.assignedWorkerId.str expiresMs policy ∈ T
  stored : ∀ c ∈ log, ∃ l ∈ ls, l.leaseId = c.leaseId ∧ l.chunkId = c.chunkId ∧
    l.assignedWorkerId.str = c.workerId ∧ l.state = .reconciled
  leaseOnce : (log.map (·.leaseId)).Nodup
  chunkOnce : (log.map (·.chunkId)).Nodup

theorem TableAges.leaseIds {as bs : List RecLeaseRecord} (h : TableAges as bs) :
    bs.map (·.leaseId) = as.map (·.leaseId) := by
  induction h with
  | nil => rfl
  | cons hab _ ih => rw [List.map_cons, List.map_cons, hab.leaseId, ih]

/-- Ageing only takes chunks out of the leases that are not expired. -/
theorem TableAges.openChunks {as bs : List RecLeaseRecord} (h : TableAges as bs) :
    ((bs.filter (fun l => l.state ≠ .expired)).map (·.chunkId)).Sublist
      ((as.filter (fun l => l.state ≠ .expired)).map (·.chunkId)) := by
  induction h with
  | nil => exact List.Sublist.refl _
  | @cons a b as bs hab _ ih =>
    by_cases ha : a.state = .expired
    · simpa [ha, hab.expired ha] using ih
    · by_cases hb : b.state = .expired
      · simpa [ha, hb] using ih.cons a.chunkId
      · simpa [ha, hb, hab.chunkId] using ih

variable {T : List RecoveryOp} {ls ls' : List RecLeaseRecord} {log : List Commit}

theorem OneCommit.aged (h : OneCommit T ls log) (ha : TableAges ls ls') : OneCommit T ls' log where
  leaseIds := ha.leaseIds ▸ h.leaseIds
  oneOpen := h.oneOpen.sublist ha.openChunks
  origin := by
    intro b hb
    obtain ⟨a, haa, hab⟩ := forall₂_exists_left ha hb
    rw [hab.leaseId, hab.chunkId, hab.worker]
    exact h.origin a haa
  stored := by
    intro c hc
    obtain ⟨a, haa, hid, hch, hw, hst⟩ := h.stored c hc
    obtain ⟨b, hb, hab⟩ := forall₂_exists_right ha haa
    exact ⟨b, hb, hab.leaseId.trans hid, hab.chunkId.trans hch, hab.worker ▸ hw, hab.reconciled hst⟩
  leaseOnce := h.leaseOnce
  chunkOnce := h.chunkOnce

theorem OneCommit.injected (h : OneCommit T ls log) {leaseId chunkId : UInt64} {workerId : CStr}
    {expiresMs : UInt64} {policy : VomRetryAction} (hw : workerId.strlen ≤ 63)
    (hid : ∀ l ∈ ls, l.leaseId ≠ leaseId) (hch : ∀ l ∈ ls, l.chunkId = chunkId → l.state = .expired)
    (hT : .inject leaseId chunkId workerId expiresMs policy ∈ T) :
    OneCommit T (ls ++ [testLease leaseId chunkId workerId expiresMs policy]) log where
  leaseIds := nodup_map_snoc _ h.leaseIds hid
  oneOpen := by
    have hnew : [testLease leaseId chunkId workerId expiresMs policy].filter
        (fun l => l.state ≠ .expired) = [testLease leaseId chunkId workerId expiresMs policy] := rfl
    rw [List.filter_append, hnew]
    refine nodup_map_snoc _ h.oneOpen fun l hl e => ?_
    obtain ⟨hl, hopen⟩ := List.mem_filter.mp hl
    exact of_decide_eq_true hopen (hch l hl e)
  origin := by
    intro l hl
    rcases List.mem_append.mp hl with hl | hl
    · exact h.origin l hl
    · obtain rfl := List.mem_singleton.mp hl
      refine ⟨expiresMs, policy, ?_⟩
      show .inject leaseId chunkId (NulBuf.copy 63 workerId).str expiresMs policy ∈ T
      rwa [NulBuf.copy_str hw]
  stored := by
    intro c hc
    obtain ⟨l, hl, hl'⟩ := h.stored c hc
    exact ⟨l, List.mem_append_left _ hl, hl'⟩
  leaseOnce := h.leaseOnce
  chunkOnce := h.chunkOnce

/-- An open lease has not been committed, nor has its chunk. -/
theorem OneCommit.fresh (h : OneCommit T ls log) {l : RecLeaseRecord} (hl : l ∈ ls)
    (he : l.state ≠ .expired) (hr : l.state ≠ .reconciled) :
    ∀ c ∈ log, c.leaseId ≠ l.leaseId ∧ c.chunkId ≠ l.chunkId := by
  intro c hc
  constructor
  · intro e
    obtain ⟨a, ha, hid, -, -, hst⟩ := h.stored c hc
    obtain rfl : a = l := List.inj_on_of_nodup_map h.leaseIds ha hl (hid.trans e)
    exact hr hst
  · -- the commit's lease and this one are both not expired, so they are one lease
    intro e
    obtain ⟨a, ha, -, hch, -, hst⟩ := h.stored c hc
    have hopen : ∀ {x : RecLeaseRecord}, x ∈ ls → x.state ≠ .expired →
        x ∈ ls.filter (fun l => l.state ≠ .expired) :=
      fun hx hne => List.mem_filter.mpr ⟨hx, decide_eq_true hne⟩
    obtain rfl : a = l := List.inj_on_of_nodup_map h.oneOpen (hopen ha (by simp [hst]))
      (hopen hl he) (hch.trans e)
    exact hr hst

theorem OneCommit.committed (h : OneCommit T ls log) {l : RecLeaseRecord} {leaseId : UInt64}
    (hfind : ls.find? (fun l => l.leaseId == leaseId) = some l) (he : l.state ≠ .expired)
    (hr : l.state ≠ .reconciled) (ha : TableAges ls (reconcileLease leaseId ls)) :
    OneCommit T (reconcileLease leaseId ls)
      (log ++ [{ leaseId := leaseId, chunkId := l.chunkId, workerId := l.assignedWorkerId.str }]) := by
  have hl := List.mem_of_find?_eq_some hfind
  have hid : l.leaseId = leaseId := by simpa using List.find?_some hfind
  have hfresh := h.fresh hl he hr
  have h' := h.aged ha
  refine { h' with stored := ?_, leaseOnce := ?_, chunkOnce := ?_ }
  · intro c hc
    rcases List.mem_append.mp hc with hc | hc
    · exact h'.stored c hc
    · obtain rfl := List.mem_singleton.mp hc
      exact ⟨{ l with state := .reconciled }, modifyFirst_found_mem hfind, hid, rfl, rfl, rfl⟩
  · exact nodup_map_snoc _ h.leaseOnce fun c hc e => (hfresh c hc).1 (e.trans hid.symm)
  · exact nodup_map_snoc _ h.chunkOnce fun c hc => (hfresh c hc).2

/-- One operation keeps the table and the log together. -/
theorem recoveryStep_oneCommit {ctx : RecoveryContext} {o : RecoveryOp}
    (h : OneCommit T ctx.leases log) (hok : InjectsSafely ctx o) (hT : o ∈ T) :
    OneCommit T (recoveryMachine.next ctx o).leases (log ++ commitOf ctx o) := by
  cases o with
  | heartbeat workerId nowMs =>
    show OneCommit T (vomRecoveryRegisterWorkerHeartbeat ctx workerId nowMs).leases (log ++ [])
    rwa [heartbeat_leases, List.append_nil]
  | sweep nowMs timeoutMs =>
    show OneCommit T _ (log ++ [])
    rw [List.append_nil]
    exact h.aged (sweep_ages ctx nowMs timeoutMs)
  | result leaseId workerId =>
    show OneCommit T (vomRecoveryProcessIncomingResult ctx leaseId workerId).1.leases _
    have hages := result_ages ctx leaseId workerId
    rcases result_cases ctx leaseId workerId with ⟨l, hfind, he, hr, rfl, heq⟩ | heq
    · rw [heq] at hages
      simp only [commitOf, heq, if_true, hfind]
      exact h.committed hfind he hr hages
    · simpa [commitOf, heq] using h
  | inject leaseId chunkId workerId expiresMs policy =>
    show OneCommit T _ (log ++ [])
    rw [List.append_nil]
    obtain ⟨hw, hid, hch⟩ := hok
    rcases recoveryStep_cases ctx (.inject leaseId chunkId workerId expiresMs policy) with
      hages | ⟨_, _, _, _, _, e, heq⟩
    · exact h.aged hages
    · injection e with e₁ e₂ e₃ e₄ e₅
      subst e₁ e₂ e₃ e₄ e₅
      rw [heq]
      exact h.injected hw hid hch hT

/-- The table and the log agree after every run that injects safely. -/
theorem oneCommit_run {ops : List RecoveryOp}
    (h : recoveryMachine.Legal InjectsSafely vomRecoveryInit ops) :
    OneCommit ops (recoveryMachine.run vomRecoveryInit ops).leases (commits ops) := by
  have hinit : OneCommit ops vomRecoveryInit.leases [] :=
    ⟨List.nodup_nil, List.nodup_nil, nofun, nofun, List.nodup_nil, List.nodup_nil⟩
  exact recoveryMachine.invariant_log commitOf (fun s L => OneCommit ops s.leases L)
    (fun _ _ _ hs hok => recoveryStep_oneCommit hs hok.1 hok.2) hinit
    (h.mem _ (List.Subset.refl ops))

/-- The log has one entry for every result answered `true`. -/
theorem length_commits_from (ctx : RecoveryContext) (ops : List RecoveryOp) :
    (recoveryMachine.log commitOf ctx ops).length =
      (recoveryMachine.answers ctx ops).count (some true) := by
  induction ops generalizing ctx with
  | nil => rfl
  | cons o ops ih =>
    have hone : (commitOf ctx o).length = if recoveryMachine.answer ctx o = some true then 1 else 0 := by
      cases o with
      | heartbeat workerId nowMs => rfl
      | sweep nowMs timeoutMs => rfl
      | inject leaseId chunkId workerId expiresMs policy => rfl
      | result leaseId workerId =>
        rcases result_cases ctx leaseId workerId with ⟨l, hfind, _, _, _, heq⟩ | heq
        · simp [commitOf, heq, hfind]
        · simp [commitOf, heq]
    simp only [Machine.log, Machine.answers, List.length_append, ih, hone, List.count_cons,
      beq_iff_eq]
    omega

/-- A lease that is expired or reconciled is answered `false`, whoever sends the result and whatever
    happens in between. -/
theorem ended_answers_false {pre mid : List RecoveryOp} {l : RecLeaseRecord} (workerId : CStr)
    (h : recoveryMachine.Legal InjectsSafely vomRecoveryInit (pre ++ mid))
    (hl : l ∈ (recoveryMachine.run vomRecoveryInit pre).leases)
    (hend : l.state = .expired ∨ l.state = .reconciled) :
    recoveryMachine.answer (recoveryMachine.run vomRecoveryInit (pre ++ mid))
      (.result l.leaseId workerId) = some false := by
  have hids := (oneCommit_run h).leaseIds
  rw [Machine.run_append] at hids ⊢
  obtain ⟨l', hl', hage⟩ := run_ages mid hl
  have hfind := find?_key (p := fun x => x.leaseId == l.leaseId) (·.leaseId) hids hl'
    (fun x => by simp [hage.leaseId])
  have hend' : l'.state = .expired ∨ l'.state = .reconciled := hend.imp hage.expired hage.reconciled
  rw [answer_result]
  rcases result_cases (recoveryMachine.run _ mid) l.leaseId workerId with
    ⟨a, ha, he, hr, _, _⟩ | heq
  · obtain rfl : l' = a := Option.some.inj (hfind.symm.trans ha)
    exact absurd hend' (not_or.mpr ⟨he, hr⟩)
  · rw [heq]

/-- **Exactly once.** In every run from `vom_recovery_init` that injects leases safely, in whatever
    order heartbeats, sweeps and results come: there is one commit for each `true`, no lease and no
    chunk is committed twice, a commit's sender is the worker the lease was injected for, and a result
    for a lease that an earlier sweep left expired or reconciled is answered `false`. -/
theorem chunk_committed_once (ops : List RecoveryOp)
    (h : recoveryMachine.Legal InjectsSafely vomRecoveryInit ops) :
    (commits ops).length = (recoveryMachine.answers vomRecoveryInit ops).count (some true) ∧
    ((commits ops).map (·.leaseId)).Nodup ∧
    ((commits ops).map (·.chunkId)).Nodup ∧
    (∀ c ∈ commits ops, ∃ expiresMs policy,
      .inject c.leaseId c.chunkId c.workerId expiresMs policy ∈ ops) ∧
    ∀ pre nowMs timeoutMs mid leaseId workerId post,
      ops = pre ++ .sweep nowMs timeoutMs :: mid ++ .result leaseId workerId :: post →
      ∀ l ∈ (recoveryMachine.run vomRecoveryInit (pre ++ [.sweep nowMs timeoutMs])).leases,
        l.leaseId = leaseId → l.state = .expired ∨ l.state = .reconciled →
        recoveryMachine.answer
          (recoveryMachine.run vomRecoveryInit (pre ++ .sweep nowMs timeoutMs :: mid))
          (.result leaseId workerId) = some false := by
  have hinv := oneCommit_run h
  refine ⟨length_commits_from _ _, hinv.leaseOnce, hinv.chunkOnce, ?_, ?_⟩
  · intro c hc
    obtain ⟨l, hl, hid, hch, hw, -⟩ := hinv.stored c hc
    obtain ⟨expiresMs, policy, hmem⟩ := hinv.origin l hl
    rw [hid, hch, hw] at hmem
    exact ⟨expiresMs, policy, hmem⟩
  · rintro pre nowMs timeoutMs mid leaseId workerId post rfl l hl rfl hend
    have hlegal := ((recoveryMachine.legal_append _ _ _).mp h).1
    rw [← List.singleton_append, ← List.append_assoc] at hlegal ⊢
    exact ended_answers_false workerId hlegal hl hend

/-- `w1` loses its lease on chunk 501 to a sweep, the chunk is leased again to `w2`, and the late
    result of `w1` arrives before that of `w2`, which comes twice. -/
def lateResultRun : List RecoveryOp :=
  let w1 : CStr := ⟨[119, 49], by simp⟩
  let w2 : CStr := ⟨[119, 50], by simp⟩
  [.heartbeat w1 10000, .inject 7001 501 w1 15000 .immediate, .sweep 25000 5000,
   .inject 7002 501 w2 40000 .immediate, .result 7001 w1, .result 7002 w2, .result 7002 w2]

theorem chunk_committed_once_lateResult :
    recoveryMachine.Legal InjectsSafely vomRecoveryInit lateResultRun ∧
    recoveryMachine.answers vomRecoveryInit lateResultRun =
      [none, none, none, none, some false, some true, some false] ∧
    ((commits lateResultRun).map (·.chunkId)).Nodup := by
  have h : recoveryMachine.Legal InjectsSafely vomRecoveryInit lateResultRun := by decide +kernel
  exact ⟨h, by decide +kernel, (chunk_committed_once lateResultRun h).2.2.1⟩

end VoidOsMerger
