/-
  File:      VoidOsMerger/Worker/LeaseHistory.lean
  Subject:   WHICH RESULTS A WORKER CAN CLAIM, from the calls alone.

  `LeaseFate` is the life of one lease: accepted, completed, or lost to a revocation or to a
  reconciliation that does not name it. It is stepped beside the machine (`fateAfter`), and the table
  shows it (`LeaseFate.Shown`), through the deletions that move the records of other leases.

  * `shown_effect`, `shown_run` -- one call and whole runs, as long as no lease is accepted twice;
  * `fateAfter_unknown_split`, `fateAfter_running_split` -- what a fate says about the calls before;
  * **`claim_iff_history`** -- so a claim succeeds exactly after an undisturbed completion, with the
    checksum of the first one.
-/
import VoidOsMerger.Worker.LeaseTable

namespace VoidOsMerger

/-! ## 1. The life of a lease -/

/-- What has become of a lease. -/
inductive LeaseFate
  | unknown
  | running
  | completed (checksum : CStr)
  | lost
  deriving DecidableEq

/-- A lease that was accepted is lost. -/
def LeaseFate.lose : LeaseFate → LeaseFate
  | .unknown => .unknown
  | _ => .lost

/-- One call, seen from lease `id`; `isOpen` says whether an offer is accepted. -/
def LeaseFate.step (id : UInt64) (isOpen : Bool) (fate : LeaseFate) : WorkerRecoveryOp → LeaseFate
  | .acceptNewChunk leaseId _ _ =>
    if leaseId = id ∧ isOpen = true ∧ fate = .unknown then .running else fate
  | .handleRevocation leaseId => if leaseId = id then fate.lose else fate
  | .reconnectReconcile auth => if id ∈ auth then fate else fate.lose
  | .completeChunk leaseId (some checksum) =>
    if leaseId = id ∧ fate = .running then .completed checksum else fate
  | .completeChunk _ none | .setDrain _ | .onDisconnect | .claimResult _ => fate

/-- A revocation of the lease, or a reconciliation that does not name it. -/
def TakesAway (id : UInt64) : WorkerRecoveryOp → Prop
  | .handleRevocation leaseId => leaseId = id
  | .reconnectReconcile auth => id ∉ auth
  | _ => False

instance (id : UInt64) : DecidablePred (TakesAway id)
  | .handleRevocation leaseId => inferInstanceAs (Decidable (leaseId = id))
  | .reconnectReconcile auth => inferInstanceAs (Decidable (id ∉ auth))
  | .acceptNewChunk .. | .setDrain _ | .onDisconnect | .completeChunk .. | .claimResult _ =>
    inferInstanceAs (Decidable False)

/-- The fate of lease `id` after a run from `ctx`. -/
def fateAfter (id : UInt64) : WorkerRecoveryContext → List WorkerRecoveryOp → LeaseFate → LeaseFate
  | _, [], fate => fate
  | ctx, op :: ops, fate =>
    fateAfter id (workerRecoveryMachine.next ctx op) ops (fate.step id (decide ctx.Open) op)

/-- The ids of the leases a run accepts, in order. -/
def acceptedId (ctx : WorkerRecoveryContext) : WorkerRecoveryOp → List UInt64
  | .acceptNewChunk leaseId chunkId discardPolicy =>
    if (vomWorkerRecoveryAcceptNewChunk ctx leaseId chunkId discardPolicy).1 then [leaseId] else []
  | _ => []

/-! ## 2. The table shows the fate -/

/-- The records of one lease. -/
def recordsOf (id : UInt64) (ls : List WorkerActiveLease) : List WorkerActiveLease :=
  ls.filter fun l => l.leaseId == id

/-- What the records of a lease say about it. -/
def LeaseFate.Shown (rs : List WorkerActiveLease) : LeaseFate → Prop
  | .unknown => rs = []
  | .running => ∃ l, rs = [l] ∧ l.state = .running
  | .completed checksum => ∃ l, rs = [l] ∧ (l.state = .completed ∨ l.state = .reconciled) ∧
      l.outputChecksum = NulBuf.copy 63 checksum
  | .lost => ∀ l ∈ rs, l.state = .revoked

section Records

variable {id : UInt64}

/-- The records of a lease after a call are its records treated by the call. -/
theorem recordsOf_effect (isOpen : Bool) (ls : List WorkerActiveLease) (op : WorkerRecoveryOp) :
    recordsOf id (op.effect isOpen ls) =
      match op with
      | .acceptNewChunk leaseId chunkId discardPolicy => recordsOf id ls ++
          if leaseId = id ∧ isOpen = true then [acceptedLease leaseId chunkId discardPolicy] else []
      | .handleRevocation leaseId => if leaseId = id
          then modifyFirst (fun _ => true) WorkerActiveLease.revoke (recordsOf id ls)
          else recordsOf id ls
      | .reconnectReconcile auth => (recordsOf id ls).filterMap (reconcileRecord auth)
      | .completeChunk leaseId (some checksum) => if leaseId = id
          then modifyFirst (fun l => l.state == .running) (WorkerActiveLease.complete checksum)
            (recordsOf id ls)
          else recordsOf id ls
      | .completeChunk _ none | .setDrain _ | .onDisconnect | .claimResult _ => recordsOf id ls := by
  unfold recordsOf
  cases op with
  | acceptNewChunk leaseId chunkId discardPolicy =>
    cases isOpen with
    | false => simp [WorkerRecoveryOp.effect]
    | true =>
      by_cases hid : leaseId = id
      · simp [WorkerRecoveryOp.effect, List.filter_append, acceptedLease, hid]
      · simp [WorkerRecoveryOp.effect, List.filter_append, acceptedLease, hid]
  | handleRevocation leaseId =>
    have hkeep : ∀ l : WorkerActiveLease, (l.revoke.leaseId == id) = (l.leaseId == id) := fun _ => rfl
    dsimp only [WorkerRecoveryOp.effect]
    split
    · rename_i hid
      subst hid
      exact filter_modifyFirst_in (fun _ hl => hl) (fun _ hl => hl) hkeep ls
    · rename_i hid
      refine filter_modifyFirst_out (fun l hl => ?_) hkeep ls
      have hl : l.leaseId = leaseId := by simpa using hl
      simpa [hl] using hid
  | reconnectReconcile auth =>
    refine filter_filterMap_key (fun l l' hl => ?_) ls
    rw [reconcileRecord_leaseId hl]
  | completeChunk leaseId checksum =>
    cases checksum with
    | none => rfl
    | some checksum =>
      have hkeep : ∀ l : WorkerActiveLease,
          ((l.complete checksum).leaseId == id) = (l.leaseId == id) := fun _ => rfl
      dsimp only [WorkerRecoveryOp.effect]
      split
      · rename_i hid
        subst hid
        refine filter_modifyFirst_in (fun l hl => ?_) (fun l hl => ?_) hkeep ls
        · exact (Bool.and_eq_true_iff.mp hl).1
        · rw [hl, Bool.true_and]
      · rename_i hid
        refine filter_modifyFirst_out (fun l hl => ?_) hkeep ls
        have hl : l.leaseId = leaseId := by simpa using (Bool.and_eq_true_iff.mp hl).1
        simpa [hl] using hid
  | setDrain drainActive => rfl
  | onDisconnect => rfl
  | claimResult leaseId => rfl

end Records

section Shown

variable {rs : List WorkerActiveLease} {fate : LeaseFate}

theorem LeaseFate.Shown.revoke (h : fate.Shown rs) :
    fate.lose.Shown (modifyFirst (fun _ => true) WorkerActiveLease.revoke rs) := by
  cases fate with
  | unknown =>
    obtain rfl : rs = [] := h
    rfl
  | running =>
    obtain ⟨l, rfl, -⟩ := h
    simp [LeaseFate.lose, LeaseFate.Shown, modifyFirst, WorkerActiveLease.revoke]
  | completed checksum =>
    obtain ⟨l, rfl, -⟩ := h
    simp [LeaseFate.lose, LeaseFate.Shown, modifyFirst, WorkerActiveLease.revoke]
  | lost =>
    cases rs with
    | nil => exact h
    | cons l rs =>
      intro x hx
      rcases List.mem_cons.mp hx with rfl | hx
      · rfl
      · exact h x (List.mem_cons_of_mem _ hx)

theorem LeaseFate.Shown.complete (h : fate.Shown rs) (checksum : CStr) :
    (if fate = .running then .completed checksum else fate : LeaseFate).Shown
      (modifyFirst (fun l => l.state == .running) (WorkerActiveLease.complete checksum) rs) := by
  have hkeep : (∀ l ∈ rs, l.state ≠ .running) →
      modifyFirst (fun l => l.state == .running) (WorkerActiveLease.complete checksum) rs = rs :=
    fun hno => modifyFirst_of_none _ (List.find?_eq_none.mpr fun l hl => by simpa using hno l hl)
  cases fate with
  | unknown =>
    obtain rfl : rs = [] := h
    rfl
  | running =>
    obtain ⟨l, rfl, hstate⟩ := h
    exact ⟨l.complete checksum, by simp [modifyFirst, hstate], Or.inl rfl, rfl⟩
  | completed other =>
    rw [if_neg LeaseFate.noConfusion, hkeep]
    · exact h
    · obtain ⟨l, rfl, hstate, -⟩ := h
      rintro x hx hrun
      rw [List.mem_singleton.mp hx] at hrun
      rcases hstate with hstate | hstate
      · exact WorkerChunkState.noConfusion (hstate.symm.trans hrun)
      · exact WorkerChunkState.noConfusion (hstate.symm.trans hrun)
  | lost =>
    rw [if_neg LeaseFate.noConfusion, hkeep]
    · exact h
    · intro l hl hrun
      exact WorkerChunkState.noConfusion ((h l hl).symm.trans hrun)

/-- A reconciliation that names the lease. -/
theorem LeaseFate.Shown.named (h : fate.Shown rs) {auth : List UInt64}
    (hin : ∀ l ∈ rs, l.leaseId ∈ auth) : fate.Shown (rs.filterMap (reconcileRecord auth)) := by
  have hone : ∀ {l : WorkerActiveLease}, rs = [l] → rs.filterMap (reconcileRecord auth) =
      [if l.state = .completed then { l with state := .reconciled } else l] := by
    rintro l rfl
    have hl : reconcileRecord auth l = some _ := if_pos (hin l List.mem_cons_self)
    rw [List.filterMap_cons_some hl]
    rfl
  cases fate with
  | unknown =>
    obtain rfl : rs = [] := h
    rfl
  | running =>
    obtain ⟨l, hl, hstate⟩ := h
    exact ⟨_, hone hl, by simp [hstate]⟩
  | completed checksum =>
    obtain ⟨l, hl, hstate, hsum⟩ := h
    refine ⟨_, hone hl, ?_⟩
    rcases hstate with hstate | hstate
    · simp [hstate, hsum]
    · simp [hstate, hsum]
  | lost =>
    intro x hx
    obtain ⟨l, hl, hx⟩ := List.mem_filterMap.mp hx
    rw [reconcileRecord, if_pos (hin l hl), if_neg (by simp [h l hl])] at hx
    rw [← Option.some.inj hx]
    exact h l hl

/-- One that does not. -/
theorem LeaseFate.Shown.omitted (h : fate.Shown rs) {auth : List UInt64}
    (hout : ∀ l ∈ rs, l.leaseId ∉ auth) :
    fate.lose.Shown (rs.filterMap (reconcileRecord auth)) := by
  have hlost : ∀ l ∈ rs.filterMap (reconcileRecord auth), l.state = .revoked := by
    intro x hx
    obtain ⟨l, hl, hx⟩ := List.mem_filterMap.mp hx
    rw [reconcileRecord, if_neg (hout l hl)] at hx
    split at hx
    · rw [← Option.some.inj hx]
    · rw [← Option.some.inj hx]
      assumption
    · cases hx
    · cases hx
  cases fate with
  | unknown =>
    obtain rfl : rs = [] := h
    rfl
  | running => exact hlost
  | completed checksum => exact hlost
  | lost => exact hlost

end Shown

/-- **One call keeps the records in step with the fate**, unless it accepts the lease again. -/
theorem shown_effect {id : UInt64} {isOpen : Bool} {ls : List WorkerActiveLease} {fate : LeaseFate}
    (h : fate.Shown (recordsOf id ls)) {op : WorkerRecoveryOp}
    (hfresh : ∀ chunkId discardPolicy, op = .acceptNewChunk id chunkId discardPolicy →
      isOpen = true → fate = .unknown) :
    (fate.step id isOpen op).Shown (recordsOf id (op.effect isOpen ls)) := by
  have hids : ∀ l ∈ recordsOf id ls, l.leaseId = id := fun l hl => by
    simpa using (List.mem_filter.mp hl).2
  rw [recordsOf_effect]
  cases op with
  | acceptNewChunk leaseId chunkId discardPolicy =>
    dsimp only [LeaseFate.step]
    by_cases hacc : leaseId = id ∧ isOpen = true
    · obtain rfl := hfresh chunkId discardPolicy (by rw [hacc.1]) hacc.2
      have hnone : recordsOf id ls = [] := h
      rw [if_pos hacc, if_pos ⟨hacc.1, hacc.2, rfl⟩, hnone]
      exact ⟨_, rfl, rfl⟩
    · rw [if_neg hacc, if_neg fun e => hacc ⟨e.1, e.2.1⟩, List.append_nil]
      exact h
  | handleRevocation leaseId =>
    dsimp only [LeaseFate.step]
    split
    · exact h.revoke
    · exact h
  | reconnectReconcile auth =>
    dsimp only [LeaseFate.step]
    split
    · rename_i hin
      exact h.named fun l hl => hids l hl ▸ hin
    · rename_i hout
      exact h.omitted fun l hl => hids l hl ▸ hout
  | completeChunk leaseId checksum =>
    cases checksum with
    | none => exact h
    | some checksum =>
      dsimp only [LeaseFate.step]
      by_cases hid : leaseId = id
      · simp only [hid, true_and, if_true]
        exact h.complete checksum
      · rw [if_neg hid, if_neg fun e => hid e.1]
        exact h
  | setDrain drainActive => exact h
  | onDisconnect => exact h
  | claimResult leaseId => exact h

/-- Whether a call accepts the lease. -/
theorem mem_acceptedId {ctx : WorkerRecoveryContext} {op : WorkerRecoveryOp} {id : UInt64} :
    id ∈ acceptedId ctx op ↔
      ctx.Open ∧ ∃ chunkId discardPolicy, op = .acceptNewChunk id chunkId discardPolicy := by
  cases op with
  | acceptNewChunk leaseId chunkId discardPolicy =>
    simp only [acceptedId, accept_eq_true_iff]
    by_cases hopen : ctx.Open
    · simp [hopen, eq_comm]
    · simp [hopen]
  | _ => simp [acceptedId]

section Step

variable {id : UInt64} {op : WorkerRecoveryOp}

/-- Only its acceptance makes a lease known. -/
theorem step_unknown {ctx : WorkerRecoveryContext} (h : id ∉ acceptedId ctx op) :
    LeaseFate.unknown.step id (decide ctx.Open) op = .unknown := by
  cases op with
  | acceptNewChunk leaseId chunkId discardPolicy =>
    refine if_neg fun e => h (mem_acceptedId.mpr ⟨of_decide_eq_true e.2.1, chunkId, discardPolicy, ?_⟩)
    rw [e.1]
  | handleRevocation leaseId => exact ite_self _
  | reconnectReconcile auth => exact ite_self _
  | completeChunk leaseId checksum =>
    cases checksum with
    | none => rfl
    | some checksum => exact if_neg fun e => LeaseFate.noConfusion e.2
  | setDrain drainActive => rfl
  | onDisconnect => rfl
  | claimResult leaseId => rfl

theorem step_lost (isOpen : Bool) : LeaseFate.lost.step id isOpen op = .lost := by
  cases op with
  | completeChunk leaseId checksum => cases checksum <;> simp [LeaseFate.step]
  | _ => simp [LeaseFate.step, LeaseFate.lose]

theorem step_takesAway (h : TakesAway id op) {isOpen : Bool} {fate : LeaseFate}
    (hknown : fate ≠ .unknown) : fate.step id isOpen op = .lost := by
  have hlose : fate.lose = .lost := by
    cases fate with
    | unknown => exact absurd rfl hknown
    | _ => rfl
  cases op with
  | handleRevocation leaseId => exact (if_pos h).trans hlose
  | reconnectReconcile auth => exact (if_neg h).trans hlose
  | _ => exact h.elim

theorem step_completed (h : ¬ TakesAway id op) {isOpen : Bool} {checksum : CStr} :
    (LeaseFate.completed checksum).step id isOpen op = .completed checksum := by
  cases op with
  | handleRevocation leaseId => exact if_neg h
  | reconnectReconcile auth => exact if_pos (not_not.mp h)
  | completeChunk leaseId other => cases other <;> simp [LeaseFate.step]
  | _ => simp [LeaseFate.step]

theorem step_running (h : ¬ TakesAway id op) (isOpen : Bool) :
    LeaseFate.running.step id isOpen op = .running ∨
      ∃ checksum, op = .completeChunk id (some checksum) ∧
        LeaseFate.running.step id isOpen op = .completed checksum := by
  cases op with
  | handleRevocation leaseId => exact Or.inl (if_neg h)
  | reconnectReconcile auth => exact Or.inl (if_pos (not_not.mp h))
  | completeChunk leaseId checksum =>
    cases checksum with
    | none => exact Or.inl rfl
    | some checksum =>
      by_cases hid : leaseId = id
      · exact Or.inr ⟨checksum, by rw [hid], if_pos ⟨hid, rfl⟩⟩
      · exact Or.inl (if_neg fun e => hid e.1)
  | _ => exact Or.inl (by simp [LeaseFate.step])

end Step

/-- **Over a run** in which no lease is accepted twice the records stay in step with the fate. -/
theorem shown_run {id : UInt64} : ∀ (ops : List WorkerRecoveryOp) {ctx : WorkerRecoveryContext}
    {fate : LeaseFate}, fate.Shown (recordsOf id ctx.leases) →
    (fate ≠ .unknown → id ∉ workerRecoveryMachine.log acceptedId ctx ops) →
    (workerRecoveryMachine.log acceptedId ctx ops).Nodup →
    (fateAfter id ctx ops fate).Shown (recordsOf id (workerRecoveryMachine.run ctx ops).leases)
  | [], _, _, h, _, _ => h
  | op :: ops, ctx, fate, h, hno, hnodup => by
      rw [Machine.log, List.nodup_append] at hnodup
      obtain ⟨-, hrest, hapart⟩ := hnodup
      have hstep : (fate.step id (decide ctx.Open) op).Shown
          (recordsOf id (workerRecoveryMachine.next ctx op).leases) := by
        rw [leases_next]
        refine shown_effect h fun chunkId discardPolicy hop hopen => ?_
        by_contra hknown
        have hacc : id ∈ acceptedId ctx op :=
          mem_acceptedId.mpr ⟨of_decide_eq_true hopen, chunkId, discardPolicy, hop⟩
        exact hno hknown (List.mem_append_left _ hacc)
      refine shown_run ops hstep (fun hknown hmem => ?_) hrest
      by_cases hbefore : fate = .unknown
      · -- the call that made the lease known is its only acceptance
        have hacc : id ∈ acceptedId ctx op := by
          by_contra hnot
          exact hknown (hbefore ▸ step_unknown hnot)
        exact hapart id hacc id hmem rfl
      · exact hno hbefore (List.mem_append_right _ hmem)

/-- What a claim hands out: the record's copy of the checksum, copied again. -/
def LeaseFate.result : LeaseFate → Option (NulBuf 64)
  | .completed checksum => some (NulBuf.copy 63 (NulBuf.copy 63 checksum).str)
  | .unknown | .running | .lost => none

/-- Claiming reads the fate. -/
theorem claim_of_shown {id : UInt64} {ctx : WorkerRecoveryContext} {fate : LeaseFate}
    (h : fate.Shown (recordsOf id ctx.leases)) :
    vomWorkerRecoveryClaimResult ctx id = fate.result := by
  have hfind : ctx.leases.find? (fun l => l.leaseId == id) = (recordsOf id ctx.leases).head? :=
    List.head?_filter.symm
  unfold vomWorkerRecoveryClaimResult
  rw [hfind]
  cases fate with
  | unknown =>
    have hnone : recordsOf id ctx.leases = [] := h
    rw [hnone]
    rfl
  | running =>
    obtain ⟨l, hl, hstate⟩ := h
    simp [hl, hstate, LeaseFate.result]
  | completed checksum =>
    obtain ⟨l, hl, hstate, hsum⟩ := h
    rcases hstate with hstate | hstate
    · simp [hl, hstate, hsum, LeaseFate.result]
    · simp [hl, hstate, hsum, LeaseFate.result]
  | lost =>
    cases hrs : recordsOf id ctx.leases with
    | nil => rfl
    | cons l rs =>
      have hstate : l.state = .revoked := h l (hrs ▸ List.mem_cons_self)
      simp [hstate, LeaseFate.result]

/-! ## 3. The fate and the calls before -/

section Fate

variable {id : UInt64}

theorem fateAfter_append (ctx : WorkerRecoveryContext) (pre post : List WorkerRecoveryOp)
    (fate : LeaseFate) : fateAfter id ctx (pre ++ post) fate =
      fateAfter id (workerRecoveryMachine.run ctx pre) post (fateAfter id ctx pre fate) := by
  induction pre generalizing ctx fate with
  | nil => rfl
  | cons op pre ih => exact ih _ _

theorem fateAfter_lost (ctx : WorkerRecoveryContext) (ops : List WorkerRecoveryOp) :
    fateAfter id ctx ops .lost = .lost := by
  induction ops generalizing ctx with
  | nil => rfl
  | cons op ops ih =>
    rw [fateAfter, step_lost]
    exact ih _

/-- A lease that was not accepted is unknown. -/
theorem fateAfter_unknown {ctx : WorkerRecoveryContext} {ops : List WorkerRecoveryOp}
    (h : id ∉ workerRecoveryMachine.log acceptedId ctx ops) :
    fateAfter id ctx ops .unknown = .unknown := by
  induction ops generalizing ctx with
  | nil => rfl
  | cons op ops ih =>
    rw [Machine.log, List.mem_append, not_or] at h
    rw [fateAfter, step_unknown h.1]
    exact ih h.2

/-- A known fate comes from the acceptance. -/
theorem fateAfter_unknown_split {ops : List WorkerRecoveryOp} :
    ∀ {ctx : WorkerRecoveryContext}, fateAfter id ctx ops .unknown ≠ .unknown →
    ∃ pre chunkId discardPolicy rest,
      ops = pre ++ .acceptNewChunk id chunkId discardPolicy :: rest ∧
      (workerRecoveryMachine.run ctx pre).Open ∧ fateAfter id ctx ops .unknown =
        fateAfter id (workerRecoveryMachine.run ctx
          (pre ++ [.acceptNewChunk id chunkId discardPolicy])) rest .running := by
  induction ops with
  | nil => exact fun h => absurd rfl h
  | cons op ops ih =>
    intro ctx h
    by_cases hacc : id ∈ acceptedId ctx op
    · obtain ⟨hopen, chunkId, discardPolicy, rfl⟩ := mem_acceptedId.mp hacc
      refine ⟨[], chunkId, discardPolicy, ops, rfl, hopen, ?_⟩
      simp [fateAfter, LeaseFate.step, hopen]
    · rw [fateAfter, step_unknown hacc] at h ⊢
      obtain ⟨pre, chunkId, discardPolicy, rest, rfl, hopen, hfate⟩ := ih h
      exact ⟨op :: pre, chunkId, discardPolicy, rest, rfl, hopen, hfate⟩

/-- A completed lease stays so exactly while it is not taken away. -/
theorem fateAfter_completed {checksum : CStr} {ops : List WorkerRecoveryOp} :
    ∀ {ctx : WorkerRecoveryContext}, fateAfter id ctx ops (.completed checksum) =
      if ∀ op ∈ ops, ¬ TakesAway id op then .completed checksum else .lost := by
  induction ops with
  | nil => simp [fateAfter]
  | cons op ops ih =>
    intro ctx
    by_cases hop : TakesAway id op
    · rw [fateAfter, step_takesAway hop LeaseFate.noConfusion, fateAfter_lost,
        if_neg fun h => h op List.mem_cons_self hop]
    · rw [fateAfter, step_completed hop, ih]
      simp [hop]

/-- An undisturbed lease is running, or completed. -/
theorem fateAfter_running {ops : List WorkerRecoveryOp} (h : ∀ op ∈ ops, ¬ TakesAway id op) :
    ∀ {ctx : WorkerRecoveryContext}, fateAfter id ctx ops .running = .running ∨
      ∃ checksum, fateAfter id ctx ops .running = .completed checksum := by
  induction ops with
  | nil => exact Or.inl rfl
  | cons op ops ih =>
    intro ctx
    obtain ⟨hop, hrest⟩ := List.forall_mem_cons.mp h
    rcases step_running hop (decide ctx.Open) with hstep | ⟨checksum, -, hstep⟩
    · rw [fateAfter, hstep]
      exact ih hrest
    · rw [fateAfter, hstep, fateAfter_completed, if_pos hrest]
      exact Or.inr ⟨checksum, rfl⟩

/-- A running lease is completed by the first completion, if nothing takes it away. -/
theorem fateAfter_running_split {checksum : CStr} {ops : List WorkerRecoveryOp} :
    ∀ {ctx : WorkerRecoveryContext}, fateAfter id ctx ops .running = .completed checksum →
    ∃ mid post, ops = mid ++ .completeChunk id (some checksum) :: post ∧
      (∀ op ∈ mid, ¬ TakesAway id op) ∧ (∀ op ∈ post, ¬ TakesAway id op) ∧
      ∀ other, .completeChunk id (some other) ∉ mid := by
  induction ops with
  | nil => exact fun h => LeaseFate.noConfusion h
  | cons op ops ih =>
    intro ctx h
    by_cases hop : TakesAway id op
    · rw [fateAfter, step_takesAway hop LeaseFate.noConfusion, fateAfter_lost] at h
      cases h
    · by_cases hdone : ∃ first, op = .completeChunk id (some first)
      · obtain ⟨first, rfl⟩ := hdone
        rw [fateAfter, LeaseFate.step, if_pos ⟨rfl, rfl⟩, fateAfter_completed] at h
        split at h
        · rename_i hpost
          obtain rfl := LeaseFate.completed.inj h
          exact ⟨[], ops, rfl, by simp, hpost, by simp⟩
        · cases h
      · rcases step_running hop (decide ctx.Open) with hstep | ⟨first, hfirst, -⟩
        · rw [fateAfter, hstep] at h
          obtain ⟨mid, post, rfl, hmid, hpost, hno⟩ := ih h
          refine ⟨op :: mid, post, rfl, List.forall_mem_cons.mpr ⟨hop, hmid⟩, hpost, ?_⟩
          intro other hm
          rcases List.mem_cons.mp hm with hm | hm
          · exact hdone ⟨other, hm.symm⟩
          · exact hno other hm
        · exact absurd ⟨first, hfirst⟩ hdone

end Fate

/-! ## 4. Which results can be claimed -/

/-- The calls `pre`, the accepted offer of lease `id`, the calls `mid`, the completion with `checksum`
    and the calls `post`; since the acceptance the lease was neither revoked nor omitted. -/
structure CompletedIn (id : UInt64) (ops pre mid post : List WorkerRecoveryOp) (checksum : CStr) :
    Prop where
  accepted : ∃ chunkId discardPolicy,
    (vomWorkerRecoveryAcceptNewChunk (workerRecoveryMachine.run vomWorkerRecoveryInit pre)
      id chunkId discardPolicy).1 = true ∧
    ops = pre ++ .acceptNewChunk id chunkId discardPolicy ::
      (mid ++ .completeChunk id (some checksum) :: post)
  undisturbed : ∀ op ∈ mid, ¬ TakesAway id op
  kept : ∀ op ∈ post, ¬ TakesAway id op

/-- What the fate of a lease says about the calls. -/
theorem CompletedIn.of_fate {id : UInt64} {ops : List WorkerRecoveryOp} {checksum : CStr}
    (h : fateAfter id vomWorkerRecoveryInit ops .unknown = .completed checksum) :
    ∃ pre mid post, CompletedIn id ops pre mid post checksum ∧
      ∀ other, .completeChunk id (some other) ∉ mid := by
  obtain ⟨pre, chunkId, discardPolicy, rest, rfl, hopen, hfate⟩ :=
    fateAfter_unknown_split fun hu => LeaseFate.noConfusion (h.symm.trans hu)
  rw [h] at hfate
  obtain ⟨mid, post, rfl, hmid, hpost, hno⟩ := fateAfter_running_split hfate.symm
  exact ⟨pre, mid, post,
    ⟨⟨chunkId, discardPolicy, (accept_eq_true_iff _ _ _ _).mpr hopen, rfl⟩, hmid, hpost⟩, hno⟩

/-- And back: the lease is completed, by this completion or an earlier one. -/
theorem CompletedIn.fate {id : UInt64} {ops pre mid post : List WorkerRecoveryOp} {checksum : CStr}
    (h : CompletedIn id ops pre mid post checksum)
    (hdistinct : (workerRecoveryMachine.log acceptedId vomWorkerRecoveryInit ops).Nodup) :
    ∃ first, fateAfter id vomWorkerRecoveryInit ops .unknown = .completed first := by
  obtain ⟨chunkId, discardPolicy, hacc, rfl⟩ := h.accepted
  have hopen := (accept_eq_true_iff _ _ _ _).mp hacc
  -- the lease was not accepted before, so that this acceptance starts its life
  have hfresh : id ∉ workerRecoveryMachine.log acceptedId vomWorkerRecoveryInit pre := by
    rw [Machine.log_append, List.nodup_append] at hdistinct
    intro hmem
    have hhere : id ∈ acceptedId (workerRecoveryMachine.run vomWorkerRecoveryInit pre)
        (.acceptNewChunk id chunkId discardPolicy) :=
      mem_acceptedId.mpr ⟨hopen, chunkId, discardPolicy, rfl⟩
    exact hdistinct.2.2 id hmem id (List.mem_append_left _ hhere) rfl
  rw [fateAfter_append, fateAfter_unknown hfresh, fateAfter, LeaseFate.step,
    if_pos ⟨rfl, decide_eq_true hopen, rfl⟩, fateAfter_append]
  rcases fateAfter_running h.undisturbed with hmid | ⟨first, hmid⟩
  · rw [hmid, fateAfter, LeaseFate.step, if_pos ⟨rfl, rfl⟩, fateAfter_completed, if_pos h.kept]
    exact ⟨checksum, rfl⟩
  · rw [hmid, fateAfter, LeaseFate.step, if_neg fun e => LeaseFate.noConfusion e.2,
      fateAfter_completed, if_pos h.kept]
    exact ⟨first, rfl⟩

/-- **Which results can be claimed.** In a run that accepts no lease id twice, claiming lease `id`
    succeeds exactly after an accepted offer of it and a completion, with no revocation of it and no
    reconciliation without it since the acceptance; and the checksum handed out is that of the first
    completion since the acceptance, cut to 63 bytes. -/
theorem claim_iff_history (ops : List WorkerRecoveryOp) (id : UInt64)
    (hdistinct : (workerRecoveryMachine.log acceptedId vomWorkerRecoveryInit ops).Nodup) :
    ((vomWorkerRecoveryClaimResult (workerRecoveryMachine.run vomWorkerRecoveryInit ops) id).isSome =
        true ↔ ∃ pre mid post checksum, CompletedIn id ops pre mid post checksum) ∧
    ∀ outChecksum,
      vomWorkerRecoveryClaimResult (workerRecoveryMachine.run vomWorkerRecoveryInit ops) id =
        some outChecksum →
      ∃ pre mid post checksum, CompletedIn id ops pre mid post checksum ∧
        (∀ other, .completeChunk id (some other) ∉ mid) ∧
        outChecksum.str.bytes = checksum.bytes.take 63 := by
  have hempty : LeaseFate.unknown.Shown (recordsOf id vomWorkerRecoveryInit.leases) := rfl
  have hclaim := claim_of_shown (shown_run ops hempty (fun h => absurd rfl h) hdistinct)
  have hsplit : ∀ outChecksum,
      vomWorkerRecoveryClaimResult (workerRecoveryMachine.run vomWorkerRecoveryInit ops) id =
        some outChecksum → ∃ checksum, outChecksum = NulBuf.copy 63 (NulBuf.copy 63 checksum).str ∧
          fateAfter id vomWorkerRecoveryInit ops .unknown = .completed checksum := by
    intro outChecksum hout
    rw [hclaim] at hout
    cases hfate : fateAfter id vomWorkerRecoveryInit ops .unknown with
    | completed checksum =>
      rw [hfate] at hout
      exact ⟨checksum, (Option.some.inj hout).symm, rfl⟩
    | _ =>
      rw [hfate] at hout
      cases hout
  refine ⟨⟨fun hsome => ?_, ?_⟩, fun outChecksum hout => ?_⟩
  · obtain ⟨outChecksum, hout⟩ := Option.isSome_iff_exists.mp hsome
    obtain ⟨checksum, -, hfate⟩ := hsplit outChecksum hout
    obtain ⟨pre, mid, post, h, -⟩ := CompletedIn.of_fate hfate
    exact ⟨pre, mid, post, checksum, h⟩
  · rintro ⟨pre, mid, post, checksum, h⟩
    obtain ⟨first, hfate⟩ := h.fate hdistinct
    rw [hclaim, hfate]
    rfl
  · obtain ⟨checksum, rfl, hfate⟩ := hsplit outChecksum hout
    obtain ⟨pre, mid, post, h, hfirst⟩ := CompletedIn.of_fate hfate
    refine ⟨pre, mid, post, checksum, h, hfirst, ?_⟩
    rw [NulBuf.copy_str_self, NulBuf.copy_str_bytes]

/-- A worker completes one of two leases, loses its master and is told of that lease alone. -/
def claimAfterReconnect : List WorkerRecoveryOp :=
  [.acceptNewChunk 9001 101 true, .acceptNewChunk 9002 102 true,
    .completeChunk 9001 (some (CStr.upTo [97, 98])), .onDisconnect, .reconnectReconcile [9001]]

theorem claim_after_reconnect :
    (workerRecoveryMachine.log acceptedId vomWorkerRecoveryInit claimAfterReconnect).Nodup ∧
      (∃ pre mid post checksum, CompletedIn 9001 claimAfterReconnect pre mid post checksum) ∧
      ¬ ∃ pre mid post checksum, CompletedIn 9002 claimAfterReconnect pre mid post checksum := by
  have hdistinct :
      (workerRecoveryMachine.log acceptedId vomWorkerRecoveryInit claimAfterReconnect).Nodup := by
    decide +kernel
  refine ⟨hdistinct, (claim_iff_history _ 9001 hdistinct).1.mp (by decide +kernel), fun h => ?_⟩
  exact absurd ((claim_iff_history _ 9002 hdistinct).1.mpr h) (by decide +kernel)

end VoidOsMerger
