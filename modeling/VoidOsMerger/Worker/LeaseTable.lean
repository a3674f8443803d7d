/-
  File:      VoidOsMerger/Worker/LeaseTable.lean
  Subject:   WHAT THE WORKER'S RECOVERY OPERATIONS DO TO THE RECORDS IN USE.

  * `accept_cases`, `leases_updateFirst` -- a record is appended, or the first match is changed;
  * **`reconcile_exact`** -- the loop that edits and deletes in place treats every record by itself
    (`reconcileRecord`), and a second reconciliation with the same list changes nothing;
  * **`distinctLeases_iff`** -- when the table never holds a lease twice: nothing but the caller keeps
    a redelivered lease out;
  * **`freedByReconcile_iff`** -- when a worker that owes nothing any more takes a new chunk: revoked
    records are never deleted.
-/
import VoidOsMerger.Worker.Recovery
import VoidOsMerger.Base.Table

namespace VoidOsMerger

/-! ## 1. Writes and deletions -/

namespace WorkerRecoveryContext

variable (ctx : WorkerRecoveryContext)

theorem length_leases : ctx.leases.length = ctx.activeLeaseCount := by
  rw [leases, length_used (Int.ofNat_le.mpr ctx.countFits), Int.toNat_natCast]

theorem leases_getElem? {i : Nat} (hi : i < ctx.activeLeaseCount) :
    ctx.leases[i]? = ctx.activeLeases[i]? := by
  rw [leases, used, Int.toNat_natCast, List.getElem?_take_of_lt hi, Vector.getElem?_toList]

theorem leases_writeLease (i : Nat) (l : WorkerActiveLease) :
    (ctx.writeLease i l).leases = ctx.leases.set i l :=
  used_set i l

theorem leases_updateFirst (p : WorkerActiveLease → Bool)
    (f : WorkerActiveLease → WorkerActiveLease) :
    (ctx.updateFirst p f).leases = modifyFirst p f ctx.leases := by
  unfold updateFirst
  cases hfind : ctx.leases.findIdx? p with
  | none =>
    have hnone : ctx.leases.find? p = none :=
      List.find?_eq_none.mpr fun l hl => by simpa using List.findIdx?_eq_none_iff.mp hfind l hl
    rw [modifyFirst_of_none f hnone]
  | some i =>
    obtain ⟨l, hslot, hlease, -⟩ := used_findIdx hfind
    dsimp only
    rw [hslot]
    dsimp only
    rw [leases_writeLease, modifyFirst_eq_set f hfind hlease]

theorem leases_removeLease {i : Nat} (hi : i < ctx.activeLeaseCount) :
    (ctx.removeLease i).leases = ctx.leases.eraseIdx i := by
  unfold removeLease leases
  dsimp only
  by_cases hlast : i < ctx.activeLeaseCount - 1
  · rw [if_pos hlast]
    exact used_moveDown hi ctx.countFits
  · -- the last record: only the count changes
    obtain rfl : i = ctx.activeLeaseCount - 1 := by omega
    have hlen : ctx.activeLeases.toList.length = workerMaxActiveLeases := Vector.length_toList
    have hfits := ctx.countFits
    rw [if_neg hlast, used, used, Int.toNat_natCast, Int.toNat_natCast,
      List.eraseIdx_eq_take_drop_succ, List.take_take, List.drop_take, Nat.min_eq_left (Nat.sub_le _ 1)]
    have hnone : ctx.activeLeaseCount - (ctx.activeLeaseCount - 1 + 1) = 0 := by omega
    rw [hnone, List.take_zero, List.append_nil]

end WorkerRecoveryContext

/-- The record of a lease that has just been accepted. -/
def acceptedLease (leaseId chunkId : UInt64) (discardPolicy : Bool) : WorkerActiveLease where
  leaseId := leaseId
  chunkId := chunkId
  state := .running
  outputChecksum := zeroChecksum
  partialOutputPreserved := false
  policyDiscardOnCancel := discardPolicy

/-- Whether a lease is accepted does not depend on the lease. -/
def WorkerRecoveryContext.Open (ctx : WorkerRecoveryContext) : Prop :=
  ctx.isDraining = false ∧ ctx.leases.length < workerMaxActiveLeases

instance (ctx : WorkerRecoveryContext) : Decidable ctx.Open :=
  inferInstanceAs (Decidable (_ ∧ _))

/-- **An offer**: appended to the records in use while the worker is open, else refused. -/
theorem accept_cases (ctx : WorkerRecoveryContext) (leaseId chunkId : UInt64)
    (discardPolicy : Bool) :
    (ctx.Open ∧ ∃ ctx', vomWorkerRecoveryAcceptNewChunk ctx leaseId chunkId discardPolicy =
        (true, ctx') ∧ ctx'.isDraining = ctx.isDraining ∧
      ctx'.leases = ctx.leases ++ [acceptedLease leaseId chunkId discardPolicy]) ∨
    (¬ ctx.Open ∧ vomWorkerRecoveryAcceptNewChunk ctx leaseId chunkId discardPolicy = (false, ctx)) := by
  unfold vomWorkerRecoveryAcceptNewChunk WorkerRecoveryContext.Open
  rw [ctx.length_leases]
  cases hdrain : ctx.isDraining with
  | true => exact Or.inr ⟨fun h => Bool.noConfusion h.1, if_pos rfl⟩
  | false =>
    rw [if_neg Bool.false_ne_true]
    by_cases hfull : workerMaxActiveLeases ≤ ctx.activeLeaseCount
    · exact Or.inr ⟨fun h => Nat.not_lt.mpr hfull h.2, dif_pos hfull⟩
    · rw [dif_neg hfull]
      have hroom : ctx.activeLeaseCount < workerMaxActiveLeases := Nat.not_le.mp hfull
      exact Or.inl ⟨⟨rfl, hroom⟩, _, rfl, rfl,
        used_set_end _ (Int.natCast_nonneg _) (Int.ofNat_lt.mpr hroom)⟩

theorem accept_eq_true_iff (ctx : WorkerRecoveryContext) (leaseId chunkId : UInt64)
    (discardPolicy : Bool) :
    (vomWorkerRecoveryAcceptNewChunk ctx leaseId chunkId discardPolicy).1 = true ↔ ctx.Open := by
  rcases accept_cases ctx leaseId chunkId discardPolicy with ⟨hopen, ctx', e, -⟩ | ⟨hshut, e⟩
  · rw [e]
    exact iff_of_true rfl hopen
  · rw [e]
    exact iff_of_false Bool.false_ne_true hshut

/-! ## 2. Reconciliation -/

/-- What becomes of one record, by itself. -/
def reconcileRecord (authoritativeLeases : List UInt64) (l : WorkerActiveLease) :
    Option WorkerActiveLease :=
  if l.leaseId ∈ authoritativeLeases then
    some (if l.state = .completed then { l with state := .reconciled } else l)
  else match l.state with
    | .running =>
      some { l with state := .revoked, partialOutputPreserved := !l.policyDiscardOnCancel }
    | .revoked => some l
    | .completed | .reconciled => none

section Reconcile

variable (auth : List UInt64) {ctx : WorkerRecoveryContext}

/-- A record that a pass has treated stays as it is in the next reconciliation. -/
theorem reconcileRecord_settled {auth : List UInt64} {l l' : WorkerActiveLease} (h : reconcileRecord auth l = some l') :
    reconcileRecord auth l' = some l' := by
  unfold reconcileRecord at h
  split at h
  · rename_i hin
    obtain rfl := Option.some.inj h
    split
    · exact if_pos hin
    · rename_i hstate
      rw [reconcileRecord, if_pos hin, if_neg hstate]
  · rename_i hout
    split at h
    · obtain rfl := Option.some.inj h
      exact if_neg hout
    · rename_i hstate
      obtain rfl := Option.some.inj h
      rw [reconcileRecord, if_neg hout, hstate]
    · cases h
    · cases h

/-- **A pass at record `l`**: the record is replaced by what becomes of it, and the index stands
    behind it. -/
theorem reconcileStep_spec {done rest : List WorkerActiveLease} {l : WorkerActiveLease}
    (h : ctx.leases = done ++ l :: rest) :
    (reconcileStep auth ctx done.length l).1.leases =
        (done ++ (reconcileRecord auth l).toList) ++ rest ∧
      (reconcileStep auth ctx done.length l).2 =
        (done ++ (reconcileRecord auth l).toList).length := by
  have hwrite : ∀ l', (ctx.writeLease done.length l').leases = done ++ l' :: rest := by
    intro l'
    rw [ctx.leases_writeLease, h, List.set_append_right _ _ (Nat.le_refl _), Nat.sub_self]
    rfl
  have hremove : (ctx.removeLease done.length).leases = done ++ rest := by
    have hlt : done.length < ctx.activeLeaseCount := by
      rw [← ctx.length_leases, h, List.length_append, List.length_cons]
      omega
    rw [ctx.leases_removeLease hlt, h, List.eraseIdx_append_of_length_le (Nat.le_refl _),
      Nat.sub_self]
    rfl
  unfold reconcileRecord
  rcases reconcileStep_cases auth ctx done.length l with
    ⟨hin, e⟩ | ⟨hout, hstate, e⟩ | ⟨hout, hstate, e⟩ | ⟨hout, hrun, hrev, e⟩
  · rw [e, if_pos hin]
    refine ⟨?_, by simp⟩
    dsimp only
    split
    · rw [hwrite, Option.toList_some, List.append_assoc]
      rfl
    · rw [h, Option.toList_some, List.append_assoc]
      rfl
  · rw [e, if_neg hout, hstate]
    refine ⟨?_, by simp⟩
    rw [hwrite, Option.toList_some, List.append_assoc]
    rfl
  · rw [e, if_neg hout, hstate]
    refine ⟨?_, by simp⟩
    rw [h, Option.toList_some, List.append_assoc]
    rfl
  · have hgone : (match l.state with
        | .running => some { l with
            state := .revoked, partialOutputPreserved := !l.policyDiscardOnCancel }
        | .revoked => some l
        | .completed | .reconciled => none : Option WorkerActiveLease) = none := by
      split <;> simp_all
    rw [e, if_neg hout, hgone]
    refine ⟨?_, by simp⟩
    rw [hremove, Option.toList_none, List.append_nil]

/-- A pass over a record that is settled changes nothing. -/
theorem reconcileStep_settled {auth : List UInt64} {l : WorkerActiveLease} (h : reconcileRecord auth l = some l)
    (i : Nat) : reconcileStep auth ctx i l = (ctx, i + 1) := by
  have hstate : ∀ {l' : WorkerActiveLease}, some l' = some l → l'.state = l.state := fun e =>
    congrArg WorkerActiveLease.state (Option.some.inj e)
  unfold reconcileRecord at h
  rcases reconcileStep_cases auth ctx i l with
    ⟨hin, e⟩ | ⟨hout, hrun, -⟩ | ⟨-, -, e⟩ | ⟨hout, hrun, hrev, -⟩
  · rw [if_pos hin] at h
    rw [e, if_neg]
    intro hdone
    rw [if_pos hdone] at h
    exact WorkerChunkState.noConfusion ((hstate h).trans hdone)
  · rw [if_neg hout, hrun] at h
    exact WorkerChunkState.noConfusion ((hstate h).trans hrun)
  · exact e
  · rw [if_neg hout] at h
    split at h <;> simp_all

/-- The loop reads the record at its index. -/
theorem reconcileLoop_next {done rest : List WorkerActiveLease} {l : WorkerActiveLease}
    (h : ctx.leases = done ++ l :: rest) :
    reconcileLoop auth ctx done.length =
      reconcileLoop auth (reconcileStep auth ctx done.length l).1
        (reconcileStep auth ctx done.length l).2 := by
  have hlt : done.length < ctx.activeLeaseCount := by
    rw [← ctx.length_leases, h, List.length_append, List.length_cons]
    omega
  have hget : ctx.activeLeases[done.length]? = some l := by
    rw [← ctx.leases_getElem? hlt, h, List.getElem?_append_right (Nat.le_refl _), Nat.sub_self]
    rfl
  have hi : done.length < workerMaxActiveLeases := lt_of_lt_of_le hlt ctx.countFits
  have hl : ctx.activeLeases[done.length] = l :=
    Option.some.inj ((Vector.getElem?_eq_getElem hi).symm.trans hget)
  rw [reconcileLoop, dif_pos hlt]
  dsimp only
  rw [hl]

theorem reconcileLoop_end {done : List WorkerActiveLease} (h : ctx.leases = done) :
    reconcileLoop auth ctx done.length = ctx := by
  rw [reconcileLoop, dif_neg]
  rw [← ctx.length_leases, h]
  exact Nat.lt_irrefl _

/-- The rest of the loop, with `done` the records behind the index. -/
theorem reconcileLoop_leases : ∀ (rest done : List WorkerActiveLease) (ctx : WorkerRecoveryContext),
    ctx.leases = done ++ rest →
    (reconcileLoop auth ctx done.length).leases = done ++ rest.filterMap (reconcileRecord auth)
  | [], done, ctx, h => by
      rw [List.append_nil] at h
      rw [reconcileLoop_end auth h, h]
      simp
  | l :: rest, done, ctx, h => by
      obtain ⟨hleases, hindex⟩ := reconcileStep_spec auth h
      rw [reconcileLoop_next auth h, hindex, reconcileLoop_leases rest _ _ hleases, List.append_assoc,
        filterMap_cons_toList]

/-- A loop over settled records changes nothing. -/
theorem reconcileLoop_settled {auth : List UInt64} : ∀ (rest done : List WorkerActiveLease),
    ctx.leases = done ++ rest → (∀ l ∈ rest, reconcileRecord auth l = some l) →
    reconcileLoop auth ctx done.length = ctx
  | [], done, h, _ => by
      rw [List.append_nil] at h
      exact reconcileLoop_end auth h
  | l :: rest, done, h, hsettled => by
      have hassoc : ctx.leases = (done ++ [l]) ++ rest := by
        rw [h, List.append_assoc]
        rfl
      have ih := reconcileLoop_settled rest (done ++ [l]) hassoc
        fun x hx => hsettled x (List.mem_cons_of_mem _ hx)
      rw [List.length_append, List.length_singleton] at ih
      rw [reconcileLoop_next auth h, reconcileStep_settled (hsettled l List.mem_cons_self)]
      exact ih

theorem reconcileStep_flags (ctx : WorkerRecoveryContext) (i : Nat) (l : WorkerActiveLease) :
    (reconcileStep auth ctx i l).1.isDraining = ctx.isDraining ∧
      (reconcileStep auth ctx i l).1.isConnectedToMaster = ctx.isConnectedToMaster := by
  rcases reconcileStep_cases auth ctx i l with ⟨-, e⟩ | ⟨-, -, e⟩ | ⟨-, -, e⟩ | ⟨-, -, -, e⟩
  · rw [e]
    dsimp only
    split
    · exact ⟨rfl, rfl⟩
    · exact ⟨rfl, rfl⟩
  · rw [e]
    exact ⟨rfl, rfl⟩
  · rw [e]
    exact ⟨rfl, rfl⟩
  · rw [e]
    exact ⟨rfl, rfl⟩

theorem reconcileLoop_flags (ctx : WorkerRecoveryContext) (i : Nat) :
    (reconcileLoop auth ctx i).isDraining = ctx.isDraining ∧
      (reconcileLoop auth ctx i).isConnectedToMaster = ctx.isConnectedToMaster := by
  induction ctx, i using reconcileLoop.induct auth with
  | case1 ctx i hlt hi l ih =>
    obtain ⟨hdrain, hconn⟩ := reconcileStep_flags auth ctx i l
    rw [reconcileLoop, dif_pos hlt]
    exact ⟨ih.1.trans hdrain, ih.2.trans hconn⟩
  | case2 ctx i hge =>
    rw [reconcileLoop, dif_neg hge]
    exact ⟨rfl, rfl⟩

end Reconcile

/-- The records after a reconciliation. -/
theorem leases_reconcile (ctx : WorkerRecoveryContext) (auth : List UInt64) :
    (vomWorkerRecoveryReconnectReconcile ctx auth).leases =
      ctx.leases.filterMap (reconcileRecord auth) :=
  reconcileLoop_leases auth ctx.leases [] { ctx with isConnectedToMaster := true } rfl

/-- **What a reconciliation does**, for every table and list: each record is kept, turned or removed
    by itself, in the original order; nothing else changes but the connection flag; and a second
    reconciliation with the same list leaves the whole context as it is. -/
theorem reconcile_exact (ctx : WorkerRecoveryContext) (authoritativeLeases : List UInt64) :
    (vomWorkerRecoveryReconnectReconcile ctx authoritativeLeases).leases =
        ctx.leases.filterMap (reconcileRecord authoritativeLeases) ∧
      (vomWorkerRecoveryReconnectReconcile ctx authoritativeLeases).isDraining = ctx.isDraining ∧
      (vomWorkerRecoveryReconnectReconcile ctx authoritativeLeases).isConnectedToMaster = true ∧
      vomWorkerRecoveryReconnectReconcile
          (vomWorkerRecoveryReconnectReconcile ctx authoritativeLeases) authoritativeLeases =
        vomWorkerRecoveryReconnectReconcile ctx authoritativeLeases := by
  have hleases := leases_reconcile ctx authoritativeLeases
  obtain ⟨hdrain, hconn⟩ := reconcileLoop_flags authoritativeLeases
    { ctx with isConnectedToMaster := true } 0
  refine ⟨hleases, hdrain, hconn, ?_⟩
  generalize hs : vomWorkerRecoveryReconnectReconcile ctx authoritativeLeases = s at hleases
  have hconn' : { s with isConnectedToMaster := true } = s := by
    have hflag : s.isConnectedToMaster = true := hs ▸ hconn
    rw [← hflag]
  have hsettled : ∀ l ∈ s.leases, reconcileRecord authoritativeLeases l = some l := by
    intro l hl
    rw [hleases] at hl
    obtain ⟨l₀, -, hl₀⟩ := List.mem_filterMap.mp hl
    exact reconcileRecord_settled hl₀
  rw [vomWorkerRecoveryReconnectReconcile, hconn']
  exact reconcileLoop_settled s.leases [] rfl hsettled

/-! ## 3. Any call, on the records in use -/

/-- What a call makes of the records in use, when the worker is open for leases or not. -/
def WorkerRecoveryOp.effect (isOpen : Bool) (ls : List WorkerActiveLease) :
    WorkerRecoveryOp → List WorkerActiveLease
  | .acceptNewChunk leaseId chunkId discardPolicy =>
    if isOpen then ls ++ [acceptedLease leaseId chunkId discardPolicy] else ls
  | .handleRevocation leaseId =>
    modifyFirst (fun l => l.leaseId == leaseId) WorkerActiveLease.revoke ls
  | .reconnectReconcile auth => ls.filterMap (reconcileRecord auth)
  | .completeChunk leaseId (some checksum) =>
    modifyFirst (fun l => l.leaseId == leaseId && l.state == .running)
      (WorkerActiveLease.complete checksum) ls
  | .completeChunk _ none | .setDrain _ | .onDisconnect | .claimResult _ => ls

/-- **The array and its count behave like the list.** -/
theorem leases_next (ctx : WorkerRecoveryContext) (op : WorkerRecoveryOp) :
    (workerRecoveryMachine.next ctx op).leases = op.effect (decide ctx.Open) ctx.leases := by
  cases op with
  | acceptNewChunk leaseId chunkId discardPolicy =>
    show (vomWorkerRecoveryAcceptNewChunk ctx leaseId chunkId discardPolicy).2.leases = _
    rcases accept_cases ctx leaseId chunkId discardPolicy with ⟨hopen, ctx', e, -, hleases⟩ | ⟨hshut, e⟩
    · simp [e, hleases, WorkerRecoveryOp.effect, hopen]
    · simp [e, WorkerRecoveryOp.effect, hshut]
  | setDrain drainActive => rfl
  | handleRevocation leaseId => exact ctx.leases_updateFirst _ _
  | onDisconnect => rfl
  | reconnectReconcile auth => exact leases_reconcile ctx auth
  | completeChunk leaseId checksum =>
    cases checksum with
    | none => rfl
    | some checksum => exact ctx.leases_updateFirst _ _
  | claimResult leaseId => rfl

theorem reconcileRecord_leaseId {auth : List UInt64} {l l' : WorkerActiveLease}
    (h : reconcileRecord auth l = some l') : l'.leaseId = l.leaseId := by
  unfold reconcileRecord at h
  split at h
  · obtain rfl := Option.some.inj h
    split <;> rfl
  · split at h
    · obtain rfl := Option.some.inj h
      rfl
    · obtain rfl := Option.some.inj h
      rfl
    · cases h
    · cases h

/-- The ids left by a reconciliation are some of the ids, in order. -/
theorem ids_filterMap_sublist (auth : List UInt64) : ∀ ls : List WorkerActiveLease,
    ((ls.filterMap (reconcileRecord auth)).map (·.leaseId)).Sublist (ls.map (·.leaseId))
  | [] => List.Sublist.refl _
  | l :: ls => by
      have ih := ids_filterMap_sublist auth ls
      cases hl : reconcileRecord auth l with
      | none =>
        rw [List.filterMap_cons_none hl]
        exact ih.cons _
      | some l' =>
        rw [List.filterMap_cons_some hl, List.map_cons, List.map_cons, reconcileRecord_leaseId hl]
        exact ih.cons_cons _

/-! ## 4. A lease offered twice -/

/-- No two records of one lease. -/
def DistinctLeases (ctx : WorkerRecoveryContext) : Prop := (ctx.leases.map (·.leaseId)).Nodup

instance (ctx : WorkerRecoveryContext) : Decidable (DistinctLeases ctx) :=
  inferInstanceAs (Decidable (List.Nodup _))

/-- A lease that is accepted has no record yet. -/
def AcceptsFresh (ctx : WorkerRecoveryContext) : WorkerRecoveryOp → Prop
  | .acceptNewChunk leaseId _ _ => ctx.Open → leaseId ∉ ctx.leases.map (·.leaseId)
  | _ => True

theorem distinctLeases_next_iff {ctx : WorkerRecoveryContext} (h : DistinctLeases ctx)
    (op : WorkerRecoveryOp) :
    DistinctLeases (workerRecoveryMachine.next ctx op) ↔ AcceptsFresh ctx op := by
  unfold DistinctLeases at h ⊢
  rw [leases_next]
  cases op with
  | acceptNewChunk leaseId chunkId discardPolicy =>
    by_cases hopen : ctx.Open
    · simp [WorkerRecoveryOp.effect, AcceptsFresh, hopen, List.nodup_append, h, acceptedLease]
    · simp [WorkerRecoveryOp.effect, AcceptsFresh, hopen, h]
  | setDrain drainActive => exact iff_of_true h trivial
  | handleRevocation leaseId =>
    have hids := map_modifyFirst (fun l => l.leaseId == leaseId) WorkerActiveLease.revoke
      WorkerActiveLease.leaseId (fun _ => rfl) ctx.leases
    exact iff_of_true (hids ▸ h) trivial
  | onDisconnect => exact iff_of_true h trivial
  | reconnectReconcile auth => exact iff_of_true (h.sublist (ids_filterMap_sublist auth _)) trivial
  | completeChunk leaseId checksum =>
    cases checksum with
    | none => exact iff_of_true h trivial
    | some checksum =>
      have hids := map_modifyFirst (fun l => l.leaseId == leaseId && l.state == .running)
        (WorkerActiveLease.complete checksum) WorkerActiveLease.leaseId (fun _ => rfl) ctx.leases
      exact iff_of_true (hids ▸ h) trivial
  | claimResult leaseId => exact iff_of_true h trivial

/-- **When no lease is held twice**: all along a run exactly when no lease is accepted while a record
    of it is in the table. -/
theorem distinctLeases_iff (ops : List WorkerRecoveryOp) :
    (∀ pre, pre <+: ops → DistinctLeases (workerRecoveryMachine.run vomWorkerRecoveryInit pre)) ↔
      workerRecoveryMachine.Legal AcceptsFresh vomWorkerRecoveryInit ops := by
  have hinit : DistinctLeases vomWorkerRecoveryInit := by decide
  exact workerRecoveryMachine.always_iff_legal DistinctLeases
    (fun _ op h _ => distinctLeases_next_iff h op) (fun _ _ _ _ hnext => hnext) hinit hinit
    (workerRecoveryMachine.legal_true _ ops)

/-- **A redelivered assignment is taken twice.** -/
theorem redelivered_lease_doubled : ¬ ∀ ops : List WorkerRecoveryOp,
    DistinctLeases (workerRecoveryMachine.run vomWorkerRecoveryInit ops) := by
  intro h
  exact absurd (h [.acceptNewChunk 9001 101 true, .acceptNewChunk 9001 101 true])
    (by decide +kernel)

/-! ## 5. Records that are never deleted -/

/-- After a reconciliation with no lease left, a worker that is not draining takes any lease. -/
def FreedByReconcile (ctx : WorkerRecoveryContext) : Prop :=
  ctx.isDraining = false → ∀ (leaseId chunkId : UInt64) (discardPolicy : Bool),
    (vomWorkerRecoveryAcceptNewChunk (vomWorkerRecoveryReconnectReconcile ctx []) leaseId chunkId
      discardPolicy).1 = true

/-- The records a reconciliation with the empty list keeps. -/
def keptRecords (ctx : WorkerRecoveryContext) : Nat :=
  ctx.leases.countP fun l => l.state = .running ∨ l.state = .revoked

theorem length_reconcile_nil (ctx : WorkerRecoveryContext) :
    (vomWorkerRecoveryReconnectReconcile ctx []).leases.length = keptRecords ctx := by
  rw [leases_reconcile, List.length_filterMap_eq_countP, keptRecords]
  congr 1
  funext l
  unfold reconcileRecord
  rw [if_neg List.not_mem_nil]
  cases l.state <;> rfl

/-- **When a worker that owes nothing takes a lease**: exactly when fewer than 16 of its records were
    running or revoked. -/
theorem freedByReconcile_iff (ctx : WorkerRecoveryContext) :
    FreedByReconcile ctx ↔ (ctx.isDraining = false → keptRecords ctx < workerMaxActiveLeases) := by
  unfold FreedByReconcile
  refine imp_congr_right fun hdrain => ?_
  have hflag : (vomWorkerRecoveryReconnectReconcile ctx []).isDraining = false :=
    (reconcileLoop_flags [] { ctx with isConnectedToMaster := true } 0).1.trans hdrain
  simp only [accept_eq_true_iff, WorkerRecoveryContext.Open, hflag, length_reconcile_nil, true_and]
  exact ⟨fun h => h 0 0 false, fun h _ _ _ => h⟩

/-- Sixteen leases, each revoked after it was accepted. -/
def sixteenRevocations : List WorkerRecoveryOp :=
  (List.range 16).flatMap fun i =>
    [.acceptNewChunk (UInt64.ofNat i) 7 false, .handleRevocation (UInt64.ofNat i)]

/-- **Revoked leases use the worker up.** -/
theorem worker_used_up : ¬ ∀ ops : List WorkerRecoveryOp,
    FreedByReconcile (workerRecoveryMachine.run vomWorkerRecoveryInit ops) := by
  intro h
  have hfree := h sixteenRevocations (by decide +kernel) 0 0 false
  exact absurd hfree (by decide +kernel)

end VoidOsMerger
