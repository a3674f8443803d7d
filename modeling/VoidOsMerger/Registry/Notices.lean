/-
  File:      VoidOsMerger/Registry/Notices.lean
  Subject:   WHEN NO DEATH NOTICE IS LOST.

  A sweep marks every stale worker and reports the first `max_out` of them. A marked worker is not
  stale any more, so no later sweep reports it before it is heard from again.

  * `silent_next`, `notices_silent` -- a disconnected worker that is not heard from is not reported;
  * `movedBySweep_iff`, `noticesOf_sweep` -- what one sweep moves and what it reports;
  * **`no_lost_notice_iff`** -- every worker moved is reported exactly once, in a run in which no sweep
    finds more stale workers than it can report, and in no other.
-/
import VoidOsMerger.Registry.Steps

namespace VoidOsMerger

/-! ## 1. Notices -/

/-- How often a call reports a worker. -/
def RegistryAnswer.noticesOf (id : CStr) : RegistryAnswer → Nat
  | .ok _ => 0
  | .dead out => (out.map (·.str)).count id

/-- How often a run reports a worker. -/
def notices (id : CStr) (s : RegistrySnapshot) (ops : List RegistryOp) : Nat :=
  ((registryMachine.answers s ops).map (·.noticesOf id)).sum

/-- A join or a heartbeat of the worker. -/
def RegistryOp.hears (id : CStr) : RegistryOp → Bool
  | .join workerId _ _ _ => workerId = id
  | .heartbeat workerId _ _ => workerId = id
  | _ => false

def RegistryOp.isSweep : RegistryOp → Bool
  | .sweep _ _ _ => true
  | _ => false

/-- The status the registry finds for a worker. -/
def RegistrySnapshot.statusOf (s : RegistrySnapshot) (id : CStr) : Option WorkerRegStatus :=
  (s.entryOf id).map (·.status)

/-- The operation is a sweep that moves the worker to `REG_STATUS_DISCONNECTED`. -/
def MovedBySweep (s : RegistrySnapshot) (o : RegistryOp) (id : CStr) : Prop :=
  o.isSweep = true ∧ s.statusOf id ≠ some .disconnected ∧
    (registryMachine.next s o).statusOf id = some .disconnected

instance (s : RegistrySnapshot) (o : RegistryOp) (id : CStr) : Decidable (MovedBySweep s o id) :=
  inferInstanceAs (Decidable (_ ∧ _ ∧ _))

/-- Every worker that a sweep of the run moves is reported exactly once by the sweep and the
    operations after it, up to the worker's next join or heartbeat. -/
def NoLostNotice (s : RegistrySnapshot) (ops : List RegistryOp) : Prop :=
  ∀ pre o post, ops = pre ++ o :: post → ∀ id, MovedBySweep (registryMachine.run s pre) o id →
    notices id (registryMachine.run s pre) (o :: post.takeWhile fun p => !p.hears id) = 1

/-! ## 2. A disconnected worker that is not heard from -/

/-- Every record with the id is disconnected. -/
def Silent (id : CStr) (s : RegistrySnapshot) : Prop :=
  ∀ r ∈ s.records, r.key = id → r.status = .disconnected

/-- A step on a disconnected record, unless it is a join or heartbeat of the worker. -/
theorem RecordStep.silent {id : CStr} {o : RegistryOp} {r r' : WorkerRecord} (h : RecordStep o r r')
    (hnot : o.hears id = false) (hkey : r.key = id) (hst : r.status = .disconnected) :
    r'.status = .disconnected := by
  cases h with
  | rejoin hid => exact absurd (hid.symm.trans hkey) (of_decide_eq_false hnot)
  | heartbeat hid => exact absurd (hid.symm.trans hkey) (of_decide_eq_false hnot)
  | leave _ => rfl
  | marked _ => rfl
  | track _ => exact (r.track_keeps _).2.2.trans hst
  | untrack _ => exact hst
  | kept _ => exact hst

/-- **A disconnected worker stays so** under every operation that is not a join or heartbeat of it. -/
theorem silent_next {id : CStr} {s : RegistrySnapshot} (h : Silent id s) {o : RegistryOp}
    (hfit : o.IdFits) (hnot : o.hears id = false) : Silent id (registryMachine.next s o) := by
  intro r' hr' hkey
  rcases records_step s o with hstep | ⟨workerId, transport, caps, nowMs, rfl, -, hrecords⟩
  · obtain ⟨r, hr, hrr'⟩ := forall₂_exists_left hstep hr'
    rw [hrr'.keeps.1] at hkey
    exact hrr'.silent hnot hkey (h r hr hkey)
  · rw [hrecords] at hr'
    rcases List.mem_append.mp hr' with hold | hnew
    · exact h r' hold hkey
    · rw [List.mem_singleton.mp hnew] at hkey
      exact absurd ((NulBuf.copy_str hfit).symm.trans hkey) (of_decide_eq_false hnot)

/-! ## 3. What one sweep reports -/

/-- The workers a sweep finds stale. -/
def RegistrySnapshot.staleIds (s : RegistrySnapshot) (nowMs timeoutMs : UInt64) : List CStr :=
  (s.records.filter (·.stale nowMs timeoutMs)).map (·.key)

/-- The rows a sweep writes name the first of the stale workers. -/
theorem noticesOf_sweep (id : CStr) (s : RegistrySnapshot) (nowMs timeoutMs : UInt64) {maxOut : Int}
    (hmax : ¬ maxOut ≤ 0) :
    (registryMachine.answer s (.sweep nowMs timeoutMs maxOut)).noticesOf id =
      ((s.staleIds nowMs timeoutMs).take maxOut.toNat).count id := by
  show ((vomRegistrySweepStale s nowMs timeoutMs maxOut).2.map (·.str)).count id = _
  rw [sweepStale_out s nowMs timeoutMs hmax, List.map_map, RegistrySnapshot.staleIds, ← List.map_take]
  refine congrArg (List.count id) (List.map_congr_left fun r _ => ?_)
  exact NulBuf.copy_str_self r.workerId

theorem silent_not_stale {id : CStr} {s : RegistrySnapshot} (h : Silent id s)
    (nowMs timeoutMs : UInt64) : id ∉ s.staleIds nowMs timeoutMs := by
  intro hmem
  obtain ⟨r, hr, hkey⟩ := List.mem_map.mp hmem
  obtain ⟨hr, hstale⟩ := List.mem_filter.mp hr
  exact (of_decide_eq_true hstale).1 (h r hr hkey)

theorem silent_noticesOf {id : CStr} {s : RegistrySnapshot} (h : Silent id s) (o : RegistryOp) :
    (registryMachine.answer s o).noticesOf id = 0 := by
  cases o with
  | sweep nowMs timeoutMs maxOut =>
    by_cases hmax : maxOut ≤ 0
    · show ((vomRegistrySweepStale s nowMs timeoutMs maxOut).2.map (·.str)).count id = 0
      rw [sweepStale_nonpos s nowMs timeoutMs hmax]
      rfl
    · rw [noticesOf_sweep id s nowMs timeoutMs hmax]
      refine List.count_eq_zero.mpr fun hmem => ?_
      exact silent_not_stale h nowMs timeoutMs (List.mem_of_mem_take hmem)
  | _ => rfl

/-- **A disconnected worker is not reported** before it is heard from. -/
theorem notices_silent {id : CStr} : ∀ {ops : List RegistryOp} {s : RegistrySnapshot}, Silent id s →
    (∀ o ∈ ops, o.IdFits ∧ o.hears id = false) → notices id s ops = 0
  | [], _, _, _ => rfl
  | o :: ops, s, h, hops => by
      obtain ⟨hfit, hnot⟩ := hops o List.mem_cons_self
      have ih := notices_silent (silent_next h hfit hnot) fun x hx => hops x (List.mem_cons_of_mem _ hx)
      show (registryMachine.answer s o).noticesOf id + notices id (registryMachine.next s o) ops = 0
      rw [silent_noticesOf h, ih]

/-! ## 4. What one sweep moves -/

theorem statusOf_iff {s : RegistrySnapshot} (hids : (s.records.map (·.key)).Nodup) {id : CStr}
    {st : WorkerRegStatus} :
    s.statusOf id = some st ↔ ∃ r ∈ s.records, r.key = id ∧ r.status = st := by
  unfold RegistrySnapshot.statusOf RegistrySnapshot.entryOf
  rw [Option.map_map]
  constructor
  · intro h
    obtain ⟨r, hfind, hst⟩ := Option.map_eq_some_iff.mp h
    exact ⟨r, List.mem_of_find?_eq_some hfind, r.hasId_iff.mp (List.find?_some hfind), hst⟩
  · rintro ⟨r, hr, rfl, hst⟩
    have hfind := find?_key (p := (·.hasId r.key)) WorkerRecord.key hids hr fun x => x.hasId_iff
    rw [hfind, ← hst]
    rfl

theorem sweep_ids (s : RegistrySnapshot) (nowMs timeoutMs : UInt64) {maxOut : Int}
    (hmax : ¬ maxOut ≤ 0) :
    (vomRegistrySweepStale s nowMs timeoutMs maxOut).1.records.map (·.key) =
      s.records.map (·.key) := by
  rw [sweepStale_records s nowMs timeoutMs hmax, List.map_map]
  exact List.map_congr_left fun r _ => r.mark_key nowMs timeoutMs

/-- A sweep moves the stale workers. -/
theorem movedBySweep_iff {s : RegistrySnapshot} (hids : (s.records.map (·.key)).Nodup)
    (nowMs timeoutMs : UInt64) {maxOut : Int} (hmax : ¬ maxOut ≤ 0) (id : CStr) :
    MovedBySweep s (.sweep nowMs timeoutMs maxOut) id ↔ id ∈ s.staleIds nowMs timeoutMs := by
  have hids' : ((registryMachine.next s (.sweep nowMs timeoutMs maxOut)).records.map
      (·.key)).Nodup := by
    show ((vomRegistrySweepStale s nowMs timeoutMs maxOut).1.records.map (·.key)).Nodup
    rwa [sweep_ids s nowMs timeoutMs hmax]
  have hrecords : (registryMachine.next s (.sweep nowMs timeoutMs maxOut)).records =
      s.records.map (·.mark nowMs timeoutMs) := sweepStale_records s nowMs timeoutMs hmax
  unfold MovedBySweep
  rw [statusOf_iff hids', hrecords]
  constructor
  · rintro ⟨-, hbefore, r', hr', hkey, hst⟩
    obtain ⟨r, hr, rfl⟩ := List.mem_map.mp hr'
    rw [r.mark_key] at hkey
    have hne : r.status ≠ .disconnected := fun e => hbefore ((statusOf_iff hids).mpr ⟨r, hr, hkey, e⟩)
    refine List.mem_map.mpr ⟨r, List.mem_filter.mpr ⟨hr, ?_⟩, hkey⟩
    by_contra hstale
    rw [WorkerRecord.mark, if_neg hstale] at hst
    exact hne hst
  · intro hmem
    obtain ⟨r, hr, hkey⟩ := List.mem_map.mp hmem
    obtain ⟨hr, hstale⟩ := List.mem_filter.mp hr
    refine ⟨rfl, fun hbefore => ?_, r.mark nowMs timeoutMs, List.mem_map_of_mem hr, ?_, ?_⟩
    · obtain ⟨r₁, hr₁, hkey₁, hst₁⟩ := (statusOf_iff hids).mp hbefore
      obtain rfl := List.inj_on_of_nodup_map hids hr hr₁ (hkey.trans hkey₁.symm)
      exact (of_decide_eq_true hstale).1 hst₁
    · rwa [r.mark_key]
    · rw [WorkerRecord.mark, if_pos hstale]
      rfl

theorem not_moved_nonpos (s : RegistrySnapshot) (nowMs timeoutMs : UInt64) {maxOut : Int}
    (hmax : maxOut ≤ 0) (id : CStr) : ¬ MovedBySweep s (.sweep nowMs timeoutMs maxOut) id := by
  rintro ⟨-, hbefore, hafter⟩
  have hsame : registryMachine.next s (.sweep nowMs timeoutMs maxOut) = s :=
    congrArg Prod.fst (sweepStale_nonpos s nowMs timeoutMs hmax)
  rw [hsame] at hafter
  exact hbefore hafter

/-- A worker just moved is silent. -/
theorem MovedBySweep.silent {s : RegistrySnapshot} {o : RegistryOp} {id : CStr}
    (h : MovedBySweep s o id)
    (hids : ((registryMachine.next s o).records.map (·.key)).Nodup) :
    Silent id (registryMachine.next s o) := by
  intro r hr hkey
  obtain ⟨r₁, hr₁, hkey₁, hst₁⟩ := (statusOf_iff hids).mp h.2.2
  obtain rfl := List.inj_on_of_nodup_map hids hr hr₁ (hkey.trans hkey₁.symm)
  exact hst₁

/-! ## 5. Whole runs -/

/-- A sweep that can report all the workers it finds stale. -/
def ReportsAll (s : RegistrySnapshot) : RegistryOp → Prop
  | .sweep nowMs timeoutMs maxOut =>
    0 < maxOut → ((s.staleIds nowMs timeoutMs).length : Int) ≤ maxOut
  | _ => True

instance (s : RegistrySnapshot) : (o : RegistryOp) → Decidable (ReportsAll s o)
  | .sweep nowMs timeoutMs maxOut =>
    inferInstanceAs (Decidable (0 < maxOut → ((s.staleIds nowMs timeoutMs).length : Int) ≤ maxOut))
  | .join .. | .heartbeat .. | .leave .. | .track .. | .untrack .. => isTrue trivial

/-- A call reports every worker it moves exactly when it reports all. -/
theorem reported_iff {s : RegistrySnapshot} (hids : (s.records.map (·.key)).Nodup) (o : RegistryOp) :
    (∀ id, MovedBySweep s o id → (registryMachine.answer s o).noticesOf id = 1) ↔ ReportsAll s o := by
  cases o with
  | sweep nowMs timeoutMs maxOut =>
    by_cases hmax : maxOut ≤ 0
    · refine iff_of_true (fun id h => ?_) fun hpos => ?_
      · exact absurd h (not_moved_nonpos s nowMs timeoutMs hmax id)
      · exact absurd hpos (Int.not_lt.mpr hmax)
    · have hnodup : (s.staleIds nowMs timeoutMs).Nodup := hids.sublist (List.filter_sublist.map _)
      have hone : ∀ id, ((s.staleIds nowMs timeoutMs).take maxOut.toNat).count id = 1 ↔
          id ∈ (s.staleIds nowMs timeoutMs).take maxOut.toNat := fun id => by
        rw [(hnodup.sublist (List.take_sublist _ _)).count]
        simp
      have hlen : (s.staleIds nowMs timeoutMs).length ≤ maxOut.toNat ↔
          ReportsAll s (.sweep nowMs timeoutMs maxOut) := by
        unfold ReportsAll
        omega
      simp only [movedBySweep_iff hids nowMs timeoutMs hmax, noticesOf_sweep _ s nowMs timeoutMs hmax,
        hone]
      rw [subset_take_iff hnodup, hlen]
  | _ => exact iff_of_true (fun id h => by cases h.1) trivial

/-- **When no death notice is lost.** In a run from `vom_registry_create` in which the ids of joining
    workers have at most 63 bytes, every worker that a sweep moves to `REG_STATUS_DISCONNECTED` is
    reported exactly once before it is heard from again, exactly when no sweep of the run finds more
    stale workers than `max_out`. -/
theorem no_lost_notice_iff (ops : List RegistryOp) (hfit : ∀ o ∈ ops, o.IdFits) :
    NoLostNotice vomRegistryCreate ops ↔ registryMachine.Legal ReportsAll vomRegistryCreate ops := by
  rw [registryMachine.legal_iff_split]
  unfold NoLostNotice
  refine forall_congr' fun pre => forall_congr' fun o => forall_congr' fun post =>
    imp_congr_right fun hops => ?_
  have hpre : ∀ x ∈ pre ++ [o], x.IdFits := fun x hx => by
    refine hfit x (hops ▸ ?_)
    simp only [List.mem_append, List.mem_cons, List.not_mem_nil, or_false] at hx ⊢
    exact hx.imp_right Or.inl
  have hids := (registry_simulates pre fun x hx => hpre x (List.mem_append_left _ hx)).1.workers.nodup
  have hids' := (registry_simulates (pre ++ [o]) hpre).1.workers.nodup
  rw [registryMachine.run_append] at hids'
  rw [← reported_iff hids o]
  -- what follows the sweep adds nothing
  refine forall_congr' fun id => imp_congr_right fun hmoved => ?_
  have hrest : notices id (registryMachine.next (registryMachine.run vomRegistryCreate pre) o)
      (post.takeWhile fun p => !p.hears id) = 0 := by
    refine notices_silent (hmoved.silent hids') fun x hx => ⟨?_, ?_⟩
    · refine hfit x (hops ▸ ?_)
      exact List.mem_append_right _ (List.mem_cons_of_mem _ ((List.takeWhile_sublist _).subset hx))
    · simpa using List.mem_takeWhile_imp hx
  show (registryMachine.answer _ o).noticesOf id + notices id _ _ = 1 ↔ _
  rw [hrest, Nat.add_zero]

theorem no_lost_notice_iff_oneWorkerRun : NoLostNotice vomRegistryCreate oneWorkerRun :=
  (no_lost_notice_iff oneWorkerRun (by decide)).mpr (by decide +kernel)

/-- Two workers join and fall silent; two sweeps with one row each. -/
def twoWorkersOneRow : List RegistryOp :=
  [.join (CStr.upTo [97]) (CStr.upTo [117]) sampleCapabilities 10,
    .join (CStr.upTo [98]) (CStr.upTo [117]) sampleCapabilities 10, .sweep 500 100 1,
    .sweep 600 100 1]

/-- A sweep is given at least one row. -/
def RegistryOp.GivesRows : RegistryOp → Prop
  | .sweep _ _ maxOut => 0 < maxOut
  | _ => True

instance : (o : RegistryOp) → Decidable o.GivesRows
  | .sweep _ _ maxOut => inferInstanceAs (Decidable (0 < maxOut))
  | .join .. | .heartbeat .. | .leave .. | .track .. | .untrack .. => isTrue trivial

/-- **A notice is lost**: the second worker is marked by the first sweep and reported by none. -/
theorem second_notice_lost :
    ¬ ∀ ops : List RegistryOp, (∀ o ∈ ops, o.GivesRows) → NoLostNotice vomRegistryCreate ops := by
  intro h
  have hone := h twoWorkersOneRow (by decide) (twoWorkersOneRow.take 2) (.sweep 500 100 1)
    [.sweep 600 100 1] rfl (CStr.upTo [98]) (by decide +kernel)
  have hnone : notices (CStr.upTo [98])
      (registryMachine.run vomRegistryCreate (twoWorkersOneRow.take 2))
      [.sweep 500 100 1, .sweep 600 100 1] = 0 := by decide +kernel
  have hrest : ([.sweep 600 100 1] : List RegistryOp).takeWhile
      (fun p => !p.hears (CStr.upTo [98])) = [.sweep 600 100 1] := rfl
  rw [hrest, hnone] at hone
  cases hone

end VoidOsMerger
