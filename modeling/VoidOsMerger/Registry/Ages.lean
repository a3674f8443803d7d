/-
  File:      VoidOsMerger/Registry/Ages.lean
  Subject:   WHOM A SWEEP TAKES FOR DEAD.

  `vom_registry_sweep_stale` computes the age of a worker as a difference of 64-bit numbers. A worker
  that was last seen later than `now_ms` gets an age just below `2 ^ 64`.

  * `stale_iff` -- the condition of the source, over natural numbers: overdue, or seen ahead of the
    sweep by little enough that the age wraps past the timeout;
  * **`sweep_overdue_iff`** -- a sweep disconnects only overdue workers exactly when it is given no row
    or no connected worker is such a one;
  * **`ordered_times_sweepsOverdue`** -- and so it does all along a run whose times are in order.
-/
import VoidOsMerger.Registry.Steps

namespace VoidOsMerger

/-! ## 1. Ages -/

/-- Last seen more than `timeout_ms` before `now_ms`. -/
def WorkerRecord.Overdue (nowMs timeoutMs : UInt64) (r : WorkerRecord) : Prop :=
  r.lastSeenMs ≤ nowMs ∧ timeoutMs.toNat < nowMs.toNat - r.lastSeenMs.toNat

/-- Last seen after `now_ms`, and the wrapped age exceeds `timeout_ms`. -/
def WorkerRecord.WrapsPast (nowMs timeoutMs : UInt64) (r : WorkerRecord) : Prop :=
  nowMs < r.lastSeenMs ∧ timeoutMs.toNat < 2 ^ 64 - (r.lastSeenMs.toNat - nowMs.toNat)

theorem WorkerRecord.WrapsPast.not_overdue {nowMs timeoutMs : UInt64} {r : WorkerRecord}
    (h : r.WrapsPast nowMs timeoutMs) : ¬ r.Overdue nowMs timeoutMs :=
  fun hover => UInt64.not_le.mpr h.1 hover.1

theorem age_gt_iff (nowMs timeoutMs : UInt64) (r : WorkerRecord) :
    nowMs - r.lastSeenMs > timeoutMs ↔ r.Overdue nowMs timeoutMs ∨ r.WrapsPast nowMs timeoutMs := by
  have hnow := nowMs.toNat_lt
  have hseen := r.lastSeenMs.toNat_lt
  unfold WorkerRecord.Overdue WorkerRecord.WrapsPast
  rw [gt_iff_lt, UInt64.lt_iff_toNat_lt, UInt64.lt_iff_toNat_lt, UInt64.le_iff_toNat_le,
    UInt64.toNat_sub]
  by_cases hle : r.lastSeenMs.toNat ≤ nowMs.toNat
  · have hage : (2 ^ 64 - r.lastSeenMs.toNat + nowMs.toNat) % 2 ^ 64 =
        nowMs.toNat - r.lastSeenMs.toNat := by omega
    rw [hage]
    omega
  · have hage : (2 ^ 64 - r.lastSeenMs.toNat + nowMs.toNat) % 2 ^ 64 =
        2 ^ 64 - (r.lastSeenMs.toNat - nowMs.toNat) := by omega
    rw [hage]
    omega

/-- **The condition of the sweep.** -/
theorem stale_iff (nowMs timeoutMs : UInt64) (r : WorkerRecord) :
    r.stale nowMs timeoutMs = true ↔
      r.status ≠ .disconnected ∧ (r.Overdue nowMs timeoutMs ∨ r.WrapsPast nowMs timeoutMs) := by
  unfold WorkerRecord.stale
  rw [decide_eq_true_iff, age_gt_iff]

/-! ## 2. One sweep -/

/-- Every worker the sweep moves to `REG_STATUS_DISCONNECTED` is overdue. -/
def SweepsOverdue (s : RegistrySnapshot) (nowMs timeoutMs : UInt64) (maxOut : Int) : Prop :=
  ∀ (i : Nat) (r r' : WorkerRecord), s.records[i]? = some r →
    (vomRegistrySweepStale s nowMs timeoutMs maxOut).1.records[i]? = some r' →
    r.status ≠ .disconnected → r'.status = .disconnected → r.Overdue nowMs timeoutMs

theorem sweepsOverdue_iff_stale (s : RegistrySnapshot) (nowMs timeoutMs : UInt64) (maxOut : Int) :
    SweepsOverdue s nowMs timeoutMs maxOut ↔
      maxOut ≤ 0 ∨ ∀ r ∈ s.records, r.stale nowMs timeoutMs = true → r.Overdue nowMs timeoutMs := by
  unfold SweepsOverdue
  by_cases hmax : maxOut ≤ 0
  · rw [sweepStale_nonpos s nowMs timeoutMs hmax]
    refine iff_of_true (fun i r r' hr hr' hbefore hafter => ?_) (Or.inl hmax)
    obtain rfl := Option.some.inj (hr.symm.trans hr')
    exact absurd hafter hbefore
  · rw [sweepStale_records s nowMs timeoutMs hmax, or_iff_right hmax]
    constructor
    · intro h r hr hstale
      obtain ⟨i, hi⟩ := List.mem_iff_getElem?.mp hr
      have hmark : r.mark nowMs timeoutMs = r.disconnect := if_pos hstale
      refine h i r r.disconnect hi ?_ ((stale_iff nowMs timeoutMs r).mp hstale).1 rfl
      rw [List.getElem?_map, hi, Option.map_some, hmark]
    · intro h i r r' hr hr' hbefore hafter
      rw [List.getElem?_map, hr, Option.map_some, Option.some.injEq] at hr'
      have hstale : r.stale nowMs timeoutMs = true := by
        by_contra hfresh
        rw [← hr', WorkerRecord.mark, if_neg hfresh] at hafter
        exact hbefore hafter
      exact h r (List.mem_of_getElem? hr) hstale

/-- **When a sweep disconnects overdue workers only**: when it is given no row, or every connected
    worker seen after `now_ms` is so by at least `2 ^ 64 - timeout_ms`. -/
theorem sweep_overdue_iff (s : RegistrySnapshot) (nowMs timeoutMs : UInt64) (maxOut : Int) :
    SweepsOverdue s nowMs timeoutMs maxOut ↔
      maxOut ≤ 0 ∨ ∀ r ∈ s.records, r.status ≠ .disconnected → nowMs < r.lastSeenMs →
        2 ^ 64 - (r.lastSeenMs.toNat - nowMs.toNat) ≤ timeoutMs.toNat := by
  rw [sweepsOverdue_iff_stale]
  refine or_congr_right (forall_congr' fun r => imp_congr_right fun _ => ?_)
  rw [stale_iff]
  constructor
  · intro h hstatus hahead
    by_contra hwraps
    have hpast : r.WrapsPast nowMs timeoutMs := ⟨hahead, Nat.lt_of_not_le hwraps⟩
    exact hpast.not_overdue (h ⟨hstatus, Or.inr hpast⟩)
  · intro h hstale
    rcases hstale.2 with hover | hpast
    · exact hover
    · exact absurd (h hstale.1 hpast.1) (Nat.not_le.mpr hpast.2)

/-- **A worker just heard from is taken for dead**: it joins at 1000, and a sweep that took its time
    one millisecond earlier disconnects it, with a timeout of five seconds. -/
theorem early_sweep_disconnects :
    ¬ SweepsOverdue (registryMachine.run vomRegistryCreate
      [.join (CStr.upTo [97]) (CStr.upTo [117]) sampleCapabilities 1000]) 999 5000 1 := by
  intro h
  have hover := h 0 _ _ rfl rfl (by decide) (by decide)
  exact absurd hover.1 (by decide)

/-! ## 3. Times in order -/

/-- The time an operation is given. -/
def RegistryOp.time : RegistryOp → Option UInt64
  | .join _ _ _ nowMs => some nowMs
  | .heartbeat _ _ nowMs => some nowMs
  | .sweep nowMs _ _ => some nowMs
  | .leave _ | .track _ _ | .untrack _ _ => none

theorem RecordStep.seen {o : RegistryOp} {r r' : WorkerRecord} (h : RecordStep o r r') :
    r'.lastSeenMs = r.lastSeenMs ∨ o.time = some r'.lastSeenMs := by
  cases h with
  | rejoin _ => exact Or.inr rfl
  | heartbeat _ => exact Or.inr rfl
  | track _ => exact Or.inl (r.track_keeps _).2.1
  | _ => exact Or.inl rfl

/-- Every worker was last seen at the time of some operation of the run. -/
theorem lastSeen_mem_times (ops : List RegistryOp) :
    ∀ r ∈ (registryMachine.run vomRegistryCreate ops).records,
      r.lastSeenMs ∈ ops.filterMap (·.time) := by
  induction ops using List.reverseRecOn with
  | nil => exact fun r hr => absurd hr List.not_mem_nil
  | append_singleton ops o ih =>
    intro r' hr'
    rw [registryMachine.run_append] at hr'
    rw [List.filterMap_append, List.mem_append]
    rcases records_step (registryMachine.run vomRegistryCreate ops) o with
      hstep | ⟨workerId, transport, caps, nowMs, rfl, -, hrecords⟩
    · obtain ⟨r, hr, hrr'⟩ := forall₂_exists_left hstep hr'
      rcases hrr'.seen with hsame | htime
      · exact Or.inl (hsame ▸ ih r hr)
      · exact Or.inr (List.mem_filterMap.mpr ⟨o, List.mem_singleton_self o, htime⟩)
    · have hr' := hrecords ▸ hr'
      rcases List.mem_append.mp hr' with hr | hr
      · exact Or.inl (ih r' hr)
      · rw [List.mem_singleton.mp hr]
        exact Or.inr (List.mem_singleton_self _)

/-- **In a run whose times are in order every sweep disconnects overdue workers only.** -/
theorem ordered_times_sweepsOverdue {ops : List RegistryOp}
    (hordered : (ops.filterMap (·.time)).Pairwise (· ≤ ·)) {pre post : List RegistryOp}
    {nowMs timeoutMs : UInt64} {maxOut : Int}
    (hops : ops = pre ++ .sweep nowMs timeoutMs maxOut :: post) :
    SweepsOverdue (registryMachine.run vomRegistryCreate pre) nowMs timeoutMs maxOut := by
  subst hops
  rw [List.filterMap_append, List.pairwise_append] at hordered
  refine (sweepsOverdue_iff_stale _ nowMs timeoutMs maxOut).mpr (Or.inr fun r hr hstale => ?_)
  have hseen : r.lastSeenMs ≤ nowMs :=
    hordered.2.2 _ (lastSeen_mem_times pre r hr) nowMs List.mem_cons_self
  rcases ((stale_iff nowMs timeoutMs r).mp hstale).2 with hover | hpast
  · exact hover
  · exact absurd hseen (UInt64.not_le.mpr hpast.1)

end VoidOsMerger
