/-
  File:      VoidOsMerger/Scheduler/Placement.lean
  Subject:   WHEN A RUNNABLE CHUNK IS PLACED ON THE BEST WORKER, with exact scores.

  The search for a worker is a search for the first greatest score above -1 (`bestWorker_eq`). A worker
  that passes the hard filters can have no score above that: without CPU units its ratio is undefined,
  and with more reserved than it has the ratio is negative.

  * `grantedBy`, `tickLoop_outLeases` -- the leases a tick writes, iteration by iteration;
  * `score_pos` -- a chunk that requires CPU is scored above zero by every worker that passes;
  * **`placedOnBest_iff`** -- a chunk examined by a tick of any run is placed as it should be exactly
    when some worker that passes has a score above -1, or none passes;
  * `passing_worker_not_used` -- a worker without CPU units and a chunk that requires none.
-/
import Mathlib.Tactic.Positivity
import VoidOsMerger.Scheduler.Tick
import VoidOsMerger.Scheduler.Balance
import VoidOsMerger.Base.ArgMax

namespace VoidOsMerger

/-! ## 1. The search -/

/-- The score of a worker that passes the hard filters. -/
def rating (chunk : VomChunkPlan) (w : VomWorkerView (Option ℚ)) : Option ℚ :=
  if evaluateHardFilters chunk w then calculateWorkerScore chunk w else none

/-- The loop over the workers is the pass for the first greatest rating. -/
theorem bestWorkerLoop_eq (chunk : VomChunkPlan) (ws : List (VomWorkerView (Option ℚ))) :
    ∀ (i : Nat) (best : Option Nat) (highest : ℚ),
      bestWorkerLoop chunk ws i best (some highest) = argMaxLoop (rating chunk) ws i best highest := by
  induction ws with
  | nil => exact fun _ _ _ => rfl
  | cons w ws ih =>
    intro i best highest
    unfold bestWorkerLoop argMaxLoop
    by_cases hpass : evaluateHardFilters chunk w = true
    · have hrate : rating chunk w = calculateWorkerScore chunk w := if_pos hpass
      rw [if_pos hpass, hrate]
      cases calculateWorkerScore chunk w with
      | none => exact ih _ _ _
      | some score =>
        by_cases hgt : highest < score
        · simpa [hgt] using ih _ _ _
        · simpa [hgt] using ih _ _ _
    · have hrate : rating chunk w = none := if_neg hpass
      rw [if_neg hpass, hrate]
      exact ih _ _ _

theorem bestWorker_eq (chunk : VomChunkPlan) (ws : List (VomWorkerView (Option ℚ))) :
    bestWorker chunk ws = argMax (rating chunk) (-1) ws := by
  have hstart : (DoubleArith.ofInt (-1) : Option ℚ) = some (-1) := by simp
  rw [bestWorker, hstart]
  exact bestWorkerLoop_eq chunk ws 0 none (-1)

/-! ## 2. The leases of a tick -/

section Leases

variable {F : Type} [DoubleArith F]

/-- The lease an iteration writes. -/
def grantedBy (now : UInt64) (chunk : VomChunkPlan) (st : TickState F) : Option VomAssignmentLease :=
  (raisedBy now chunk st).bind fun i =>
    (afterExpiry now chunk st).workers[i]?.map (newLease now chunk)

theorem tickChunk_outLeases (now : UInt64) {chunk : VomChunkPlan} {chunks : List VomChunkPlan}
    {st : TickState F} (hI : LeaseInv chunks st.leases) (hc : chunk ∈ chunks) :
    (tickChunk now chunk st).outLeases = st.outLeases ++ (grantedBy now chunk st).toList := by
  unfold grantedBy
  cases hr : raisedBy now chunk st with
  | none =>
    rw [tickChunk_raisedBy, hr, Option.elim_none, (afterExpiry_account now chunk st).2]
    exact (List.append_nil _).symm
  | some i =>
    obtain ⟨target, leases, hi, -, htick⟩ := tickChunk_raises now hI hc hr
    rw [htick, Option.bind_some, hi]
    rfl

theorem tickLoop_outLeases (now : UInt64) (maxLeases : Int) {chunks : List VomChunkPlan} :
    ∀ (rest : List VomChunkPlan) (st : TickState F), rest ⊆ chunks → LeaseInv chunks st.leases →
      (tickLoop now maxLeases rest st).outLeases = st.outLeases ++
        (tickVisits now maxLeases rest st).filterMap fun v => grantedBy now v.1 v.2
  | [], st, _, _ => (List.append_nil _).symm
  | c :: rest, st, hsub, hI => by
      unfold tickLoop tickVisits
      split
      · exact (List.append_nil _).symm
      · have hc : c ∈ chunks := hsub List.mem_cons_self
        rw [tickLoop_outLeases now maxLeases rest _ (fun x hx => hsub (List.mem_cons_of_mem _ hx))
          (tickChunk_leaseInv now hI hc), tickChunk_outLeases now hI hc, List.append_assoc,
          filterMap_cons_toList]

/-- The loop examines the chunks in the order of the table, up to the break. -/
theorem tickVisits_chunks (now : UInt64) (maxLeases : Int) :
    ∀ (rest : List VomChunkPlan) (st : TickState F),
      (tickVisits now maxLeases rest st).map (·.1) <+: rest
  | [], _ => List.prefix_refl _
  | c :: rest, st => by
      unfold tickVisits
      split
      · exact List.nil_prefix
      · exact List.cons_prefix_cons.mpr ⟨rfl, tickVisits_chunks now maxLeases rest _⟩

/-- **The leases a tick writes for a chunk it examines** are those of the iteration at that chunk. -/
theorem mem_out_iff {s : Scheduler F} (hI : LeaseInv s.chunks s.leases) (now : UInt64)
    (maxLeases : Int) {v : VomChunkPlan × TickState F}
    (hv : v ∈ tickVisits now maxLeases s.chunks (tickStart s)) {l : VomAssignmentLease} :
    l ∈ (vomSchedulerTick s now maxLeases).2 ∧ l.chunkId = v.1.chunkId ↔
      grantedBy now v.1 v.2 = some l := by
  have hout : (vomSchedulerTick s now maxLeases).2 =
      (tickVisits now maxLeases s.chunks (tickStart s)).filterMap fun v => grantedBy now v.1 v.2 :=
    tickLoop_outLeases now maxLeases s.chunks (tickStart s) (List.Subset.refl _) hI
  have hid : ∀ v : VomChunkPlan × TickState F, ∀ l, grantedBy now v.1 v.2 = some l →
      l.chunkId = v.1.chunkId := by
    intro v l hl
    obtain ⟨i, -, hl⟩ := Option.bind_eq_some_iff.mp hl
    obtain ⟨target, -, rfl⟩ := Option.map_eq_some_iff.mp hl
    rfl
  have hnodup : ((tickVisits now maxLeases s.chunks (tickStart s)).map fun v => v.1.chunkId).Nodup := by
    have hsub := ((tickVisits_chunks now maxLeases s.chunks (tickStart s)).sublist.map
      fun c : VomChunkPlan => c.chunkId)
    rw [List.map_map] at hsub
    exact hsub.nodup hI.chunksNodup
  rw [hout, List.mem_filterMap]
  constructor
  · rintro ⟨⟨v', hv', hl⟩, hlid⟩
    obtain rfl : v' = v :=
      List.inj_on_of_nodup_map hnodup hv' hv ((hid v' l hl).symm.trans hlid)
    exact hl
  · intro hl
    exact ⟨⟨v, hv, hl⟩, hid v l hl⟩

/-- A chunk without an unexpired lease goes through the search. -/
theorem raisedBy_open {now : UInt64} {chunk : VomChunkPlan} {st : TickState F}
    (hblocked : chunk.isBlocked = false)
    (hopen : ∀ l ∈ activeLeases st.leases, l.chunkId = chunk.chunkId → l.leaseExpiresMs < now) :
    raisedBy now chunk st = bestWorker chunk (afterExpiry now chunk st).workers := by
  have hfree : (expireLease now chunk st).2 = false := by
    by_contra hcovered
    obtain ⟨lease, hlease, hid, hfresh⟩ := expireLease_covered (eq_true_of_ne_false hcovered)
    exact hfresh (hopen lease hlease hid)
  simp [raisedBy, afterExpiry, hblocked, hfree]

end Leases

/-! ## 3. Scores -/

/-- A reliability of at least 0. -/
def VomWorkerView.Reliable (w : VomWorkerView (Option ℚ)) : Prop :=
  ∃ r, w.reliabilityScore = some r ∧ 0 ≤ r

/-- What the node's preference and the battery add to a score. -/
def scoreBonus (chunk : VomChunkPlan) (w : VomWorkerView (Option ℚ)) : ℚ :=
  (if uint32OfInt (atoi (w.workerId.tail 7)) = chunk.preferredNode then 20 else 0) +
    match w.batteryPct with
    | some pct => if 0 ≤ pct then pct / 100 * 10 else 10
    | none => 10

theorem scoreBonus_nonneg (chunk : VomChunkPlan) (w : VomWorkerView (Option ℚ)) :
    0 ≤ scoreBonus chunk w := by
  unfold scoreBonus
  refine add_nonneg ?_ ?_
  · split
    · norm_num
    · exact le_refl 0
  · split
    · split
      · positivity
      · norm_num
    · norm_num

/-- The score of a worker with CPU units: the ratio, the reliability and the bonus. -/
theorem score_eq (chunk : VomChunkPlan) {w : VomWorkerView (Option ℚ)} {r : ℚ}
    (hrel : w.reliabilityScore = some r) (hcpu : w.cpuUnits.toNat ≠ 0) :
    calculateWorkerScore chunk w =
      some (((w.cpuUnits.toNat : ℚ) - w.reservCpu.toNat) / w.cpuUnits.toNat * 40 + r * 30 +
        scoreBonus chunk w) := by
  have hcpu : (w.cpuUnits.toNat : ℚ) ≠ 0 := Nat.cast_ne_zero.mpr hcpu
  have hratio : DoubleArith.div
      (DoubleArith.ofInt ((w.cpuUnits.toNat : Int) - w.reservCpu.toNat) : Option ℚ)
      (DoubleArith.ofInt w.cpuUnits.toNat) =
        some (((w.cpuUnits.toNat : ℚ) - w.reservCpu.toNat) / w.cpuUnits.toNat) := by
    simpa using DoubleArith.div_exact ((w.cpuUnits.toNat : ℚ) - w.reservCpu.toNat) hcpu
  have hpercent : ∀ pct : ℚ, DoubleArith.div (some pct) (some 100) = some (pct / 100) :=
    fun pct => DoubleArith.div_exact pct (by norm_num)
  unfold calculateWorkerScore scoreBonus
  dsimp only
  rw [hratio, hrel]
  by_cases hnode : uint32OfInt (atoi (w.workerId.tail 7)) = chunk.preferredNode
  · cases w.batteryPct with
    | none => simp [hnode, add_assoc]
    | some pct =>
      by_cases hpct : 0 ≤ pct
      · simp [hnode, hpct, hpercent, add_assoc]
      · simp [hnode, hpct, add_assoc]
  · cases w.batteryPct with
    | none => simp [hnode]
    | some pct =>
      by_cases hpct : 0 ≤ pct
      · simp [hnode, hpct, hpercent]
      · simp [hnode, hpct]

/-- **A chunk that requires CPU** is scored above zero by every worker that passes. -/
theorem score_pos {chunk : VomChunkPlan} {w : VomWorkerView (Option ℚ)} (hrel : w.Reliable)
    (hpass : evaluateHardFilters chunk w = true) (hcpu : 0 < chunk.requiredCpu) :
    ∃ score, rating chunk w = some score ∧ 0 < score := by
  obtain ⟨r, hr, hr₀⟩ := hrel
  have hfits : chunk.requiredCpu.toNat ≤ w.cpuUnits.toNat - w.reservCpu.toNat :=
    demand_le_of_filters hpass .cpu
  have hdemand : 0 < chunk.requiredCpu.toNat := UInt8.lt_iff_toNat_lt.mp hcpu
  have hfree : (w.reservCpu.toNat : ℚ) < w.cpuUnits.toNat := Nat.cast_lt.mpr (by omega)
  have hunits : (0 : ℚ) < w.cpuUnits.toNat := Nat.cast_pos.mpr (by omega)
  have hrate : rating chunk w = calculateWorkerScore chunk w := if_pos hpass
  refine ⟨_, hrate.trans (score_eq chunk hr (by omega)), ?_⟩
  have hratio : 0 < ((w.cpuUnits.toNat : ℚ) - w.reservCpu.toNat) / w.cpuUnits.toNat :=
    div_pos (sub_pos.mpr hfree) hunits
  have hbonus := scoreBonus_nonneg chunk w
  positivity

/-! ## 4. Reliability through a tick -/

theorem Expires.reliable {now : UInt64} {chunk : VomChunkPlan} {st st' : TickState (Option ℚ)}
    (h : Expires now chunk st st') (hrel : ∀ w ∈ st.workers, w.Reliable) :
    ∀ w ∈ st'.workers, w.Reliable := by
  obtain ⟨lease, -, -, rfl⟩ := h
  refine (forall_mem_modifyFirst hrel).mpr fun w hw => ?_
  exact hrel w (List.mem_of_find?_eq_some hw)

theorem Assigns.reliable {now : UInt64} {chunk : VomChunkPlan} {chunks : List VomChunkPlan}
    {st st' : TickState (Option ℚ)} (h : Assigns now chunk st st') (hI : LeaseInv chunks st.leases)
    (hc : chunk ∈ chunks) (hrel : ∀ w ∈ st.workers, w.Reliable) : ∀ w ∈ st'.workers, w.Reliable := by
  obtain ⟨i, target, leases, hi, -, -, rfl⟩ := h.stored hI hc
  intro w hw
  rcases List.mem_or_eq_of_mem_set hw with hw | rfl
  · exact hrel w hw
  · exact hrel target (List.mem_of_getElem? hi)

theorem reliable_afterExpiry {now : UInt64} {chunk : VomChunkPlan} {st : TickState (Option ℚ)}
    (hrel : ∀ w ∈ st.workers, w.Reliable) :
    ∀ w ∈ (afterExpiry now chunk st).workers, w.Reliable := by
  unfold afterExpiry
  split
  · exact hrel
  · rcases expireLease_cases now chunk st with ⟨he, -⟩ | ⟨st', he, hexp⟩ | he
    · rw [he]
      exact hrel
    · rw [he]
      exact hexp.reliable hrel
    · rw [he]
      exact hrel

/-! ## 5. Placement -/

/-- Among the leases `out` of a tick the chunk has one exactly when some worker passes the filters,
    and that one names the first worker with the highest score of those that pass. -/
structure PlacedOnBest (now : UInt64) (chunk : VomChunkPlan) (ws : List (VomWorkerView (Option ℚ)))
    (out : List VomAssignmentLease) : Prop where
  dispatched : (∃ l ∈ out, l.chunkId = chunk.chunkId) ↔ ∃ w ∈ ws, evaluateHardFilters chunk w = true
  best : ∀ l ∈ out, l.chunkId = chunk.chunkId → ∃ i target score, ws[i]? = some target ∧
    FirstMax (rating chunk) ws i score ∧ l = newLease now chunk target

/-- If a worker passes the filters, one that does has a score above -1. -/
def SomeScoreCounts (chunk : VomChunkPlan) (ws : List (VomWorkerView (Option ℚ))) : Prop :=
  (∃ w ∈ ws, evaluateHardFilters chunk w = true) →
    ∃ w ∈ ws, evaluateHardFilters chunk w = true ∧
      ∃ score, calculateWorkerScore chunk w = some score ∧ -1 < score

theorem rating_eq_some_iff {chunk : VomChunkPlan} {w : VomWorkerView (Option ℚ)} {score : ℚ} :
    rating chunk w = some score ↔
      evaluateHardFilters chunk w = true ∧ calculateWorkerScore chunk w = some score := by
  unfold rating
  split
  · simp [*]
  · simp [*]

/-- **One examined chunk.** -/
theorem placedOnBest_visit_iff {now : UInt64} {chunk : VomChunkPlan} {st : TickState (Option ℚ)}
    {out : List VomAssignmentLease}
    (hout : ∀ l, l ∈ out ∧ l.chunkId = chunk.chunkId ↔ grantedBy now chunk st = some l)
    (hblocked : chunk.isBlocked = false)
    (hopen : ∀ l ∈ activeLeases st.leases, l.chunkId = chunk.chunkId → l.leaseExpiresMs < now) :
    PlacedOnBest now chunk (afterExpiry now chunk st).workers out ↔
      SomeScoreCounts chunk (afterExpiry now chunk st).workers := by
  have hraise := raisedBy_open hblocked hopen
  rw [bestWorker_eq] at hraise
  cases hbest : argMax (rating chunk) (-1) (afterExpiry now chunk st).workers with
  | none =>
    have hnone : ∀ l, ¬ (l ∈ out ∧ l.chunkId = chunk.chunkId) := by
      intro l hl
      have hgrant := (hout l).mp hl
      rw [grantedBy, hraise, hbest] at hgrant
      cases hgrant
    have hlow := (argMax_eq_none_iff (rating chunk)).mp hbest
    constructor
    · rintro h hpass
      obtain ⟨l, hl, hid⟩ := h.dispatched.mpr hpass
      exact absurd ⟨hl, hid⟩ (hnone l)
    · intro h
      refine ⟨iff_of_false (fun ⟨l, hl, hid⟩ => hnone l ⟨hl, hid⟩) fun hpass => ?_,
        fun l hl hid => absurd ⟨hl, hid⟩ (hnone l)⟩
      obtain ⟨w, hw, hfilter, score, hscore, hgt⟩ := h hpass
      exact absurd (hlow w hw score (rating_eq_some_iff.mpr ⟨hfilter, hscore⟩)) (not_le.mpr hgt)
  | some i =>
    obtain ⟨score, hgt, hmax⟩ := firstMax_of_argMax (rating chunk) hbest
    obtain ⟨target, hi, hrate⟩ := hmax.attained
    have htarget := List.mem_of_getElem? hi
    obtain ⟨hfilter, hscore⟩ := rating_eq_some_iff.mp hrate
    have hgrant : grantedBy now chunk st = some (newLease now chunk target) := by
      rw [grantedBy, hraise, hbest, Option.bind_some, hi]
      rfl
    refine iff_of_true ⟨?_, fun l hl hid => ⟨i, target, score, hi, hmax, ?_⟩⟩
      fun _ => ⟨target, htarget, hfilter, score, hscore, hgt⟩
    · obtain ⟨hl, hid⟩ := (hout _).mpr hgrant
      exact iff_of_true ⟨_, hl, hid⟩ ⟨target, htarget, hfilter⟩
    · exact (Option.some.inj (hgrant.symm.trans ((hout l).mp ⟨hl, hid⟩))).symm

/-- **When a runnable chunk is placed on the best worker.** In every reachable state whose workers
    have a reliability of at least 0, for every chunk a tick examines that is neither blocked nor
    covered by an unexpired lease: it is dispatched exactly when a worker passes the filters, and then
    to the first one with the highest score, exactly when one of the workers that pass has a score
    above -1 or none passes; and so it is for every chunk that requires CPU. -/
theorem placedOnBest_iff (ops : List (SchedulerOp (Option ℚ))) (now : UInt64) (maxLeases : Int)
    (hrel : ∀ w ∈ (schedulerMachine.run vomSchedulerInit ops).workers, w.Reliable) :
    let s := schedulerMachine.run vomSchedulerInit ops
    ∀ v ∈ tickVisits now maxLeases s.chunks (tickStart s), v.1.isBlocked = false →
      (¬ ∃ l ∈ activeLeases v.2.leases, l.chunkId = v.1.chunkId ∧ now ≤ l.leaseExpiresMs) →
      let ws := (afterExpiry now v.1 v.2).workers
      let out := (vomSchedulerTick s now maxLeases).2
      (PlacedOnBest now v.1 ws out ↔ SomeScoreCounts v.1 ws) ∧
      (0 < v.1.requiredCpu → PlacedOnBest now v.1 ws out) := by
  intro s v hv hblocked hcovered ws out
  have hI : LeaseInv s.chunks s.leases := leaseInv_run ops
  have hopen : ∀ l ∈ activeLeases v.2.leases, l.chunkId = v.1.chunkId → l.leaseExpiresMs < now :=
    fun l hl hid => UInt64.not_le.mp fun hle => hcovered ⟨l, hl, hid, hle⟩
  have hiff := placedOnBest_visit_iff (fun l => mem_out_iff hI now maxLeases hv) hblocked hopen
  refine ⟨hiff, fun hcpu => hiff.mpr ?_⟩
  rintro ⟨w, hw, hfilter⟩
  have hstep : ∀ c ∈ s.chunks, ∀ st : TickState (Option ℚ), LeaseInv s.chunks st.leases →
      (∀ w ∈ st.workers, w.Reliable) → ∀ w ∈ (tickChunk now c st).workers, w.Reliable :=
    fun c hc st hI hP => (tickChunk_rule now hc (fun _ _ _ hP hE => hE.reliable hP)
      (fun _ _ hI hP hA => hA.reliable hI hc hP) hI hP).2
  obtain ⟨-, -, hreliable⟩ := tickVisits_invariant now maxLeases hstep s.chunks (tickStart s)
    (List.Subset.refl _) hI hrel v hv
  obtain ⟨score, hrate, hpos⟩ := score_pos (reliable_afterExpiry hreliable w hw) hfilter hcpu
  obtain ⟨-, hscore⟩ := rating_eq_some_iff.mp hrate
  exact ⟨w, hw, hfilter, score, hscore, lt_trans (by norm_num) hpos⟩

/-- One worker with this many CPU units, and a chunk that requires `cpu` of them. -/
def unitsRun (units cpu : UInt8) : List (SchedulerOp (Option ℚ)) :=
  [.registerWorker (some { workerW1 with cpuUnits := units }),
    .submitReadyChunk (some (chunkPlan 5001 cpu))]

theorem unitsRun_reliable (units cpu : UInt8) :
    ∀ w ∈ (schedulerMachine.run vomSchedulerInit (unitsRun units cpu)).workers, w.Reliable := by
  have hworkers : (schedulerMachine.run vomSchedulerInit (unitsRun units cpu)).workers =
      [{ workerW1 with cpuUnits := units }] := rfl
  intro w hw
  rw [hworkers, List.mem_singleton] at hw
  exact ⟨1, congrArg VomWorkerView.reliabilityScore hw, by norm_num⟩

theorem chunk_placed_on_best :
    ∃ v ∈ tickVisits 1000 10 (schedulerMachine.run vomSchedulerInit (unitsRun 4 2)).chunks
        (tickStart (schedulerMachine.run vomSchedulerInit (unitsRun 4 2))),
      PlacedOnBest 1000 v.1 (afterExpiry 1000 v.1 v.2).workers
        (vomSchedulerTick (schedulerMachine.run vomSchedulerInit (unitsRun 4 2)) 1000 10).2 := by
  refine ⟨(chunkPlan 5001 2, tickStart (schedulerMachine.run vomSchedulerInit (unitsRun 4 2))),
    by decide +kernel, ?_⟩
  exact (placedOnBest_iff (unitsRun 4 2) 1000 10 (unitsRun_reliable 4 2) _ (by decide +kernel)
    rfl (by decide +kernel)).2 (by decide +kernel)

/-- **A worker that passes is not used**: it has no CPU units, and the chunk requires none. -/
theorem passing_worker_not_used : ¬ ∀ (ops : List (SchedulerOp (Option ℚ))) (now : UInt64)
    (maxLeases : Int),
    (∀ w ∈ (schedulerMachine.run vomSchedulerInit ops).workers, w.Reliable) →
    let s := schedulerMachine.run vomSchedulerInit ops
    ∀ v ∈ tickVisits now maxLeases s.chunks (tickStart s), v.1.isBlocked = false →
      (¬ ∃ l ∈ activeLeases v.2.leases, l.chunkId = v.1.chunkId ∧ now ≤ l.leaseExpiresMs) →
      PlacedOnBest now v.1 (afterExpiry now v.1 v.2).workers
        (vomSchedulerTick s now maxLeases).2 := by
  intro h
  have hplaced := h (unitsRun 0 0) 1000 10 (unitsRun_reliable 0 0)
    (chunkPlan 5001 0, tickStart (schedulerMachine.run vomSchedulerInit (unitsRun 0 0)))
    (by decide +kernel) rfl (by decide +kernel)
  have hleases : ∃ l ∈ (vomSchedulerTick (schedulerMachine.run vomSchedulerInit (unitsRun 0 0))
      1000 10).2, l.chunkId = (chunkPlan 5001 0).chunkId := hplaced.dispatched.mpr (by decide +kernel)
  exact absurd hleases (by decide +kernel)

end VoidOsMerger
