/-
  File:      VoidOsMerger/Scheduler/Exclusive.lean
  Subject:   HOW LONG A DISPATCHED LEASE EXCLUDES OTHERS, AND WHEN TICKS STOP DOING ANYTHING.

  * `spared_step`, `spared_run` -- a lease stays active through every operation that is neither a
    release of its chunk nor a tick after its time;
  * **`lease_is_exclusive`** -- until such an operation no tick dispatches the chunk again;
  * `ChunkSettled` -- no chunk is waiting for a worker that could take it;
  * **`tick_settles`** -- a tick with room for all chunks that finds no lease past its time leaves nothing
    to do for the next tick, whenever it comes before a lease runs out.
-/
import VoidOsMerger.Scheduler.Expiry
import VoidOsMerger.Scheduler.Placement

namespace VoidOsMerger

/-! ## 1. A lease that is not past its time -/

section Spared

variable {F : Type} [DoubleArith F]

/-- The iteration at a chunk with a live lease does nothing. -/
theorem tickChunk_covered {now : UInt64} {chunk : VomChunkPlan} {chunks : List VomChunkPlan}
    {st : TickState F} (hI : LeaseInv chunks st.leases) {l : VomAssignmentLease}
    (hl : l ∈ activeLeases st.leases) (hid : l.chunkId = chunk.chunkId) (hfresh : ¬ l.Stale now) :
    tickChunk now chunk st = st := by
  have hfind : st.leases.find? (leaseOf chunk.chunkId) = some l := by
    cases hf : st.leases.find? (leaseOf chunk.chunkId) with
    | none => exact absurd (List.mem_map.mpr ⟨l, hl, hid⟩) (find_leaseOf_none.mp hf)
    | some l' =>
      obtain ⟨hid', hactive⟩ := leaseOf_iff.mp (List.find?_some hf)
      have hl' := mem_activeLeases.mpr ⟨List.mem_of_find?_eq_some hf, hactive⟩
      rw [List.inj_on_of_nodup_map hI.activeNodup hl' hl (hid'.trans hid.symm)]
  have hexpire : expireLease now chunk st = (st, true) := by
    unfold expireLease
    rw [hfind]
    exact if_neg hfresh
  unfold tickChunk
  rw [hexpire]
  split <;> rfl

/-- Through a tick at a time the lease covers, it stays active and its chunk is not dispatched. -/
theorem spared_tick {s : Scheduler F} (hI : LeaseInv s.chunks s.leases) {now : UInt64} (maxLeases : Int)
    {l : VomAssignmentLease} (hl : l ∈ activeLeases s.leases) (hfresh : ¬ l.Stale now) :
    l ∈ activeLeases (vomSchedulerTick s now maxLeases).1.leases ∧
      ∀ l' ∈ (vomSchedulerTick s now maxLeases).2, l'.chunkId ≠ l.chunkId := by
  have hstep : ∀ c ∈ s.chunks, ∀ st : TickState F, LeaseInv s.chunks st.leases →
      (l ∈ activeLeases st.leases ∧ ∀ l' ∈ st.outLeases, l'.chunkId ≠ l.chunkId) →
      l ∈ activeLeases (tickChunk now c st).leases ∧
        ∀ l' ∈ (tickChunk now c st).outLeases, l'.chunkId ≠ l.chunkId := by
    rintro c hc st hI' ⟨hl, hout⟩
    by_cases hid : l.chunkId = c.chunkId
    · rw [tickChunk_covered hI' hl hid hfresh]
      exact ⟨hl, hout⟩
    · refine ⟨tickChunk_keeps now hI' hc hl hid, fun l' hl' => ?_⟩
      obtain ⟨granted, hgranted, -, -, hof⟩ := tickChunk_account now hI' hc
      rw [hgranted] at hl'
      rcases List.mem_append.mp hl' with hl' | hl'
      · exact hout l' hl'
      · rw [(hof l' hl').1]
        exact fun h => hid h.symm
  exact (tickLoop_invariant now maxLeases hstep s.chunks (tickStart s) (List.Subset.refl _) hI
    ⟨hl, fun _ h => absurd h List.not_mem_nil⟩).2

/-- The operation neither releases the lease's chunk nor comes after the lease's time. -/
def SchedulerOp.Spares (l : VomAssignmentLease) : SchedulerOp F → Prop
  | .registerWorker _ => True
  | .submitReadyChunk _ => True
  | .tick now _ => ¬ l.Stale now
  | .releaseLease id => id ≠ l.chunkId

omit [DoubleArith F] in
theorem release_keeps {s : Scheduler F} (hI : LeaseInv s.chunks s.leases) {id : UInt64}
    {l : VomAssignmentLease} (hl : l ∈ activeLeases s.leases) (hid : id ≠ l.chunkId) :
    l ∈ activeLeases (vomSchedulerReleaseLease s id).leases := by
  rcases release_cases hI id with ⟨-, he⟩ | ⟨lease, chunk, hfind, -, he⟩
  · rw [he]
    exact hl
  · rw [he]
    rcases List.mem_cons.mp ((activeLeases_perm_of_find hfind).mem_iff.mp hl) with rfl | hl
    · exact absurd (leaseOf_iff.mp (List.find?_some hfind)).1.symm hid
    · exact hl

omit [DoubleArith F] in
theorem register_leases (s : Scheduler F) (w : Option (VomWorkerView F)) :
    (vomSchedulerRegisterWorker s w).1.leases = s.leases := by
  cases w with
  | none => rfl
  | some w =>
    unfold vomSchedulerRegisterWorker
    dsimp only
    split <;> rfl

omit [DoubleArith F] in
theorem submit_leases (s : Scheduler F) (c : Option VomChunkPlan) :
    (vomSchedulerSubmitReadyChunk s c).1.leases = s.leases := by
  cases c with
  | none => rfl
  | some c =>
    unfold vomSchedulerSubmitReadyChunk
    dsimp only
    split <;> rfl

theorem spared_step {s : Scheduler F} (hI : LeaseInv s.chunks s.leases) {l : VomAssignmentLease}
    (hl : l ∈ activeLeases s.leases) {o : SchedulerOp F} (ho : o.Spares l) :
    l ∈ activeLeases (schedulerMachine.next s o).leases := by
  cases o with
  | registerWorker w =>
    change l ∈ activeLeases (vomSchedulerRegisterWorker s w).1.leases
    rwa [register_leases]
  | submitReadyChunk c =>
    change l ∈ activeLeases (vomSchedulerSubmitReadyChunk s c).1.leases
    rwa [submit_leases]
  | tick now maxLeases => exact (spared_tick hI maxLeases hl ho).1
  | releaseLease id => exact release_keeps hI hl ho

theorem spared_run {s : Scheduler F} (hI : LeaseInv s.chunks s.leases) {l : VomAssignmentLease}
    (hl : l ∈ activeLeases s.leases) {ops : List (SchedulerOp F)} (hops : ∀ o ∈ ops, o.Spares l) :
    l ∈ activeLeases (schedulerMachine.run s ops).leases :=
  (schedulerMachine.invariant (fun s => LeaseInv s.chunks s.leases ∧ l ∈ activeLeases s.leases)
    (fun s o h ho => ⟨step_leaseInv s o h.1, spared_step h.1 h.2 ho⟩) ⟨hI, hl⟩
    (schedulerMachine.legal_of_forall s hops)).2

/-- What a tick writes out is a lease it has just made, and active. -/
theorem out_of_tick {s : Scheduler F} (hI : LeaseInv s.chunks s.leases) {now : UInt64}
    {maxLeases : Int} {l : VomAssignmentLease} (hl : l ∈ (vomSchedulerTick s now maxLeases).2) :
    l.leaseExpiresMs = now + 30000 ∧
      l ∈ activeLeases (vomSchedulerTick s now maxLeases).1.leases := by
  constructor
  · change l ∈ (tickLoop now maxLeases s.chunks (tickStart s)).outLeases at hl
    rw [tickLoop_outLeases now maxLeases s.chunks (tickStart s) (List.Subset.refl _) hI] at hl
    obtain ⟨v, -, hgrant⟩ := List.mem_filterMap.mp ((List.nil_append _).symm ▸ hl)
    obtain ⟨i, -, hnew⟩ := Option.bind_eq_some_iff.mp hgrant
    obtain ⟨target, -, rfl⟩ := Option.map_eq_some_iff.mp hnew
    rfl
  · obtain ⟨granted, hout, -, -, hactive⟩ := tickLoop_account now maxLeases s.chunks (tickStart s)
      (List.Subset.refl _) hI.chunksNodup hI
    refine hactive l ?_
    change l ∈ (tickLoop now maxLeases s.chunks (tickStart s)).outLeases at hl
    rw [hout] at hl
    exact (List.nil_append granted).symm ▸ hl

/-- **A dispatched chunk is not dispatched again while its lease runs.** In every run, after a tick has
    dispatched a chunk, its lease stays active up to `now + 30000`, modulo `2 ^ 64`, and no tick up to
    then dispatches the chunk, whatever is registered, submitted again or released meanwhile, until the
    chunk itself is released. -/
theorem lease_is_exclusive (before between : List (SchedulerOp F)) (now : UInt64) (maxLeases : Int)
    (l : VomAssignmentLease)
    (hl : l ∈ (vomSchedulerTick (schedulerMachine.run vomSchedulerInit before) now maxLeases).2)
    (hspares : ∀ o ∈ between, o.Spares l) :
    let s := schedulerMachine.run vomSchedulerInit (before ++ .tick now maxLeases :: between)
    l.leaseExpiresMs = now + 30000 ∧ l ∈ activeLeases s.leases ∧
      ∀ later room, later ≤ l.leaseExpiresMs →
        ∀ l' ∈ (vomSchedulerTick s later room).2, l'.chunkId ≠ l.chunkId := by
  intro s
  obtain ⟨hexpires, hactive⟩ := out_of_tick (leaseInv_run before) hl
  have hs : s = schedulerMachine.run
      (vomSchedulerTick (schedulerMachine.run vomSchedulerInit before) now maxLeases).1 between :=
    schedulerMachine.run_append _ _ _
  have hkept : l ∈ activeLeases s.leases := by
    rw [hs]
    exact spared_run (tick_leaseInv (leaseInv_run before) now maxLeases) hactive hspares
  exact ⟨hexpires, hkept, fun later room hlater =>
    (spared_tick (leaseInv_run _) room hkept (UInt64.not_lt.mpr hlater)).2⟩

end Spared

/-- A chunk is leased at time 0, submitted again while another worker joins, and the scheduler ticks. -/
def leasedMeanwhile : List (SchedulerOp (Option ℚ)) :=
  [.submitReadyChunk (some (chunkPlan 5001 1)),
    .registerWorker (some { workerW1 with workerId := NulBuf.copy 63 (CStr.upTo [119, 50]) }),
    .tick 20000 128, .releaseLease 5002]

theorem lease_is_exclusive_leasedMeanwhile :
    ∃ l ∈ (vomSchedulerTick (schedulerMachine.run vomSchedulerInit (unitsRun 4 2)) 0 128).2,
      ∀ l' ∈ (vomSchedulerTick (schedulerMachine.run vomSchedulerInit
        (unitsRun 4 2 ++ .tick 0 128 :: leasedMeanwhile)) 30000 128).2, l'.chunkId ≠ l.chunkId := by
  have hl : newLease 0 (chunkPlan 5001 2) workerW1 ∈
      (vomSchedulerTick (schedulerMachine.run vomSchedulerInit (unitsRun 4 2)) 0 128).2 := by
    decide +kernel
  refine ⟨_, hl, (lease_is_exclusive (unitsRun 4 2) leasedMeanwhile 0 128 _ hl ?_).2.2 30000 128
    (by decide)⟩
  intro o ho
  simp only [leasedMeanwhile, List.mem_cons, List.not_mem_nil, or_false] at ho
  rcases ho with rfl | rfl | rfl | rfl
  · trivial
  · trivial
  · exact (by decide : ¬ (30000 : UInt64) < 20000)
  · exact (by decide : (5002 : UInt64) ≠ 5001)

/-! ## 2. Nothing left to do -/

section ChunkSettled

/-- No worker counts for the chunk: those that pass the filters have no score above -1. -/
def Unplaced (chunk : VomChunkPlan) (ws : List (VomWorkerView (Option ℚ))) : Prop :=
  ∀ w ∈ ws, ∀ score, rating chunk w = some score → score ≤ -1

theorem bestWorker_none_iff {chunk : VomChunkPlan} {ws : List (VomWorkerView (Option ℚ))} :
    bestWorker chunk ws = none ↔ Unplaced chunk ws := by
  rw [bestWorker_eq]
  exact argMax_eq_none_iff (rating chunk)

/-- The chunk is blocked, leased, or no worker counts for it. -/
def ChunkSettled (chunk : VomChunkPlan) (st : TickState (Option ℚ)) : Prop :=
  chunk.isBlocked = true ∨ (∃ l ∈ activeLeases st.leases, l.chunkId = chunk.chunkId) ∨
    Unplaced chunk st.workers

/-- No active lease is past its time. -/
def NoneStale (now : UInt64) (leases : List VomAssignmentLease) : Prop :=
  ∀ l ∈ activeLeases leases, ¬ l.Stale now

/-- The iteration at a settled chunk does nothing. -/
theorem tickChunk_settled {now : UInt64} {chunk : VomChunkPlan} {chunks : List VomChunkPlan}
    {st : TickState (Option ℚ)} (hI : LeaseInv chunks st.leases) (hfresh : NoneStale now st.leases)
    (h : ChunkSettled chunk st) : tickChunk now chunk st = st := by
  by_cases hleased : ∃ l ∈ activeLeases st.leases, l.chunkId = chunk.chunkId
  · obtain ⟨l, hl, hid⟩ := hleased
    exact tickChunk_covered hI hl hid (hfresh l hl)
  · have hfind : st.leases.find? (leaseOf chunk.chunkId) = none :=
      find_leaseOf_none.mpr fun h => hleased (List.mem_map.mp h)
    unfold tickChunk expireLease
    rw [hfind]
    rcases h with hblocked | hl | hun
    · rw [if_pos hblocked]
    · exact absurd hl hleased
    · dsimp only
      rw [assignChunk, bestWorker_none_iff.mpr hun]
      split <;> rfl

/-- **Ticks over settled chunks do nothing.** -/
theorem tickLoop_settled {later : UInt64} {room : Int} {chunks : List VomChunkPlan}
    {st : TickState (Option ℚ)} (hI : LeaseInv chunks st.leases) (hfresh : NoneStale later st.leases) :
    ∀ rest : List VomChunkPlan, (∀ c ∈ rest, ChunkSettled c st) → tickLoop later room rest st = st
  | [], _ => rfl
  | c :: rest, h => by
      unfold tickLoop
      rw [tickChunk_settled hI hfresh (h c List.mem_cons_self),
        tickLoop_settled hI hfresh rest fun d hd => h d (List.mem_cons_of_mem _ hd)]
      split <;> rfl

/-! ## 3. Reservations take workers away, never bring them -/

/-- What the filters ask besides room. -/
def Suits (c : VomChunkPlan) (w : VomWorkerView (Option ℚ)) : Prop :=
  ¬ (w.healthy = 0 ∨ w.draining ≠ 0) ∧ w.platform = c.requiredPlatform ∧
    w.runtime = c.requiredRuntime ∧ ¬ (c.requiresTouch ≠ 0 ∧ w.hasTouchInput = 0)

theorem filters_iff {c : VomChunkPlan} {w : VomWorkerView (Option ℚ)} :
    evaluateHardFilters c w = true ↔ Suits c w ∧ ∀ r, c.demand r ≤ w.capacity r - w.reserved r := by
  constructor
  · intro h
    refine ⟨?_, demand_le_of_filters h⟩
    unfold evaluateHardFilters at h
    simp only [Bool.if_false_left, Bool.and_eq_true, Bool.not_eq_true', decide_eq_false_iff_not,
      not_not] at h
    exact ⟨h.1, h.2.1, h.2.2.1, h.2.2.2.1⟩
  · rintro ⟨⟨hup, hplatform, hruntime, htouch⟩, hroom⟩
    have hcpu : c.requiredCpu.toNat ≤ w.cpuUnits.toNat - w.reservCpu.toNat := hroom .cpu
    have hmem : c.requiredMemoryMb.toNat ≤ w.freeMemoryMb.toNat - w.reservMemMb.toNat := hroom .memory
    unfold evaluateHardFilters
    rw [if_neg hup, if_neg (not_not.mpr hplatform), if_neg (not_not.mpr hruntime), if_neg htouch]
    dsimp only
    rw [if_neg, if_neg]
    · rw [UInt64.not_lt, UInt64.le_iff_toNat_le]
      split
      · rename_i hgt
        rwa [UInt64.toNat_sub_of_le _ _ (UInt64.le_of_lt hgt)]
      · rename_i hgt
        have := UInt64.le_iff_toNat_le.mp (UInt64.not_lt.mp hgt)
        simp
        omega
    · rw [UInt8.not_lt, UInt8.le_iff_toNat_le]
      split
      · rename_i hgt
        rwa [UInt8.toNat_sub_of_le _ _ (UInt8.le_of_lt hgt)]
      · rename_i hgt
        have := UInt8.le_iff_toNat_le.mp (UInt8.not_lt.mp hgt)
        simp
        omega

theorem filters_of_reserve {c d : VomChunkPlan} {w : VomWorkerView (Option ℚ)}
    (hd : evaluateHardFilters d w = true) (hc : evaluateHardFilters c (w.reserve d) = true) :
    evaluateHardFilters c w = true := by
  obtain ⟨hsuits, hroom⟩ := filters_iff.mp hc
  refine filters_iff.mpr ⟨hsuits, fun r => (hroom r).trans ?_⟩
  rw [reserved_reserve hd r]
  exact Nat.sub_le_sub_left (Nat.le_add_right _ _) _

/-- A worker with free CPU units has a score of at least 0. -/
theorem score_nonneg (chunk : VomChunkPlan) {w : VomWorkerView (Option ℚ)} (hrel : w.Reliable)
    (hfree : w.reservCpu.toNat < w.cpuUnits.toNat) :
    ∃ score, calculateWorkerScore chunk w = some score ∧ 0 ≤ score := by
  obtain ⟨r, hr, hr₀⟩ := hrel
  refine ⟨_, score_eq chunk hr (by omega), ?_⟩
  have hroom : (0 : ℚ) ≤ (w.cpuUnits.toNat : ℚ) - w.reservCpu.toNat :=
    sub_nonneg.mpr (Nat.cast_le.mpr hfree.le)
  have hbonus := scoreBonus_nonneg chunk w
  positivity

/-- **A reservation brings no chunk a worker.** -/
theorem Unplaced.reserve {c d : VomChunkPlan} {ws : List (VomWorkerView (Option ℚ))} {i : Nat}
    {target : VomWorkerView (Option ℚ)} (h : Unplaced c ws) (hi : ws[i]? = some target)
    (hrel : target.Reliable) (hd : evaluateHardFilters d target = true) :
    Unplaced c (ws.set i (target.reserve d)) := by
  have htarget := h target (List.mem_of_getElem? hi)
  intro w hw score hscore
  rcases List.mem_or_eq_of_mem_set hw with hw | rfl
  · exact h w hw score hscore
  · obtain ⟨hpass, hscore⟩ := rating_eq_some_iff.mp hscore
    have hpass := filters_of_reserve hd hpass
    by_cases hcpu : d.requiredCpu = 0
    · -- the score reads nothing that was changed
      refine htarget score (rating_eq_some_iff.mpr ⟨hpass, ?_⟩)
      rw [← hscore]
      unfold calculateWorkerScore VomWorkerView.reserve
      rw [hcpu, UInt8.add_zero]
    · have hdemand : d.requiredCpu.toNat ≤ target.cpuUnits.toNat - target.reservCpu.toNat :=
        demand_le_of_filters hd .cpu
      have hpos : d.requiredCpu.toNat ≠ 0 := fun h => hcpu (UInt8.toNat_inj.mp h)
      obtain ⟨old, hold, hnonneg⟩ := score_nonneg c hrel (by omega)
      have hlow := htarget old (rating_eq_some_iff.mpr ⟨hpass, hold⟩)
      exact absurd (hnonneg.trans hlow) (by norm_num)

/-! ## 4. The tick -/

/-- What the loop keeps while no lease is past its time. -/
structure Calm (now : UInt64) (chunks : List VomChunkPlan) (st : TickState (Option ℚ)) : Prop where
  leases : LeaseInv chunks st.leases
  fresh : NoneStale now st.leases
  reliable : ∀ w ∈ st.workers, w.Reliable

/-- The iteration at a chunk that is not settled assigns it. -/
theorem tickChunk_unsettled (now : UInt64) {chunk : VomChunkPlan} {st : TickState (Option ℚ)}
    (h : ¬ ChunkSettled chunk st) : Assigns now chunk st (tickChunk now chunk st) := by
  obtain ⟨hopen, h⟩ := not_or.mp h
  obtain ⟨hleased, hplaced⟩ := not_or.mp h
  have hfind : st.leases.find? (leaseOf chunk.chunkId) = none :=
    find_leaseOf_none.mpr fun h => hleased (List.mem_map.mp h)
  have htick : tickChunk now chunk st = assignChunk now chunk st := by
    unfold tickChunk expireLease
    rw [if_neg hopen, hfind]
    rfl
  rw [htick]
  cases hbest : bestWorker chunk st.workers with
  | none => exact absurd (bestWorker_none_iff.mp hbest) hplaced
  | some i =>
    obtain ⟨target, hi, hpass⟩ := bestWorker_spec hbest
    exact ⟨i, target, hi, hpass, hfind, by rw [assignChunk, hbest]⟩

/-- **One iteration**: it settles its chunk and unsettles none. -/
theorem tickChunk_settles {now : UInt64} (hnow : now.toNat + 30000 < 2 ^ 64) {chunk : VomChunkPlan}
    {chunks : List VomChunkPlan} (hc : chunk ∈ chunks) {st : TickState (Option ℚ)}
    (h : Calm now chunks st) :
    Calm now chunks (tickChunk now chunk st) ∧ ChunkSettled chunk (tickChunk now chunk st) ∧
      ∀ c, ChunkSettled c st → ChunkSettled c (tickChunk now chunk st) := by
  by_cases hsettled : ChunkSettled chunk st
  · rw [tickChunk_settled h.leases h.fresh hsettled]
    exact ⟨h, hsettled, fun _ hc => hc⟩
  · have hassigns := tickChunk_unsettled now hsettled
    obtain ⟨i, target, leases, hi, hpass, hplace, htick⟩ := hassigns.stored h.leases hc
    have hactive := activeLeases_place hplace rfl
    have hreliable := hassigns.reliable h.leases hc h.reliable
    have hinv := hassigns.leaseInv h.leases hc
    rw [htick] at hreliable hinv ⊢
    refine ⟨⟨hinv, fun l hl => ?_, hreliable⟩, Or.inr (Or.inl ⟨_, hactive.mem_iff.mpr List.mem_cons_self,
      rfl⟩), fun c hc => ?_⟩
    · rcases List.mem_cons.mp (hactive.mem_iff.mp hl) with rfl | hl
      · exact newLease_fresh hnow chunk target
      · exact h.fresh l hl
    · rcases hc with hblocked | ⟨l, hl, hid⟩ | hun
      · exact Or.inl hblocked
      · exact Or.inr (Or.inl ⟨l, hactive.mem_iff.mpr (List.mem_cons_of_mem _ hl), hid⟩)
      · exact Or.inr (Or.inr (hun.reserve hi (h.reliable target (List.mem_of_getElem? hi)) hpass))

/-- **The loop**, where it does not break. -/
theorem tickLoop_settles {now : UInt64} (hnow : now.toNat + 30000 < 2 ^ 64) (maxLeases : Int)
    {chunks : List VomChunkPlan} : ∀ (rest : List VomChunkPlan) (st : TickState (Option ℚ)),
      rest ⊆ chunks → (st.outLeases.length : Int) + rest.length ≤ maxLeases → Calm now chunks st →
      Calm now chunks (tickLoop now maxLeases rest st) ∧
        (∀ c, ChunkSettled c st → ChunkSettled c (tickLoop now maxLeases rest st)) ∧
        ∀ c ∈ rest, ChunkSettled c (tickLoop now maxLeases rest st)
  | [], _, _, _, h => ⟨h, fun _ hc => hc, fun _ hc => absurd hc List.not_mem_nil⟩
  | c :: rest, st, hsub, hroom, h => by
      rw [List.length_cons] at hroom
      unfold tickLoop
      rw [if_neg (by omega)]
      have hone := tickChunk_outLeases_le now c st
      obtain ⟨hcalm, hhere, hkept⟩ := tickChunk_settles hnow (hsub List.mem_cons_self) h
      obtain ⟨hcalm', hkept', hrest⟩ := tickLoop_settles hnow maxLeases rest (tickChunk now c st)
        (fun x hx => hsub (List.mem_cons_of_mem _ hx)) (by omega) hcalm
      exact ⟨hcalm', fun d hd => hkept' d (hkept d hd),
        List.forall_mem_cons.mpr ⟨hkept' c hhere, hrest⟩⟩

/-- **A tick leaves nothing to do.** In every reachable state whose workers have a reliability of at
    least 0, a tick with room for all chunks that finds no lease past its time places all it can: every
    later tick at which still no lease is past its time dispatches nothing and changes nothing. -/
theorem tick_settles (ops : List (SchedulerOp (Option ℚ))) (now : UInt64) (maxLeases : Int)
    (hrel : ∀ w ∈ (schedulerMachine.run vomSchedulerInit ops).workers, w.Reliable)
    (hroom : ((schedulerMachine.run vomSchedulerInit ops).chunks.length : Int) ≤ maxLeases)
    (hnow : now.toNat + 30000 < 2 ^ 64)
    (hfresh : ∀ l ∈ activeLeases (schedulerMachine.run vomSchedulerInit ops).leases,
      now ≤ l.leaseExpiresMs) :
    let s := (vomSchedulerTick (schedulerMachine.run vomSchedulerInit ops) now maxLeases).1
    ∀ later room, (∀ l ∈ activeLeases s.leases, later ≤ l.leaseExpiresMs) →
      vomSchedulerTick s later room = (s, []) := by
  intro s later room hlater
  obtain ⟨hcalm, -, hsettled⟩ := tickLoop_settles hnow maxLeases _
    (tickStart (schedulerMachine.run vomSchedulerInit ops)) (List.Subset.refl _)
    (by rw [tickStart, List.length_nil, Int.natCast_zero, Int.zero_add]; exact hroom)
    ⟨leaseInv_run ops, fun l hl => UInt64.not_lt.mpr (hfresh l hl), hrel⟩
  have hleases : LeaseInv s.chunks (tickStart s).leases := hcalm.leases
  have hloop : tickLoop later room s.chunks (tickStart s) = tickStart s :=
    tickLoop_settled hleases (fun l hl => UInt64.not_lt.mpr (hlater l hl)) s.chunks hsettled
  unfold vomSchedulerTick
  rw [hloop]
  rfl

theorem tick_settles_unitsRun :
    (vomSchedulerTick (schedulerMachine.run vomSchedulerInit (unitsRun 4 2)) 0 128).2.length = 1 ∧
    vomSchedulerTick (vomSchedulerTick (schedulerMachine.run vomSchedulerInit (unitsRun 4 2)) 0 128).1
      30000 128 =
        ((vomSchedulerTick (schedulerMachine.run vomSchedulerInit (unitsRun 4 2)) 0 128).1, []) := by
  refine ⟨by decide +kernel, tick_settles (unitsRun 4 2) 0 128 (unitsRun_reliable 4 2) ?_ ?_ ?_
    30000 128 ?_⟩
  · decide +kernel
  · decide
  · decide +kernel
  · decide +kernel

end ChunkSettled

end VoidOsMerger
