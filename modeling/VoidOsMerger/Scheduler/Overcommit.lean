/-
  File:      VoidOsMerger/Scheduler/Overcommit.lean
  Subject:   IS A WORKER EVER OVER-COMMITTED?

  `evaluate_hard_filters` compares a demand with the free part of a counter, so that what is leased
  on a worker stays within its capacity. The counter is also written by callers: a registration of a
  known id overwrites the whole worker record, a submission of a known id overwrites the chunk record
  that later says how much to give back.

  * `Ledger`, `ledgerMachine` -- the scheduler with one ghost: what each chunk demanded when its
    lease was dispatched (`ledger_sched`: the ghost changes nothing); `committed` is the sum of these
    over the active leases of a worker;
  * `overcommit_by_reregistration` -- a worker that registers again with free counters while it holds
    a lease is given twice its capacity;
  * `KeepsBooks` -- a registration of a known id reserves at least what is committed on it, and a
    submission for a leased chunk demands at most what the lease was dispatched with;
    **`never_overcommitted`**: on every run of such steps no worker is over-committed.
-/
import VoidOsMerger.Scheduler.Balance

namespace VoidOsMerger

variable {F : Type}

/-! ## 1. What leases were dispatched with -/

/-- The scheduler, and what each chunk demanded when it was last dispatched. -/
structure Ledger (F : Type) where
  sched : Scheduler F
  dispatched : Resource → UInt64 → Nat

/-- A tick records the demands of the chunks it reports in `out_leases`. -/
def recordDispatch (chunks : List VomChunkPlan) (d : Resource → UInt64 → Nat)
    (out : List VomAssignmentLease) (r : Resource) (id : UInt64) : Nat :=
  if id ∈ out.map (·.chunkId) then demandOf chunks r id else d r id

def ledgerInit : Ledger F := ⟨vomSchedulerInit, fun _ _ => 0⟩

/-- What the active leases of worker `id` were dispatched with. -/
def committed (g : Ledger F) (r : Resource) (id : CStr) : Nat :=
  load (g.dispatched r) id (activeLeases g.sched.leases)

section Machine

variable [DoubleArith F]

/-- The scheduler's machine with the ghost. -/
def ledgerMachine : Machine (Ledger F) (SchedulerOp F) SchedulerAnswer where
  step g o :=
    match o, schedulerMachine.step g.sched o with
    | .tick _ _, (s, .leases out) =>
      (⟨s, recordDispatch g.sched.chunks g.dispatched out⟩, .leases out)
    | _, (s, a) => (⟨s, g.dispatched⟩, a)

theorem ledgerMachine_next_sched (g : Ledger F) (o : SchedulerOp F) :
    (ledgerMachine.next g o).sched = schedulerMachine.next g.sched o := by
  cases o <;> rfl

/-- **The ghost changes nothing.** -/
theorem ledger_sched (ops : List (SchedulerOp F)) (g : Ledger F) :
    (ledgerMachine.run g ops).sched = schedulerMachine.run g.sched ops := by
  induction ops generalizing g with
  | nil => rfl
  | cons o ops ih =>
    rw [Machine.run_cons, Machine.run_cons, ih, ledgerMachine_next_sched]

end Machine

/-- No worker holds leases beyond its capacity. -/
def NotOvercommitted (g : Ledger F) : Prop :=
  ∀ w ∈ g.sched.workers, committed g .cpu w.id ≤ w.cpuUnits.toNat ∧
    committed g .memory w.id ≤ w.freeMemoryMb.toNat

/-- All registrations of one worker id carry the same capacity. -/
def SameCapacity (ops : List (SchedulerOp F)) : Prop :=
  ∀ a ∈ registrations ops, ∀ b ∈ registrations ops, a.id = b.id →
    a.cpuUnits = b.cpuUnits ∧ a.freeMemoryMb = b.freeMemoryMb

/-- Every registration reserves at most its capacity. -/
def WithinCapacity (ops : List (SchedulerOp F)) : Prop :=
  ∀ w ∈ registrations ops, w.reservCpu ≤ w.cpuUnits ∧ w.reservMemMb ≤ w.freeMemoryMb

instance (ops : List (SchedulerOp F)) : Decidable (WithinCapacity ops) :=
  inferInstanceAs (Decidable (∀ w ∈ registrations ops, _))

/-! ## 2. Re-registration over-commits -/

/-- `w1` takes a chunk of four units, registers again, and takes another. -/
def reregisterRun : List (SchedulerOp (Option ℚ)) :=
  [.registerWorker (some workerW1), .submitReadyChunk (some (chunkPlan 1 4)), .tick 1000 10,
    .registerWorker (some workerW1), .submitReadyChunk (some (chunkPlan 2 4)), .tick 2000 10]

/-- **A worker of four units with leases for eight.** -/
theorem overcommit_by_reregistration :
    ¬ ∀ ops : List (SchedulerOp (Option ℚ)), SameCapacity ops → WithinCapacity ops →
      NotOvercommitted (ledgerMachine.run ledgerInit ops) := by
  intro h
  have hreg : registrations reregisterRun = [workerW1, workerW1] := rfl
  have hsame : SameCapacity reregisterRun := by
    intro a ha b hb _
    rw [hreg] at ha hb
    have ha' : a = workerW1 := by simpa using ha
    have hb' : b = workerW1 := by simpa using hb
    rw [ha', hb']
    exact ⟨rfl, rfl⟩
  have hwithin : WithinCapacity reregisterRun := by decide
  have hw : (ledgerMachine.run ledgerInit reregisterRun).sched.workers.map
      (fun w => (w.id, w.cpuUnits, w.reservCpu)) = [(workerW1.id, 4, 4)] := by decide +kernel
  have hcom : committed (ledgerMachine.run ledgerInit reregisterRun) .cpu workerW1.id = 8 := by
    decide +kernel
  obtain ⟨w, hmem, he⟩ := List.mem_map.mp (by rw [hw]; exact List.mem_cons_self :
    (workerW1.id, (4 : UInt8), (4 : UInt8)) ∈ (ledgerMachine.run ledgerInit
      reregisterRun).sched.workers.map (fun w => (w.id, w.cpuUnits, w.reservCpu)))
  have hle := (h reregisterRun hsame hwithin w hmem).1
  simp only [Prod.mk.injEq] at he
  rw [he.1, he.2.1, hcom] at hle
  exact absurd hle (by decide)

/-! ## 3. Counters that cover the leases -/

/-- The counters cover the load and stay within the capacity. -/
def Covered (amt : Resource → UInt64 → Nat) (as : List VomAssignmentLease) (w : VomWorkerView F) :
    Prop :=
  ∀ r, load (amt r) w.id as ≤ w.reserved r ∧ w.reserved r ≤ w.capacity r

/-- **A refund of at most the counted amount keeps the cover.** -/
theorem Covered.refund {amt : Resource → UInt64 → Nat} {as as' : List VomAssignmentLease}
    {chunk : VomChunkPlan} {w w' : VomWorkerView F} (h : Covered amt as w)
    (hm : RefundMove chunk as as' w w') (hamt : ∀ r, chunk.demand r ≤ amt r chunk.chunkId) :
    Covered amt as' w' := by
  intro r
  obtain ⟨hload, hcap⟩ := h r
  cases hm with
  | stays hl =>
    rw [hl]
    exact ⟨hload, hcap⟩
  | refunded hl =>
    rw [hl] at hload
    rw [reserved_refund, refund_id, refund_capacity]
    exact ⟨giveBack_covers hload (hamt r), le_trans (giveBack_le _ _) hcap⟩

/-- **A reservation of at least the counted amount keeps the cover**: the filters leave room. -/
theorem Covered.reserve {amt : Resource → UInt64 → Nat} {as as' : List VomAssignmentLease}
    {chunk : VomChunkPlan} {w w' : VomWorkerView F} (h : Covered amt as w)
    (hm : ReserveMove chunk as as' w w') (hamt : ∀ r, amt r chunk.chunkId ≤ chunk.demand r) :
    Covered amt as' w' := by
  intro r
  obtain ⟨hload, hcap⟩ := h r
  cases hm with
  | stays hl =>
    rw [hl]
    exact ⟨hload, hcap⟩
  | reserved hf hl =>
    have hroom := demand_le_of_filters hf r
    have ha := hamt r
    rw [reserved_reserve hf, reserve_id, reserve_capacity, hl]
    omega

/-- Every worker is covered, and no leased chunk demands more than its lease was dispatched with. -/
structure CoverInv (amt : Resource → UInt64 → Nat) (chunks : List VomChunkPlan)
    (ws : List (VomWorkerView F)) (ls : List VomAssignmentLease) : Prop where
  workers : WorkerInv ws ls
  covered : ∀ w ∈ ws, Covered amt (activeLeases ls) w
  demands : ∀ l ∈ activeLeases ls, ∀ r, demandOf chunks r l.chunkId ≤ amt r l.chunkId

theorem Expires.coverInv {now : UInt64} {chunk : VomChunkPlan} {chunks : List VomChunkPlan}
    {amt : Resource → UInt64 → Nat} {st st' : TickState F} (h : Expires now chunk st st')
    (hI : LeaseInv chunks st.leases) (hc : chunk ∈ chunks)
    (hC : CoverInv amt chunks st.workers st.leases) :
    CoverInv amt chunks st'.workers st'.leases := by
  refine ⟨h.workerInv hC.workers, fun w' hw' => ?_, ?_⟩
  · obtain ⟨w, hw, hm⟩ := h.move hC.workers.idsNodup w' hw'
    refine (hC.covered w hw).refund hm fun r => ?_
    obtain ⟨lease, hf, _, _⟩ := h
    obtain ⟨hid, ha⟩ := leaseOf_iff.mp (List.find?_some hf)
    have hd := hC.demands lease (mem_activeLeases.mpr ⟨List.mem_of_find?_eq_some hf, ha⟩) r
    rw [hid, demandOf_mem hI.chunksNodup hc] at hd
    exact hd
  · obtain ⟨lease, _, _, rfl⟩ := h
    intro l hl
    rw [activeLeases_deactivate] at hl
    exact hC.demands l (List.mem_of_mem_eraseP hl)

/-- Along the tick's loop the amounts are those recorded so far. -/
theorem Assigns.coverInv {now : UInt64} {chunk : VomChunkPlan} {chunks : List VomChunkPlan}
    {d : Resource → UInt64 → Nat} {st st' : TickState F} (h : Assigns now chunk st st')
    (hI : LeaseInv chunks st.leases) (hc : chunk ∈ chunks)
    (hC : CoverInv (recordDispatch chunks d st.outLeases) chunks st.workers st.leases) :
    CoverInv (recordDispatch chunks d st'.outLeases) chunks st'.workers st'.leases := by
  have hmove := h.move hI hc hC.workers.idsNodup
  have hworker := h.workerInv hI hc hC.workers
  obtain ⟨i, target, leases, hi, hfil, hp, rfl⟩ := h.stored hI hc
  obtain ⟨_, _, _, _, hno, _⟩ := h
  -- the new record concerns the chunk alone, and no lease active before is for it
  have hrec : ∀ r id, recordDispatch chunks d (st.outLeases ++ [newLease now chunk target]) r id =
      if id = chunk.chunkId then chunk.demand r else recordDispatch chunks d st.outLeases r id := by
    intro r id
    by_cases hid : id = chunk.chunkId
    · subst hid
      simp [recordDispatch, newLease, demandOf_mem hI.chunksNodup hc]
    · simp [recordDispatch, newLease, hid]
  have hold : ∀ l ∈ activeLeases st.leases, ∀ r,
      recordDispatch chunks d (st.outLeases ++ [newLease now chunk target]) r l.chunkId =
        recordDispatch chunks d st.outLeases r l.chunkId := by
    intro l hl r
    rw [hrec, if_neg]
    exact fun e => find_leaseOf_none.mp hno (e ▸ List.mem_map_of_mem hl)
  refine ⟨hworker, fun w' hw' => ?_, fun l hl r => ?_⟩
  · obtain ⟨w, hw, hm⟩ := hmove w' hw'
    have hcov : Covered (recordDispatch chunks d (st.outLeases ++ [newLease now chunk target]))
        (activeLeases st.leases) w := by
      intro r
      rw [load_congr fun l hl => hold l hl r]
      exact hC.covered w hw r
    refine hcov.reserve hm fun r => ?_
    rw [hrec, if_pos rfl]
  · rcases List.mem_cons.mp ((activeLeases_place hp rfl).mem_iff.mp hl) with rfl | hl
    · show demandOf chunks r chunk.chunkId ≤ recordDispatch chunks d _ r chunk.chunkId
      rw [hrec, if_pos rfl, demandOf_mem hI.chunksNodup hc]
    · rw [hold l hl r]
      exact hC.demands l hl r

/-! ## 4. Runs that keep the books -/

/-- A registration of a known id reserves what is committed on it; a submission for a leased chunk
    demands at most what its lease was dispatched with. -/
def KeepsBooks (g : Ledger F) : SchedulerOp F → Prop
  | .registerWorker (some w) => w.id ∈ g.sched.workers.map (·.id) →
      committed g .cpu w.id ≤ w.reservCpu.toNat ∧ committed g .memory w.id ≤ w.reservMemMb.toNat
  | .submitReadyChunk (some c) => c.chunkId ∈ (activeLeases g.sched.leases).map (·.chunkId) →
      c.requiredCpu.toNat ≤ g.dispatched .cpu c.chunkId ∧
      c.requiredMemoryMb.toNat ≤ g.dispatched .memory c.chunkId
  | _ => True

instance (g : Ledger F) : (o : SchedulerOp F) → Decidable (KeepsBooks g o)
  | .registerWorker (some w) => inferInstanceAs (Decidable (w.id ∈ g.sched.workers.map (·.id) →
      committed g .cpu w.id ≤ w.reservCpu.toNat ∧ committed g .memory w.id ≤ w.reservMemMb.toNat))
  | .submitReadyChunk (some c) =>
    inferInstanceAs (Decidable (c.chunkId ∈ (activeLeases g.sched.leases).map (·.chunkId) →
      c.requiredCpu.toNat ≤ g.dispatched .cpu c.chunkId ∧
      c.requiredMemoryMb.toNat ≤ g.dispatched .memory c.chunkId))
  | .registerWorker none => isTrue trivial
  | .submitReadyChunk none => isTrue trivial
  | .tick _ _ => isTrue trivial
  | .releaseLease _ => isTrue trivial

theorem register_coverInv {g : Ledger F}
    (hC : CoverInv g.dispatched g.sched.chunks g.sched.workers g.sched.leases)
    {w : VomWorkerView F} (hcap : w.reservCpu ≤ w.cpuUnits ∧ w.reservMemMb ≤ w.freeMemoryMb)
    (hok : KeepsBooks g (.registerWorker (some w))) :
    CoverInv g.dispatched (vomSchedulerRegisterWorker g.sched (some w)).1.chunks
      (vomSchedulerRegisterWorker g.sched (some w)).1.workers
      (vomSchedulerRegisterWorker g.sched (some w)).1.leases := by
  have hW := register_workerInv hC.workers (some w)
  unfold vomSchedulerRegisterWorker at hW ⊢
  cases hp : place (sameWorker w.id) maxSworkers w g.sched.workers with
  | none => simpa [hp] using hC
  | some workers =>
    simp only [hp] at hW ⊢
    refine ⟨hW, fun x hx => ?_, hC.demands⟩
    rcases mem_of_mem_place hp hx with rfl | hx
    · intro r
      have hload : load (g.dispatched r) x.id (activeLeases g.sched.leases) ≤ x.reserved r := by
        by_cases hknown : x.id ∈ g.sched.workers.map (·.id)
        · cases r
          · exact (hok hknown).1
          · exact (hok hknown).2
        · rw [hC.workers.load_unknown hknown]
          exact Nat.zero_le _
      refine ⟨hload, ?_⟩
      cases r
      · exact UInt8.le_iff_toNat_le.mp hcap.1
      · exact UInt64.le_iff_toNat_le.mp hcap.2
    · exact hC.covered x hx

theorem submit_coverInv {g : Ledger F} (hI : LeaseInv g.sched.chunks g.sched.leases)
    (hC : CoverInv g.dispatched g.sched.chunks g.sched.workers g.sched.leases) {c : VomChunkPlan}
    (hok : KeepsBooks g (.submitReadyChunk (some c))) :
    CoverInv g.dispatched (vomSchedulerSubmitReadyChunk g.sched (some c)).1.chunks
      (vomSchedulerSubmitReadyChunk g.sched (some c)).1.workers
      (vomSchedulerSubmitReadyChunk g.sched (some c)).1.leases := by
  unfold vomSchedulerSubmitReadyChunk
  cases hp : place (sameChunk c.chunkId) maxSchunks c g.sched.chunks with
  | none => simpa [hp] using hC
  | some chunks =>
    simp only [hp]
    refine ⟨hC.workers, hC.covered, fun l hl r => ?_⟩
    have hnd : (chunks.map (·.chunkId)).Nodup :=
      nodup_map_place _ hp (fun _ => sameChunk_iff) hI.chunksNodup
    obtain ⟨c', hc', hcid⟩ := List.mem_map.mp
      (map_subset_place _ hp (fun _ => sameChunk_iff.mp) (hI.activeChunk l hl))
    rw [← hcid, demandOf_mem hnd hc']
    rcases mem_of_mem_place hp hc' with rfl | hc'
    · have hle := hok (List.mem_map.mpr ⟨l, hl, hcid.symm⟩)
      cases r
      · exact hle.1
      · exact hle.2
    · rw [← demandOf_mem hI.chunksNodup hc' r, hcid]
      exact hC.demands l hl r

theorem release_coverInv {g : Ledger F} (hI : LeaseInv g.sched.chunks g.sched.leases)
    (hC : CoverInv g.dispatched g.sched.chunks g.sched.workers g.sched.leases) (id : UInt64) :
    CoverInv g.dispatched (vomSchedulerReleaseLease g.sched id).chunks
      (vomSchedulerReleaseLease g.sched id).workers
      (vomSchedulerReleaseLease g.sched id).leases := by
  have hI' := release_leaseInv hI id
  rcases release_cases hI id with ⟨_, e⟩ | ⟨lease, chunk, hl, hf, e⟩
  · rw [e]
    exact hC
  · rw [e] at hI' ⊢
    have hc : chunk ∈ g.sched.chunks := List.mem_of_find?_eq_some hf
    obtain rfl : chunk.chunkId = id := sameChunk_iff.mp (List.find?_some hf)
    obtain ⟨hid, ha⟩ := leaseOf_iff.mp (List.find?_some hl)
    refine ⟨hC.workers.refund chunk lease.worker _, fun w' hw' => ?_, fun l hl' r => ?_⟩
    · obtain ⟨w, hw, hm⟩ := refundWorker_move hC.workers.idsNodup hl hw'
      refine (hC.covered w hw).refund hm fun r => ?_
      have hd := hC.demands lease (mem_activeLeases.mpr ⟨List.mem_of_find?_eq_some hl, ha⟩) r
      rw [hid, demandOf_mem hI.chunksNodup hc] at hd
      exact hd
    · obtain ⟨c', hc', hcid⟩ := List.mem_map.mp (hI'.activeChunk l hl')
      rw [← hcid, demandOf_mem hI'.chunksNodup hc',
        ← demandOf_mem hI.chunksNodup (List.mem_of_mem_eraseP hc'), hcid]
      rw [activeLeases_deactivate] at hl'
      exact hC.demands l (List.mem_of_mem_eraseP hl') r

section Run

variable [DoubleArith F]

theorem tickChunk_coverInv (now : UInt64) {chunk : VomChunkPlan} {chunks : List VomChunkPlan}
    {d : Resource → UInt64 → Nat} {st : TickState F} (hI : LeaseInv chunks st.leases)
    (hc : chunk ∈ chunks)
    (hC : CoverInv (recordDispatch chunks d st.outLeases) chunks st.workers st.leases) :
    CoverInv (recordDispatch chunks d (tickChunk now chunk st).outLeases) chunks
      (tickChunk now chunk st).workers (tickChunk now chunk st).leases := by
  refine (tickChunk_rule now
    (P := fun st => CoverInv (recordDispatch chunks d st.outLeases) chunks st.workers st.leases) hc
    (fun st st' hI hC h => ?_) (fun st st' hI hC h => h.coverInv hI hc hC) hI hC).2
  have hout : st'.outLeases = st.outLeases := by
    obtain ⟨_, _, _, rfl⟩ := h
    rfl
  rw [hout]
  exact h.coverInv hI hc hC

/-- The invariant of the ledger. -/
def LedgerInv (g : Ledger F) : Prop :=
  LeaseInv g.sched.chunks g.sched.leases ∧
    CoverInv g.dispatched g.sched.chunks g.sched.workers g.sched.leases

theorem step_ledgerInv (g : Ledger F) (o : SchedulerOp F) (h : LedgerInv g) (hok : KeepsBooks g o)
    (hcap : ∀ w, o = .registerWorker (some w) →
      w.reservCpu ≤ w.cpuUnits ∧ w.reservMemMb ≤ w.freeMemoryMb) :
    LedgerInv (ledgerMachine.next g o) := by
  obtain ⟨hI, hC⟩ := h
  have hI' := step_leaseInv g.sched o hI
  rw [← ledgerMachine_next_sched] at hI'
  refine ⟨hI', ?_⟩
  cases o with
  | registerWorker w =>
    cases w with
    | none => exact hC
    | some w => exact register_coverInv hC (hcap w rfl) hok
  | submitReadyChunk c =>
    cases c with
    | none => exact hC
    | some c => exact submit_coverInv hI hC hok
  | tick now maxLeases =>
    exact (tickLoop_invariant now maxLeases
      (P := fun st => CoverInv (recordDispatch g.sched.chunks g.dispatched st.outLeases)
        g.sched.chunks st.workers st.leases)
      (fun c hc st hI hC => tickChunk_coverInv now hI hc hC) g.sched.chunks (tickStart g.sched)
      (List.Subset.refl _) hI hC).2
  | releaseLease id => exact release_coverInv hI hC id

/-- **No worker is ever over-committed**, on every run in which registrations stay within their
    capacity, a re-registration reserves what is committed, and a re-submission of a leased chunk
    does not raise its demands. -/
theorem never_overcommitted (ops : List (SchedulerOp F)) (hcap : WithinCapacity ops)
    (hok : ledgerMachine.Legal KeepsBooks ledgerInit ops) :
    NotOvercommitted (ledgerMachine.run ledgerInit ops) := by
  have hstart : LedgerInv (ledgerInit (F := F)) :=
    ⟨init_leaseInv, ⟨List.nodup_nil, fun _ hl => absurd hl List.not_mem_nil⟩,
      fun _ hw => absurd hw List.not_mem_nil, fun _ hl => absurd hl List.not_mem_nil⟩
  have hrun : LedgerInv (ledgerMachine.run ledgerInit ops) := by
    refine ledgerMachine.invariant LedgerInv ?_ hstart (hok.mem _ (List.Subset.refl ops))
    rintro g o hg ⟨hbooks, hmem⟩
    exact step_ledgerInv g o hg hbooks fun w e => hcap w (mem_registrations.mpr (e ▸ hmem))
  intro w hw
  have hcov := hrun.2.covered w hw
  exact ⟨le_trans (hcov .cpu).1 (hcov .cpu).2, le_trans (hcov .memory).1 (hcov .memory).2⟩

end Run

/-- `w1` registers again, reporting what its lease holds. -/
def refreshRun : List (SchedulerOp (Option ℚ)) :=
  [.registerWorker (some workerW1), .submitReadyChunk (some (chunkPlan 1 3)), .tick 1000 10,
    .registerWorker (some { workerW1 with reservCpu := 3, reservMemMb := 1024 }),
    .submitReadyChunk (some (chunkPlan 1 2)), .submitReadyChunk (some (chunkPlan 2 1)),
    .tick 2000 10]

theorem never_overcommitted_refreshRun :
    ledgerMachine.Legal KeepsBooks ledgerInit refreshRun ∧
    committed (ledgerMachine.run ledgerInit refreshRun) .cpu workerW1.id = 4 ∧
    NotOvercommitted (ledgerMachine.run ledgerInit refreshRun) := by
  have hlegal : ledgerMachine.Legal KeepsBooks ledgerInit refreshRun := by decide +kernel
  exact ⟨hlegal, by decide +kernel, never_overcommitted refreshRun (by decide) hlegal⟩

end VoidOsMerger
