/-
  File:      VoidOsMerger/Scheduler/Expiry.lean
  Subject:   WHICH EXPIRED LEASES A TICK RECLAIMS.

  A tick looks for expired leases chunk by chunk, behind the test that skips blocked chunks. A chunk
  that holds a lease can be submitted again as blocked, and its lease then runs out unseen.

  * `stale_tickChunk`, `stale_tickLoop` -- an iteration, and the whole loop, leaves of the stale leases
    only those of blocked chunks;
  * `blocked_tickLoop` -- and these it leaves;
  * **`reclaimed_iff`** -- after a tick with room for all chunks no active lease is stale exactly when no
    blocked chunk held one before;
  * `blocked_lease_not_reclaimed` -- a lease that is never reclaimed.
-/
import VoidOsMerger.Scheduler.Tick
import VoidOsMerger.Scheduler.Balance

namespace VoidOsMerger

variable {F : Type}

/-- A lease past its time. -/
def VomAssignmentLease.Stale (now : UInt64) (l : VomAssignmentLease) : Prop := l.leaseExpiresMs < now

instance (now : UInt64) (l : VomAssignmentLease) : Decidable (l.Stale now) :=
  inferInstanceAs (Decidable (l.leaseExpiresMs < now))

/-! ## 1. One iteration -/

/-- A lease of this tick is not past its time. -/
theorem newLease_fresh {now : UInt64} (hnow : now.toNat + 30000 < 2 ^ 64) (chunk : VomChunkPlan)
    (target : VomWorkerView F) : ¬ (newLease now chunk target).Stale now := by
  have hsum : (now + 30000).toNat = now.toNat + 30000 := by
    rw [UInt64.toNat_add]
    exact Nat.mod_eq_of_lt hnow
  show ¬ now + 30000 < now
  rw [UInt64.lt_iff_toNat_lt, hsum]
  omega

/-- The search leaves an examined chunk no stale lease. -/
theorem afterExpiry_fresh {now : UInt64} {chunk : VomChunkPlan} {chunks : List VomChunkPlan}
    {st : TickState F} (hI : LeaseInv chunks st.leases) (hopen : chunk.isBlocked = false)
    {l : VomAssignmentLease} (hl : l ∈ activeLeases (afterExpiry now chunk st).leases)
    (hid : l.chunkId = chunk.chunkId) : ¬ l.Stale now := by
  have hmid : afterExpiry now chunk st = (expireLease now chunk st).1 := by
    simp [afterExpiry, hopen]
  rw [hmid] at hl
  have hmem : chunk.chunkId ∈ (activeLeases (expireLease now chunk st).1.leases).map (·.chunkId) :=
    List.mem_map.mpr ⟨l, hl, hid⟩
  have hsome : (expireLease now chunk st).1.leases.find? (leaseOf chunk.chunkId) ≠ none :=
    fun hno => find_leaseOf_none.mp hno hmem
  rcases expireLease_cases now chunk st with ⟨he, hno⟩ | ⟨st', he, hexp⟩ | he
  · rw [he] at hsome
    exact absurd hno hsome
  · rw [he] at hsome
    exact absurd (hexp.noLease hI.activeNodup) hsome
  · -- the chunk has one active lease, the one that covers it
    obtain ⟨lease, hlease, hleaseId, hfresh⟩ := expireLease_covered (by rw [he] : _ = true)
    rw [he] at hl
    rw [List.inj_on_of_nodup_map hI.activeNodup hl hlease (hid.trans hleaseId.symm)]
    exact hfresh

section Tick

variable [DoubleArith F] {now : UInt64} {chunks : List VomChunkPlan}

/-- **One iteration**: a lease that is stale after it was there before, and its chunk is another one
    or blocked. -/
theorem stale_tickChunk (hnow : now.toNat + 30000 < 2 ^ 64) {chunk : VomChunkPlan} {st : TickState F}
    (hI : LeaseInv chunks st.leases) (hc : chunk ∈ chunks) {l : VomAssignmentLease}
    (hl : l ∈ activeLeases (tickChunk now chunk st).leases) (hstale : l.Stale now) :
    l ∈ activeLeases st.leases ∧ (chunk.chunkId = l.chunkId → chunk.isBlocked = true) := by
  have hmid : l ∈ activeLeases (afterExpiry now chunk st).leases := by
    cases hr : raisedBy now chunk st with
    | none =>
      rw [tickChunk_raisedBy, hr, Option.elim_none] at hl
      exact hl
    | some i =>
      obtain ⟨target, leases, -, hp, htick⟩ := tickChunk_raises now hI hc hr
      rw [htick] at hl
      rcases List.mem_cons.mp ((activeLeases_place hp rfl).mem_iff.mp hl) with rfl | hl
      · exact absurd hstale (newLease_fresh hnow chunk target)
      · exact hl
  refine ⟨(afterExpiry_account now chunk st).1.mem_iff.mpr (List.mem_append_right _ hmid), ?_⟩
  intro hid
  by_contra hopen
  exact afterExpiry_fresh hI (eq_false_of_ne_true hopen) hmid hid.symm hstale

/-! ## 2. The loop -/

/-- **The loop**, where it does not break. -/
theorem stale_tickLoop (hnow : now.toNat + 30000 < 2 ^ 64) {maxLeases : Int} {l : VomAssignmentLease}
    (hstale : l.Stale now) : ∀ (rest : List VomChunkPlan) (st : TickState F), rest ⊆ chunks →
      LeaseInv chunks st.leases → (st.outLeases.length : Int) + rest.length ≤ maxLeases →
      l ∈ activeLeases (tickLoop now maxLeases rest st).leases →
      l ∈ activeLeases st.leases ∧ ∀ c ∈ rest, c.chunkId = l.chunkId → c.isBlocked = true
  | [], _, _, _, _, hl => ⟨hl, fun _ hc => absurd hc List.not_mem_nil⟩
  | c :: rest, st, hsub, hI, hroom, hl => by
      rw [List.length_cons] at hroom
      unfold tickLoop at hl
      rw [if_neg (by omega)] at hl
      have hc : c ∈ chunks := hsub List.mem_cons_self
      have hone := tickChunk_outLeases_le now c st
      obtain ⟨hl, hrest⟩ := stale_tickLoop hnow hstale rest (tickChunk now c st)
        (fun x hx => hsub (List.mem_cons_of_mem _ hx)) (tickChunk_leaseInv now hI hc) (by omega) hl
      obtain ⟨hl, hhere⟩ := stale_tickChunk hnow hI hc hl hstale
      exact ⟨hl, List.forall_mem_cons.mpr ⟨hhere, hrest⟩⟩

/-- The lease of a blocked chunk is left alone, expired or not. -/
theorem blocked_tickLoop {s : Scheduler F} (hI : LeaseInv s.chunks s.leases) (now : UInt64)
    (maxLeases : Int) {c : VomChunkPlan} (hc : c ∈ s.chunks) (hblocked : c.isBlocked = true)
    {l : VomAssignmentLease} (hl : l ∈ activeLeases s.leases) (hid : l.chunkId = c.chunkId) :
    l ∈ activeLeases (vomSchedulerTick s now maxLeases).1.leases := by
  have hstep : ∀ d ∈ s.chunks, ∀ st : TickState F, LeaseInv s.chunks st.leases →
      l ∈ activeLeases st.leases → l ∈ activeLeases (tickChunk now d st).leases := by
    intro d hd st hI' hl
    by_cases hne : l.chunkId = d.chunkId
    · obtain rfl : d = c :=
        List.inj_on_of_nodup_map hI.chunksNodup hd hc (hne.symm.trans hid)
      rw [tickChunk, if_pos hblocked]
      exact hl
    · exact tickChunk_keeps now hI' hd hl hne
  exact (tickLoop_invariant now maxLeases hstep s.chunks (tickStart s) (List.Subset.refl _) hI hl).2

/-! ## 3. Every tick of every run -/

/-- **When a tick reclaims every expired lease.** In every reachable state, for a tick with room for
    every submitted chunk and a time that does not wrap, no active lease is past its time after the
    tick exactly when no blocked chunk holds a lease past its time before it. -/
theorem reclaimed_iff (ops : List (SchedulerOp F)) (now : UInt64) (maxLeases : Int)
    (hroom : ((schedulerMachine.run vomSchedulerInit ops).chunks.length : Int) ≤ maxLeases)
    (hnow : now.toNat + 30000 < 2 ^ 64) :
    let s := schedulerMachine.run vomSchedulerInit ops
    (∀ l ∈ activeLeases (vomSchedulerTick s now maxLeases).1.leases, ¬ l.leaseExpiresMs < now) ↔
      ∀ c ∈ s.chunks, c.isBlocked = true → ∀ l ∈ activeLeases s.leases, l.chunkId = c.chunkId →
        ¬ l.leaseExpiresMs < now := by
  intro s
  have hI : LeaseInv s.chunks s.leases := leaseInv_run ops
  constructor
  · intro h c hc hblocked l hl hid
    exact h l (blocked_tickLoop hI now maxLeases hc hblocked hl hid)
  · intro h l hl hstale
    have hfits : ((tickStart s).outLeases.length : Int) + s.chunks.length ≤ maxLeases := by
      rw [tickStart, List.length_nil, Int.natCast_zero, Int.zero_add]
      exact hroom
    obtain ⟨hold, hblocked⟩ :=
      stale_tickLoop hnow hstale s.chunks (tickStart s) (List.Subset.refl _) hI hfits hl
    obtain ⟨c, hc, hid⟩ := List.mem_map.mp (hI.activeChunk l hold)
    exact h c hc (hblocked c hc hid) l hold hid.symm hstale

end Tick

/-- A chunk is leased at time 0 and submitted once more, blocked or not. -/
def resubmitRun (blocked : Bool) : List (SchedulerOp (Option ℚ)) :=
  [.registerWorker (some workerW1), .submitReadyChunk (some (chunkPlan 5001 2)), .tick 0 128,
    .submitReadyChunk (some { chunkPlan 5001 2 with isBlocked := blocked })]

theorem resubmitted_lease_reclaimed :
    (((schedulerMachine.run vomSchedulerInit (resubmitRun false)).chunks.length : Int) ≤ 128 ∧
      (40000 : UInt64).toNat + 30000 < 2 ^ 64) ∧
    ∀ l ∈ activeLeases (vomSchedulerTick (schedulerMachine.run vomSchedulerInit (resubmitRun false))
      40000 128).1.leases, ¬ l.leaseExpiresMs < 40000 := by
  have hroom : ((schedulerMachine.run vomSchedulerInit (resubmitRun false)).chunks.length : Int) ≤
      128 := by decide +kernel
  exact ⟨⟨hroom, by decide⟩,
    (reclaimed_iff (resubmitRun false) 40000 128 hroom (by decide)).mpr (by decide +kernel)⟩

/-- **The lease of a blocked chunk is not reclaimed**, ten seconds after it ran out. -/
theorem blocked_lease_not_reclaimed : ¬ ∀ (ops : List (SchedulerOp (Option ℚ))) (now : UInt64)
    (maxLeases : Int),
    ((schedulerMachine.run vomSchedulerInit ops).chunks.length : Int) ≤ maxLeases →
    now.toNat + 30000 < 2 ^ 64 →
    ∀ l ∈ activeLeases (vomSchedulerTick (schedulerMachine.run vomSchedulerInit ops)
      now maxLeases).1.leases, ¬ l.leaseExpiresMs < now := by
  intro h
  have hnone := h (resubmitRun true) 40000 128 (by decide +kernel) (by decide)
  exact absurd hnone (by decide +kernel)

end VoidOsMerger
