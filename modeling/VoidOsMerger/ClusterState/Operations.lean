/-
  File:      VoidOsMerger/ClusterState/Operations.lean
  Subject:   WHAT EACH OPERATION OF THE CLUSTER STATE DOES while the counts are within the arrays.

  Nothing but the counts decides whether an operation stays inside the arrays (`CountsInRange`), and
  every operation keeps them there.

  * `ClusterStateSnapshot.registered`, `beaten`, `leaseSet`, `leaseAdded` -- the states the operations
    leave, with what they make of the slots in use and of the spare ones;
  * **`register_cases`, `heartbeat_cases`, `updateLease_cases`** -- refused, and why, or one of these;
  * `persist_whole` -- what a persist that succeeds leaves in the file.
-/
import VoidOsMerger.ClusterState.Model

namespace VoidOsMerger

/-! ## 1. Counts -/

/-- The counts are within the arrays. -/
structure CountsInRange (s : ClusterStateSnapshot) : Prop where
  workersNonneg : 0 ≤ s.totalRegisteredWorkers.toInt
  workersFit : s.totalRegisteredWorkers.toInt ≤ clusterMaxWorkers
  leasesNonneg : 0 ≤ s.totalActiveLeases.toInt
  leasesFit : s.totalActiveLeases.toInt ≤ clusterMaxActiveLeases

instance (s : ClusterStateSnapshot) : Decidable (CountsInRange s) :=
  decidable_of_iff
    ((0 ≤ s.totalRegisteredWorkers.toInt ∧ s.totalRegisteredWorkers.toInt ≤ clusterMaxWorkers) ∧
      0 ≤ s.totalActiveLeases.toInt ∧ s.totalActiveLeases.toInt ≤ clusterMaxActiveLeases)
    ⟨fun h => ⟨h.1.1, h.1.2, h.2.1, h.2.2⟩, fun h => ⟨⟨h.1, h.2⟩, h.3, h.4⟩⟩

/-- The worker slots that are not in use. -/
def ClusterStateSnapshot.spareWorkers (s : ClusterStateSnapshot) : List WorkerMember :=
  spare s.activeWorkers s.totalRegisteredWorkers.toInt

/-- The lease slots that are not in use. -/
def ClusterStateSnapshot.spareLeases (s : ClusterStateSnapshot) : List ChunkLease :=
  spare s.activeLeases s.totalActiveLeases.toInt

section Counts

variable {s : ClusterStateSnapshot} (h : CountsInRange s)

include h

theorem CountsInRange.workersScan :
    s.totalRegisteredWorkers.toInt ≤ s.activeWorkers.toList.length := by
  rw [Vector.length_toList]
  exact h.workersFit

theorem CountsInRange.leasesScan : s.totalActiveLeases.toInt ≤ s.activeLeases.toList.length := by
  rw [Vector.length_toList]
  exact h.leasesFit

theorem CountsInRange.length_workers :
    s.workers.length = s.totalRegisteredWorkers.toInt.toNat := length_used h.workersFit

theorem CountsInRange.length_leases :
    s.leases.length = s.totalActiveLeases.toInt.toNat := length_used h.leasesFit

end Counts

theorem toInt_succ {n : Int32} (h₀ : 0 ≤ n.toInt) (h : n.toInt < 2 ^ 20) :
    (n + 1).toInt = n.toInt + 1 := by
  rw [Int32.toInt_add]
  show (n.toInt + 1).bmod (2 ^ 32) = n.toInt + 1
  exact Int.bmod_eq_of_le (by omega) (by omega)

/-! ## 2. Workers -/

/-- The state with the metrics of its workers. -/
def ClusterStateSnapshot.recalculated (s : ClusterStateSnapshot) : ClusterStateSnapshot :=
  { s with metrics := s.workers.foldl addMember zeroMetrics }

theorem recalculate_eq {s : ClusterStateSnapshot}
    (h : s.totalRegisteredWorkers.toInt ≤ clusterMaxWorkers) :
    internalRecalculateAggregates s = some s.recalculated := by
  have hscan : s.totalRegisteredWorkers.toInt ≤ s.activeWorkers.toList.length := by
    rw [Vector.length_toList]
    exact h
  unfold internalRecalculateAggregates
  rw [foldSlots_eq _ _ _ hscan]
  rfl

/-- The state with one more worker; the bootstrap is over. -/
def ClusterStateSnapshot.registered (s : ClusterStateSnapshot) (worker : WorkerMember) :
    ClusterStateSnapshot :=
  ClusterStateSnapshot.recalculated { s with
    activeWorkers := s.activeWorkers.setIfInBounds s.totalRegisteredWorkers.toInt.toNat worker
    totalRegisteredWorkers := s.totalRegisteredWorkers + 1
    stateGenerationVersion := s.stateGenerationVersion + 1
    globalStatus :=
      if s.globalStatus = .value .boostrap then .value .operational else s.globalStatus }

/-- The state in which worker `w` in slot `i` has been heard of. -/
def ClusterStateSnapshot.beaten (s : ClusterStateSnapshot) (i : Nat) (w : WorkerMember)
    (timestampMs : UInt64) : ClusterStateSnapshot :=
  ClusterStateSnapshot.recalculated { s with
    activeWorkers := s.activeWorkers.setIfInBounds i (w.beat timestampMs)
    stateGenerationVersion := s.stateGenerationVersion + 1 }

section Registered

variable {s : ClusterStateSnapshot} (h : CountsInRange s)
  (hroom : s.totalRegisteredWorkers.toInt < clusterMaxWorkers) (worker : WorkerMember)

include h hroom

theorem registered_count : (s.registered worker).totalRegisteredWorkers.toInt =
    s.totalRegisteredWorkers.toInt + 1 := by
  have hmax : (clusterMaxWorkers : Int) = 32 := rfl
  exact toInt_succ h.workersNonneg (by omega)

theorem registered_workers : (s.registered worker).workers = s.workers ++ [worker] := by
  unfold ClusterStateSnapshot.workers
  rw [registered_count h hroom worker]
  exact used_set_end worker h.workersNonneg hroom

theorem registered_spareWorkers :
    (s.registered worker).spareWorkers = s.spareWorkers.drop 1 := by
  unfold ClusterStateSnapshot.spareWorkers
  rw [registered_count h hroom worker]
  exact spare_set_end worker h.workersNonneg

theorem registered_countsInRange : CountsInRange (s.registered worker) := by
  have hcount := registered_count h hroom worker
  have h₀ := h.workersNonneg
  exact ⟨by omega, by omega, h.leasesNonneg, h.leasesFit⟩

end Registered

/-- **A registration**: refused, because the array is full or the id is taken, or the worker is
    appended. -/
theorem register_cases {s : ClusterStateSnapshot} (h : CountsInRange s) (worker : WorkerMember) :
    (clusterStateRegisterWorker s worker = some (false, s) ∧
      (s.totalRegisteredWorkers.toInt = clusterMaxWorkers ∨
        ∃ w ∈ s.workers, w.workerId = worker.workerId)) ∨
    (s.totalRegisteredWorkers.toInt < clusterMaxWorkers ∧
      (∀ w ∈ s.workers, w.workerId ≠ worker.workerId) ∧
      clusterStateRegisterWorker s worker = some (true, s.registered worker)) := by
  unfold clusterStateRegisterWorker
  split
  · rename_i hfull
    exact Or.inl ⟨rfl, Or.inl (Int.le_antisymm h.workersFit hfull)⟩
  · rename_i hroom
    have hroom : s.totalRegisteredWorkers.toInt < clusterMaxWorkers := Int.not_le.mp hroom
    have hmax : (clusterMaxWorkers : Int) = 32 := rfl
    rw [scanSlots_eq _ _ h.workersScan, Option.bind_some, List.findIdx?_isSome]
    split
    · rename_i hknown
      obtain ⟨w, hw, hid⟩ := List.any_eq_true.mp hknown
      exact Or.inl ⟨rfl, Or.inr ⟨w, hw, by simpa using hid⟩⟩
    · rename_i hunknown
      refine Or.inr ⟨hroom, fun w hw hid => ?_, ?_⟩
      · exact hunknown (List.any_eq_true.mpr ⟨w, hw, by simpa using hid⟩)
      · rw [writeSlot_eq worker h.workersNonneg hroom, Option.bind_some]
        have hcount : (s.totalRegisteredWorkers + 1).toInt = s.totalRegisteredWorkers.toInt + 1 :=
          toInt_succ h.workersNonneg (by omega)
        have h₀ := h.workersNonneg
        unfold ClusterStateSnapshot.registered
        dsimp only
        by_cases hb : s.globalStatus = .value .boostrap
        · rw [if_pos ⟨hb, by omega⟩, if_pos hb, recalculate_eq (by dsimp only; omega)]
          rfl
        · rw [if_neg fun hc => hb hc.1, if_neg hb, recalculate_eq (by dsimp only; omega)]
          rfl

theorem beaten_workers (s : ClusterStateSnapshot) (i : Nat) (w : WorkerMember) (timestampMs : UInt64) :
    (s.beaten i w timestampMs).workers = s.workers.set i (w.beat timestampMs) :=
  used_set i (w.beat timestampMs)

theorem beaten_spareWorkers {s : ClusterStateSnapshot} {i : Nat} (hi : i < s.workers.length)
    (w : WorkerMember) (timestampMs : UInt64) :
    (s.beaten i w timestampMs).spareWorkers = s.spareWorkers :=
  spare_set (w.beat timestampMs) hi

theorem beaten_countsInRange {s : ClusterStateSnapshot} (h : CountsInRange s) (i : Nat)
    (w : WorkerMember) (timestampMs : UInt64) : CountsInRange (s.beaten i w timestampMs) :=
  ⟨h.workersNonneg, h.workersFit, h.leasesNonneg, h.leasesFit⟩

/-- **A heartbeat**: of no registered worker, or the first one with the id is updated. -/
theorem heartbeat_cases {s : ClusterStateSnapshot} (h : CountsInRange s) (workerId : UInt32)
    (timestampMs : UInt64) :
    (clusterStateProcessHeartbeat s workerId timestampMs = some (false, s) ∧
      ∀ w ∈ s.workers, w.workerId ≠ workerId) ∨
    ∃ i w, s.workers[i]? = some w ∧ w.workerId = workerId ∧
      clusterStateProcessHeartbeat s workerId timestampMs = some (true, s.beaten i w timestampMs) := by
  unfold clusterStateProcessHeartbeat
  rw [scanSlots_eq _ _ h.workersScan, Option.bind_some]
  cases hfind : (s.activeWorkers.toList.take s.totalRegisteredWorkers.toInt.toNat).findIdx?
    fun w => w.workerId == workerId with
  | none =>
    refine Or.inl ⟨rfl, fun w hw => ?_⟩
    simpa using List.findIdx?_eq_none_iff.mp hfind w hw
  | some i =>
    obtain ⟨w, hget, hslot, hid⟩ := used_findIdx hfind
    refine Or.inr ⟨i, w, hslot, by simpa using hid, ?_⟩
    dsimp only
    rw [hget]
    dsimp only
    rw [recalculate_eq (by exact h.workersFit)]
    rfl

/-! ## 3. Leases -/

/-- The state with lease `i` rewritten. -/
def ClusterStateSnapshot.leaseSet (s : ClusterStateSnapshot) (i : Nat) (lease : ChunkLease) :
    ClusterStateSnapshot :=
  { s with
    activeLeases := s.activeLeases.setIfInBounds i lease
    stateGenerationVersion := s.stateGenerationVersion + 1 }

/-- The state with one more lease. -/
def ClusterStateSnapshot.leaseAdded (s : ClusterStateSnapshot) (lease : ChunkLease) :
    ClusterStateSnapshot :=
  { s with
    activeLeases := s.activeLeases.setIfInBounds s.totalActiveLeases.toInt.toNat lease
    totalActiveLeases := s.totalActiveLeases + 1
    stateGenerationVersion := s.stateGenerationVersion + 1 }

theorem leaseSet_leases (s : ClusterStateSnapshot) (i : Nat) (lease : ChunkLease) :
    (s.leaseSet i lease).leases = s.leases.set i lease :=
  used_set i lease

theorem leaseSet_spareLeases {s : ClusterStateSnapshot} {i : Nat} (hi : i < s.leases.length)
    (lease : ChunkLease) : (s.leaseSet i lease).spareLeases = s.spareLeases :=
  spare_set lease hi

section LeaseAdded

variable {s : ClusterStateSnapshot} (h : CountsInRange s)
  (hroom : s.totalActiveLeases.toInt < clusterMaxActiveLeases) (lease : ChunkLease)

include h hroom

theorem leaseAdded_count :
    (s.leaseAdded lease).totalActiveLeases.toInt = s.totalActiveLeases.toInt + 1 := by
  have hmax : (clusterMaxActiveLeases : Int) = 128 := rfl
  exact toInt_succ h.leasesNonneg (by omega)

theorem leaseAdded_leases : (s.leaseAdded lease).leases = s.leases ++ [lease] := by
  unfold ClusterStateSnapshot.leases
  rw [leaseAdded_count h hroom lease]
  exact used_set_end lease h.leasesNonneg hroom

theorem leaseAdded_spareLeases : (s.leaseAdded lease).spareLeases = s.spareLeases.drop 1 := by
  unfold ClusterStateSnapshot.spareLeases
  rw [leaseAdded_count h hroom lease]
  exact spare_set_end lease h.leasesNonneg

theorem leaseAdded_countsInRange : CountsInRange (s.leaseAdded lease) := by
  have hcount := leaseAdded_count h hroom lease
  have h₀ := h.leasesNonneg
  exact ⟨h.workersNonneg, h.workersFit, by omega, by omega⟩

end LeaseAdded

/-- **A lease update**: refused, because the chunk has no lease and the array is full, or the chunk's
    first lease is rewritten, or one is appended. -/
theorem updateLease_cases {s : ClusterStateSnapshot} (h : CountsInRange s) (chunkId : UInt64)
    (newStatus : LeaseStatus) (progress : UInt32) :
    (clusterStateUpdateLease s chunkId newStatus progress = some (false, s) ∧
      s.totalActiveLeases.toInt = clusterMaxActiveLeases ∧ ∀ l ∈ s.leases, l.chunkId ≠ chunkId) ∨
    (∃ i lease, s.leases[i]? = some lease ∧ lease.chunkId = chunkId ∧
      clusterStateUpdateLease s chunkId newStatus progress =
        some (true, s.leaseSet i (lease.update newStatus progress))) ∨
    (s.totalActiveLeases.toInt < clusterMaxActiveLeases ∧ (∀ l ∈ s.leases, l.chunkId ≠ chunkId) ∧
      clusterStateUpdateLease s chunkId newStatus progress =
        some (true, s.leaseAdded ((zeroLease chunkId).update newStatus progress))) := by
  unfold clusterStateUpdateLease
  rw [scanSlots_eq _ _ h.leasesScan, Option.bind_some]
  cases hfind : (s.activeLeases.toList.take s.totalActiveLeases.toInt.toNat).findIdx?
    fun l => l.chunkId == chunkId with
  | some i =>
    obtain ⟨lease, hget, hslot, hid⟩ := used_findIdx hfind
    refine Or.inr (Or.inl ⟨i, lease, hslot, by simpa using hid, ?_⟩)
    simp only [hget]
    rfl
  | none =>
    have hnone : ∀ l ∈ s.leases, l.chunkId ≠ chunkId := fun l hl =>
      beq_eq_false_iff_ne.mp (List.findIdx?_eq_none_iff.mp hfind l hl)
    dsimp only
    split
    · rename_i hfull
      exact Or.inl ⟨rfl, Int.le_antisymm h.leasesFit hfull, hnone⟩
    · rename_i hroom
      have hroom : s.totalActiveLeases.toInt < clusterMaxActiveLeases := Int.not_le.mp hroom
      refine Or.inr (Or.inr ⟨hroom, hnone, ?_⟩)
      rw [writeSlot_eq _ h.leasesNonneg hroom]
      rfl

/-! ## 4. Persisting -/

theorem persist_file (path : CStr) (s : ClusterStateSnapshot) (n : Nat) (files : Files) :
    (clusterStatePersistToWal (.written n) path s files).2 path = some ((snapshotCodec.enc s).take n) :=
  if_pos rfl

/-- A persist that answers true leaves the whole image. -/
theorem persist_whole {outcome : WriteOutcome} {path : CStr} {s : ClusterStateSnapshot} {files : Files}
    (h : (clusterStatePersistToWal outcome path s files).1 = true) :
    (clusterStatePersistToWal outcome path s files).2 path = some (snapshotCodec.enc s) := by
  cases outcome with
  | openFails => cases h
  | written n =>
    have hn : snapshotCodec.size ≤ n := of_decide_eq_true h
    rw [persist_file, snapshotCodec.take_enc_whole s hn]

end VoidOsMerger
