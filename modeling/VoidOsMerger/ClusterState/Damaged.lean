/-
  File:      VoidOsMerger/ClusterState/Damaged.lean
  Subject:   A WRITE-AHEAD FILE OF ANY CONTENT.

  A recovery checks the length of the file and nothing else: what lies where the two counts belong
  becomes the counts.

  * `image_counts` -- the counts a recovery takes over, as bytes of the file;
  * **`callsStayInside_iff`** -- the operations on a state stay inside the arrays, call after call,
    exactly when the counts are within them;
  * **`recoversSafely_iff`** -- so a file does no harm exactly when it is refused or its counts are in
    range.
-/
import VoidOsMerger.ClusterState.Operations
import VoidOsMerger.ClusterState.Restart

namespace VoidOsMerger

/-! ## 1. Later calls -/

/-- A call on the master state. -/
inductive StateCall
  | registerWorker (worker : WorkerMember)
  | updateLease (chunkId : UInt64) (newStatus : LeaseStatus) (progress : UInt32)
  | processHeartbeat (workerId : UInt32) (timestampMs : UInt64)

/-- One call; `none` when it accesses an array outside its bounds. -/
def StateCall.apply (s : ClusterStateSnapshot) : StateCall → Option (Bool × ClusterStateSnapshot)
  | .registerWorker worker => clusterStateRegisterWorker s worker
  | .updateLease chunkId newStatus progress => clusterStateUpdateLease s chunkId newStatus progress
  | .processHeartbeat workerId timestampMs => clusterStateProcessHeartbeat s workerId timestampMs

/-- Calls one after another. -/
def applyCalls : List StateCall → ClusterStateSnapshot → Option ClusterStateSnapshot
  | [], s => some s
  | c :: cs, s => (c.apply s).bind fun r => applyCalls cs r.2

/-- No later call, nor any later sequence of calls, accesses an array outside its bounds. -/
def CallsStayInside (s : ClusterStateSnapshot) : Prop :=
  ∀ calls, applyCalls calls s ≠ none

/-- One call stays inside and keeps the counts in range. -/
theorem call_countsInRange {s : ClusterStateSnapshot} (h : CountsInRange s) (c : StateCall) :
    ∃ ok s', c.apply s = some (ok, s') ∧ CountsInRange s' := by
  cases c with
  | registerWorker worker =>
    rcases register_cases h worker with ⟨hno, _⟩ | ⟨hroom, _, hyes⟩
    · exact ⟨_, s, hno, h⟩
    · exact ⟨_, _, hyes, registered_countsInRange h hroom worker⟩
  | processHeartbeat workerId timestampMs =>
    rcases heartbeat_cases h workerId timestampMs with ⟨hno, _⟩ | ⟨i, w, _, _, hyes⟩
    · exact ⟨_, s, hno, h⟩
    · exact ⟨_, _, hyes, beaten_countsInRange h i w timestampMs⟩
  | updateLease chunkId newStatus progress =>
    rcases updateLease_cases h chunkId newStatus progress with
      ⟨hno, _⟩ | ⟨i, lease, _, _, hyes⟩ | ⟨hroom, _, hyes⟩
    · exact ⟨_, s, hno, h⟩
    · exact ⟨_, _, hyes, h.workersNonneg, h.workersFit, h.leasesNonneg, h.leasesFit⟩
    · exact ⟨_, _, hyes, leaseAdded_countsInRange h hroom _⟩

theorem calls_stay_inside : ∀ (calls : List StateCall) {s : ClusterStateSnapshot}, CountsInRange s →
    applyCalls calls s ≠ none
  | [], _, _ => by simp [applyCalls]
  | c :: cs, s, h => by
      obtain ⟨ok, s', hc, hs'⟩ := call_countsInRange h c
      rw [applyCalls, hc, Option.bind_some]
      exact calls_stay_inside cs hs'

/-! ## 2. Counts out of range -/

section OutOfRange

variable {s : ClusterStateSnapshot}

theorem register_negative (h : s.totalRegisteredWorkers.toInt < 0) (worker : WorkerMember) :
    clusterStateRegisterWorker s worker = none := by
  have hmax : (clusterMaxWorkers : Int) = 32 := rfl
  unfold clusterStateRegisterWorker
  rw [if_neg (by omega), scanSlots_nonpos _ _ (by omega), Option.bind_some, if_neg (by simp),
    writeSlot, if_neg (by omega)]
  rfl

theorem heartbeat_past (h : (clusterMaxWorkers : Int) < s.totalRegisteredWorkers.toInt) :
    ∃ workerId, clusterStateProcessHeartbeat s workerId 0 = none := by
  have hlen : s.activeWorkers.toList.length = clusterMaxWorkers := Vector.length_toList
  obtain ⟨workerId, hfresh⟩ := exists_fresh (·.workerId) UInt32.ofNat s.activeWorkers.toList
    fun i j hi hj e => by
      have hmax : clusterMaxWorkers = 32 := rfl
      have e := congrArg UInt32.toNat e
      rw [UInt32.toNat_ofNat', UInt32.toNat_ofNat'] at e
      omega
  refine ⟨workerId, ?_⟩
  unfold clusterStateProcessHeartbeat
  rw [scanSlots_past (by rw [hlen]; exact h) fun w hw => by simpa using hfresh w hw]
  rfl

theorem updateLease_negative (h : s.totalActiveLeases.toInt < 0) (chunkId : UInt64) :
    clusterStateUpdateLease s chunkId .running 0 = none := by
  have hmax : (clusterMaxActiveLeases : Int) = 128 := rfl
  unfold clusterStateUpdateLease
  rw [scanSlots_nonpos _ _ (by omega), Option.bind_some]
  dsimp only
  rw [if_neg (by omega), writeSlot, if_neg (by omega)]
  rfl

theorem updateLease_past (h : (clusterMaxActiveLeases : Int) < s.totalActiveLeases.toInt) :
    ∃ chunkId, clusterStateUpdateLease s chunkId .running 0 = none := by
  have hlen : s.activeLeases.toList.length = clusterMaxActiveLeases := Vector.length_toList
  obtain ⟨chunkId, hfresh⟩ := exists_fresh (·.chunkId) UInt64.ofNat s.activeLeases.toList
    fun i j hi hj e => by
      have hmax : clusterMaxActiveLeases = 128 := rfl
      have e := congrArg UInt64.toNat e
      rw [UInt64.toNat_ofNat', UInt64.toNat_ofNat'] at e
      omega
  refine ⟨chunkId, ?_⟩
  unfold clusterStateUpdateLease
  rw [scanSlots_past (by rw [hlen]; exact h) fun l hl => by simpa using hfresh l hl]
  rfl

/-- A call that leaves the arrays is a sequence of one call. -/
theorem not_callsStayInside {c : StateCall} (h : c.apply s = none) : ¬ CallsStayInside s := by
  intro hall
  refine hall [c] ?_
  rw [applyCalls, h]
  rfl

/-- **Nothing but the counts decides**: the calls on a state stay inside the arrays exactly when the
    counts are within them. -/
theorem callsStayInside_iff : CallsStayInside s ↔ CountsInRange s := by
  constructor
  · intro h
    refine ⟨?_, ?_, ?_, ?_⟩
    · by_contra hneg
      exact not_callsStayInside (c := .registerWorker zeroWorker)
        (register_negative (Int.not_le.mp hneg) zeroWorker) h
    · by_contra hpast
      obtain ⟨workerId, hnone⟩ := heartbeat_past (Int.not_le.mp hpast)
      exact not_callsStayInside (c := .processHeartbeat workerId 0) hnone h
    · by_contra hneg
      exact not_callsStayInside (c := .updateLease 0 .running 0)
        (updateLease_negative (Int.not_le.mp hneg) 0) h
    · by_contra hpast
      obtain ⟨chunkId, hnone⟩ := updateLease_past (Int.not_le.mp hpast)
      exact not_callsStayInside (c := .updateLease chunkId .running 0) hnone h
  · exact fun h calls => calls_stay_inside calls h

end OutOfRange

/-! ## 3. Recovery from any file -/

/-- The `int` at an offset of the file. -/
def intAt (offset : Nat) (bytes : List UInt8) : Int :=
  (Codec.int32.dec ((bytes.drop offset).take Codec.int32.size)).toInt

/-- The two counts in the image of a state, `total_registered_workers` at byte 1368 and
    `total_active_leases` at byte 4448, are within the arrays. -/
def ImageCountsInRange (bytes : List UInt8) : Prop :=
  (0 ≤ intAt 1368 bytes ∧ intAt 1368 bytes ≤ clusterMaxWorkers) ∧
    0 ≤ intAt 4448 bytes ∧ intAt 4448 bytes ≤ clusterMaxActiveLeases

/-- Where the counts lie in an image. -/
theorem image_counts (bytes : List UInt8) :
    (snapshotCodec.dec (bytes.take snapshotCodec.size)).totalRegisteredWorkers.toInt =
        intAt 1368 bytes ∧
      (snapshotCodec.dec (bytes.take snapshotCodec.size)).totalActiveLeases.toInt =
        intAt 4448 bytes := by
  constructor
  · show (Codec.int32.dec ((((((((bytes.take 4488).drop 64).drop 8).drop 8).drop 8).drop 1280).take
      8).take 4)).toInt = (Codec.int32.dec ((bytes.drop 1368).take 4)).toInt
    simp only [List.drop_drop, List.drop_take, List.take_take]
    rfl
  · show (Codec.int32.dec ((((((((((bytes.take 4488).drop 64).drop 8).drop 8).drop 8).drop
      1280).drop 8).drop 3072).take 8).take 4)).toInt = (Codec.int32.dec ((bytes.drop 4448).take 4)).toInt
    simp only [List.drop_drop, List.drop_take, List.take_take]
    rfl

theorem recovered_countsInRange_iff (bytes : List UInt8) :
    CountsInRange (snapshotCodec.dec (bytes.take snapshotCodec.size)).recovered ↔
      ImageCountsInRange bytes := by
  obtain ⟨hworkers, hleases⟩ := image_counts bytes
  unfold ImageCountsInRange
  rw [← hworkers, ← hleases]
  exact ⟨fun h => ⟨⟨h.workersNonneg, h.workersFit⟩, h.leasesNonneg, h.leasesFit⟩,
    fun h => ⟨h.1.1, h.1.2, h.2.1, h.2.2⟩⟩

/-- What a recovery is asked for: it answers false and changes nothing, or it leaves counts within the
    arrays, and no later call leaves them. -/
def RecoversSafely (opens : Bool) (path : CStr) (s : ClusterStateSnapshot) (files : Files) : Prop :=
  clusterStateRecoverFromWal opens path s files = (false, s) ∨
    ∃ s', clusterStateRecoverFromWal opens path s files = (true, s') ∧ CountsInRange s' ∧
      CallsStayInside s'

/-- **What a damaged file can do.** A recovery is safe exactly when there is no file, it does not open,
    it is too short, or its two counts are within the arrays. -/
theorem recoversSafely_iff (opens : Bool) (path : CStr) (s : ClusterStateSnapshot) (files : Files) :
    RecoversSafely opens path s files ↔
      ∀ bytes, files path = some bytes → opens = true → snapshotCodec.size ≤ bytes.length →
        ImageCountsInRange bytes := by
  unfold RecoversSafely
  rw [recover_walState]
  unfold walState
  cases opens with
  | false => simp
  | true =>
    cases hfile : files path with
    | none => simp
    | some bytes =>
      by_cases hlen : snapshotCodec.size ≤ bytes.length
      · simp [hlen, callsStayInside_iff, recovered_countsInRange_iff]
      · simp [hlen]

/-- The image of a new master's state with one count written over. -/
def damagedState : ClusterStateSnapshot := { bootState with totalRegisteredWorkers := -1 }

/-- **A file with a negative count is taken over as it is**, and the next registration writes in front
    of the array. -/
theorem recovery_accepts_negative_count :
    ¬ ∀ (opens : Bool) (path : CStr) (s : ClusterStateSnapshot) (files : Files),
      RecoversSafely opens path s files := by
  intro h
  rcases h true walPath bootState (imageOf damagedState) with hno | ⟨s', hyes, hcounts, _⟩
  · rw [recover_walState, walState_image rfl] at hno
    cases hno
  · rw [recover_walState, walState_image rfl] at hyes
    obtain rfl : damagedState.recovered = s' := (Prod.mk.inj hyes).2
    exact absurd hcounts.workersNonneg (by decide)

end VoidOsMerger
