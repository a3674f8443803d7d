/-
  File:      VoidOsMerger/ClusterState/Restart.lean
  Subject:   WHAT A RESTART FINDS: stops during a persist, and histories of master incarnations.

  A persist truncates the file before it writes, so the old image is gone before the new one is
  there. A recovery takes over the epoch of the file together with its version plus one, so a new
  incarnation counts on from the last persist, not from the last state.

  * **`persist_crash_atomic_iff`** -- a stop during a persist leaves something to recover exactly when
    it comes before the file is opened or after its last byte;
  * `historyMachine` -- incarnations one after another over one file, with the snapshots they hand out;
  * **`snapshots_identified`** -- epoch and version identify a snapshot in every history that restarts
    from a file only when no newer snapshot of the file's epoch has been handed out.
-/
import VoidOsMerger.ClusterState.Operations
import VoidOsMerger.ClusterState.Snapshots

namespace VoidOsMerger

/-! ## 1. Images in the file -/

/-- What a recovery makes of a persisted state. -/
def ClusterStateSnapshot.recovered (s : ClusterStateSnapshot) : ClusterStateSnapshot :=
  { s with stateGenerationVersion := s.stateGenerationVersion + 1 }

section File

variable {files : Files} {path : CStr} {bytes : List UInt8}

/-- The state whose complete image the file starts with. -/
def walState (path : CStr) (files : Files) : Option ClusterStateSnapshot :=
  (files path).bind fun bytes =>
    if snapshotCodec.size ≤ bytes.length then some (snapshotCodec.dec (bytes.take snapshotCodec.size))
    else none

/-- A recovery restores the state in the file, if there is one. -/
theorem recover_walState (opens : Bool) (s : ClusterStateSnapshot) :
    clusterStateRecoverFromWal opens path s files =
      if opens then (walState path files).elim (false, s) (fun t => (true, t.recovered))
      else (false, s) := by
  unfold clusterStateRecoverFromWal walState
  cases hfile : files path with
  | none => cases opens <;> rfl
  | some bytes =>
    by_cases hlen : snapshotCodec.size ≤ bytes.length
    · cases opens <;> simp [hlen, Nat.not_lt.mpr hlen, ClusterStateSnapshot.recovered]
    · cases opens <;> simp [hlen, Nat.lt_of_not_le hlen]

theorem walState_image {t : ClusterStateSnapshot} (h : files path = some (snapshotCodec.enc t)) :
    walState path files = some t := by
  rw [walState, h, Option.bind_some, if_pos (snapshotCodec.length_enc t).ge,
    snapshotCodec.take_enc_whole t (Nat.le_refl _), snapshotCodec.dec_enc]

theorem walState_short (h : files path = some bytes) (hlen : bytes.length < snapshotCodec.size) :
    walState path files = none := by
  rw [walState, h, Option.bind_some, if_neg (Nat.not_le.mpr hlen)]

/-- The state in the file after a persist of `s`. -/
def WriteOutcome.leaves (s : ClusterStateSnapshot) (old : Option ClusterStateSnapshot) :
    WriteOutcome → Option ClusterStateSnapshot
  | .openFails => old
  | .written n => if snapshotCodec.size ≤ n then some s else none

theorem leaves_whole (s : ClusterStateSnapshot) (old : Option ClusterStateSnapshot) :
    WriteOutcome.leaves s old (.written snapshotCodec.size) = some s := by
  simp [WriteOutcome.leaves]

theorem walState_persist (outcome : WriteOutcome) (path : CStr) (s : ClusterStateSnapshot)
    (files : Files) :
    walState path (clusterStatePersistToWal outcome path s files).2 =
      outcome.leaves s (walState path files) := by
  cases outcome with
  | openFails => rfl
  | written n =>
    have hfile := persist_file path s n files
    show walState path _ = if snapshotCodec.size ≤ n then some s else none
    split
    · rename_i hn
      rw [snapshotCodec.take_enc_whole s hn] at hfile
      exact walState_image hfile
    · rename_i hn
      exact walState_short hfile (snapshotCodec.take_enc_short s hn)

end File

/-! ## 2. A stop during a persist -/

/-- **A persist is not atomic.** The file held the image of `s₀`, and a persist of `s₁` stopped before
    it opened the file (`openFails`) or after `n` bytes. A following recovery on a new context restores
    `s₀` or `s₁` exactly when the file was not opened or all bytes were written. -/
theorem persist_crash_atomic_iff (s₀ s₁ : ClusterStateSnapshot) (path : CStr) (files : Files)
    (h₀ : files path = some (snapshotCodec.enc s₀)) (stop : WriteOutcome) (uuid : CStr)
    (epoch : UInt64) :
    (∃ s, clusterStateRecoverFromWal true path (clusterStateCreate uuid epoch).masterState
        (clusterStatePersistToWal stop path s₁ files).2 = (true, s) ∧
      (s = s₀.recovered ∨ s = s₁.recovered)) ↔
    (stop = .openFails ∨ ∃ n, stop = .written n ∧ snapshotCodec.size ≤ n) := by
  rw [recover_walState, walState_persist]
  cases stop with
  | openFails =>
    rw [walState_image h₀]
    exact iff_of_true ⟨_, rfl, Or.inl rfl⟩ (Or.inl rfl)
  | written n =>
    by_cases hn : snapshotCodec.size ≤ n
    · simp [WriteOutcome.leaves, hn]
    · -- the file is too short for a record, and recovery refuses it
      simp [WriteOutcome.leaves, hn]

/-- A file that holds the image of a state, and nothing else on the disk. -/
def imageOf (s : ClusterStateSnapshot) : Files := fun _ => some (snapshotCodec.enc s)

theorem bootUuid_noNul : ∀ b ∈ ([99] : List UInt8), b ≠ 0 := by simp

/-- The state of a new master. -/
def bootState : ClusterStateSnapshot := (clusterStateCreate ⟨[99], bootUuid_noNul⟩ 100).masterState

theorem persist_crash_atomic_iff_emptyFile :
    (∃ s, clusterStateRecoverFromWal true ⟨[119], by simp⟩ bootState
        (clusterStatePersistToWal (.written 0) ⟨[119], by simp⟩ bootState.recovered
          (imageOf bootState)).2 = (true, s) ∧
      (s = bootState.recovered ∨ s = bootState.recovered.recovered)) ↔
    (WriteOutcome.written 0 = .openFails ∨
      ∃ n, WriteOutcome.written 0 = .written n ∧ snapshotCodec.size ≤ n) :=
  persist_crash_atomic_iff bootState bootState.recovered ⟨[119], by simp⟩ (imageOf bootState) rfl
    (.written 0) ⟨[99], by simp⟩ 100

/-- **A stop right after the file is opened loses both states.** -/
theorem persist_loses_both :
    ¬ ∀ (s₀ s₁ : ClusterStateSnapshot) (path : CStr) (files : Files),
      files path = some (snapshotCodec.enc s₀) → ∀ (stop : WriteOutcome) (uuid : CStr)
        (epoch : UInt64),
      ∃ s, clusterStateRecoverFromWal true path (clusterStateCreate uuid epoch).masterState
          (clusterStatePersistToWal stop path s₁ files).2 = (true, s) ∧
        (s = s₀.recovered ∨ s = s₁.recovered) := by
  intro h
  obtain ⟨s, hs, -⟩ := h bootState bootState ⟨[119], by simp⟩ (imageOf bootState) rfl (.written 0)
    ⟨[99], by simp⟩ 100
  rw [recover_walState, walState_persist] at hs
  cases hs

/-! ## 3. Incarnations -/

/-- A running master, the files, the epoch it was created with, and the snapshots handed out so far
    by it and the masters before it. -/
structure Incarnation where
  masterState : ClusterStateSnapshot
  ring : SnapshotRing
  files : Files
  createdEpoch : UInt64
  acquired : List ClusterStateSnapshot

inductive HistoryOp
  | restart (uuid : CStr) (epoch : UInt64) (opens : Bool)
  | registerWorker (worker : WorkerMember)
  | updateLease (chunkId : UInt64) (newStatus : LeaseStatus) (progress : UInt32)
  | processHeartbeat (workerId : UInt32) (timestampMs : UInt64)
  | persist (outcome : WriteOutcome)
  | acquire

/-- An operation on the master state; one that would leave an array changes nothing here. -/
def Incarnation.apply (w : Incarnation) (r : Option (Bool × ClusterStateSnapshot)) : Incarnation :=
  { w with masterState := r.elim w.masterState (·.2) }

/-- `cluster_state_create` and `cluster_state_recover_from_wal`, as `main` does at its start. -/
def boot (path uuid : CStr) (epoch : UInt64) (opens : Bool) (files : Files) :
    ClusterStateSnapshot :=
  (clusterStateRecoverFromWal opens path (clusterStateCreate uuid epoch).masterState files).2

/-- The answer is the snapshot an acquire hands out. -/
def historyMachine (path : CStr) : Machine Incarnation HistoryOp (Option ClusterStateSnapshot) where
  step w
    | .restart uuid epoch opens =>
      ({ w with
          masterState := boot path uuid epoch opens w.files
          ring := emptyRing
          createdEpoch := epoch }, none)
    | .registerWorker worker => (w.apply (clusterStateRegisterWorker w.masterState worker), none)
    | .updateLease chunkId newStatus progress =>
      (w.apply (clusterStateUpdateLease w.masterState chunkId newStatus progress), none)
    | .processHeartbeat workerId timestampMs =>
      (w.apply (clusterStateProcessHeartbeat w.masterState workerId timestampMs), none)
    | .persist outcome =>
      ({ w with files := (clusterStatePersistToWal outcome path w.masterState w.files).2 }, none)
    | .acquire =>
      let r := clusterStateAcquireSnapshot w.masterState w.ring
      let snapshot := r.1.pool r.2
      ({ w with ring := r.1, acquired := w.acquired ++ [snapshot] }, some snapshot)

/-- The first master, before any file. -/
def firstIncarnation (path uuid : CStr) (epoch : UInt64) : Incarnation where
  masterState := boot path uuid epoch true fun _ => none
  ring := emptyRing
  files := fun _ => none
  createdEpoch := epoch
  acquired := []

/-- Every incarnation is created with an epoch larger than all earlier ones. -/
def EpochsGrow (w : Incarnation) : HistoryOp → Prop
  | .restart _ epoch _ => w.createdEpoch < epoch
  | _ => True

/-- Epoch and version tell the snapshots apart. -/
def Identified (snapshots : List ClusterStateSnapshot) : Prop :=
  ∀ s ∈ snapshots, ∀ t ∈ snapshots, s.masterEpoch = t.masterEpoch →
    s.stateGenerationVersion = t.stateGenerationVersion → s = t

/-- The version can be counted up. -/
def ClusterStateSnapshot.CanAdvance (s : ClusterStateSnapshot) : Prop :=
  s.stateGenerationVersion.toNat + 1 < 2 ^ 64

/-- A restart from a file: no snapshot of the file's epoch that is newer than the file has been handed
    out, but for copies of the state the restart restores. And no version wraps around. -/
def FileIsNewest (path : CStr) (w : Incarnation) : HistoryOp → Prop
  | .restart _ _ _ => ∀ t, walState path w.files = some t → t.CanAdvance ∧
      ∀ s ∈ w.acquired, s.masterEpoch = t.masterEpoch →
        s.stateGenerationVersion ≤ t.stateGenerationVersion ∨ s = t.recovered
  | .persist _ => True
  | .acquire => True
  | _ => w.masterState.CanAdvance

/-! ## 4. Epoch and version -/

/-- What an operation on the master state does to epoch and version. -/
def Advances (s s' : ClusterStateSnapshot) : Prop :=
  s' = s ∨ (s'.masterEpoch = s.masterEpoch ∧
    s'.stateGenerationVersion = s.stateGenerationVersion + 1)

theorem recalculate_keeps {s s' : ClusterStateSnapshot}
    (h : internalRecalculateAggregates s = some s') :
    s'.masterEpoch = s.masterEpoch ∧ s'.stateGenerationVersion = s.stateGenerationVersion := by
  obtain ⟨m, _, rfl⟩ := Option.map_eq_some_iff.mp h
  exact ⟨rfl, rfl⟩

theorem register_advances {s s' : ClusterStateSnapshot} {worker : WorkerMember} {ok : Bool}
    (h : clusterStateRegisterWorker s worker = some (ok, s')) : Advances s s' := by
  unfold clusterStateRegisterWorker at h
  split at h
  · cases h
    exact Or.inl rfl
  · obtain ⟨known, _, h⟩ := Option.bind_eq_some_iff.mp h
    split at h
    · cases h
      exact Or.inl rfl
    · obtain ⟨workers, _, h⟩ := Option.bind_eq_some_iff.mp h
      obtain ⟨t, ht, hpair⟩ := Option.map_eq_some_iff.mp h
      cases hpair
      right
      have hkeep := recalculate_keeps ht
      split at hkeep <;> exact hkeep

theorem updateLease_advances {s s' : ClusterStateSnapshot} {chunkId : UInt64}
    {newStatus : LeaseStatus} {progress : UInt32} {ok : Bool}
    (h : clusterStateUpdateLease s chunkId newStatus progress = some (ok, s')) : Advances s s' := by
  unfold clusterStateUpdateLease at h
  obtain ⟨found, _, h⟩ := Option.bind_eq_some_iff.mp h
  cases found with
  | some i =>
    dsimp only at h
    split at h
    · cases h
    · cases h
      exact Or.inr ⟨rfl, rfl⟩
  | none =>
    dsimp only at h
    split at h
    · cases h
      exact Or.inl rfl
    · obtain ⟨leases, _, hpair⟩ := Option.map_eq_some_iff.mp h
      cases hpair
      exact Or.inr ⟨rfl, rfl⟩

theorem heartbeat_advances {s s' : ClusterStateSnapshot} {workerId : UInt32} {timestampMs : UInt64}
    {ok : Bool} (h : clusterStateProcessHeartbeat s workerId timestampMs = some (ok, s')) :
    Advances s s' := by
  unfold clusterStateProcessHeartbeat at h
  obtain ⟨found, _, h⟩ := Option.bind_eq_some_iff.mp h
  cases found with
  | none =>
    cases h
    exact Or.inl rfl
  | some i =>
    dsimp only at h
    split at h
    · cases h
    · obtain ⟨t, ht, hpair⟩ := Option.map_eq_some_iff.mp h
      cases hpair
      exact Or.inr (recalculate_keeps ht)

/-- **What holds of a history**: the snapshots are identified, those of the present epoch are older
    than the present state or copies of it, and no epoch in use is newer than the last one created. -/
structure HistoryInv (path : CStr) (w : Incarnation) : Prop where
  identified : Identified w.acquired
  behind : ∀ s ∈ w.acquired, s.masterEpoch = w.masterState.masterEpoch →
    s.stateGenerationVersion < w.masterState.stateGenerationVersion ∨ s = w.masterState
  acquiredEpochs : ∀ s ∈ w.acquired, s.masterEpoch ≤ w.createdEpoch
  epoch : w.masterState.masterEpoch ≤ w.createdEpoch
  fileEpoch : ∀ t, walState path w.files = some t → t.masterEpoch ≤ w.createdEpoch

variable {path : CStr} {w : Incarnation}

theorem CanAdvance.lt {s : ClusterStateSnapshot} (h : s.CanAdvance) :
    s.stateGenerationVersion < s.stateGenerationVersion + 1 := by
  rw [UInt64.lt_iff_toNat_lt, UInt64.toNat_add]
  have hmod : (s.stateGenerationVersion.toNat + 1) % 2 ^ 64 = s.stateGenerationVersion.toNat + 1 :=
    Nat.mod_eq_of_lt h
  show s.stateGenerationVersion.toNat < (s.stateGenerationVersion.toNat + 1) % 2 ^ 64
  omega

theorem HistoryInv.advance (h : HistoryInv path w) (hv : w.masterState.CanAdvance)
    {s' : ClusterStateSnapshot} (hs : Advances w.masterState s') :
    HistoryInv path { w with masterState := s' } := by
  rcases hs with rfl | ⟨hepoch, hversion⟩
  · exact h
  · refine ⟨h.identified, fun s hs e => Or.inl ?_, h.acquiredEpochs, hepoch ▸ h.epoch, h.fileEpoch⟩
    show s.stateGenerationVersion < s'.stateGenerationVersion
    rw [hversion]
    rcases h.behind s hs (e.trans hepoch) with hlt | rfl
    · exact UInt64.lt_trans hlt (CanAdvance.lt hv)
    · exact CanAdvance.lt hv

theorem HistoryInv.apply (h : HistoryInv path w) (hv : w.masterState.CanAdvance)
    {r : Option (Bool × ClusterStateSnapshot)}
    (hr : ∀ ok s', r = some (ok, s') → Advances w.masterState s') :
    HistoryInv path (w.apply r) := by
  cases r with
  | none => exact h
  | some p => exact h.advance hv (hr p.1 p.2 rfl)

theorem HistoryInv.persist (h : HistoryInv path w) (outcome : WriteOutcome) :
    HistoryInv path
      { w with files := (clusterStatePersistToWal outcome path w.masterState w.files).2 } := by
  refine ⟨h.identified, h.behind, h.acquiredEpochs, h.epoch, fun t ht => ?_⟩
  rw [walState_persist] at ht
  cases outcome with
  | openFails => exact h.fileEpoch t ht
  | written n =>
    change (if snapshotCodec.size ≤ n then some w.masterState else none) = some t at ht
    split at ht
    · cases ht
      exact h.epoch
    · cases ht

/-- The snapshot handed out is the master state. -/
theorem acquire_contents (s : ClusterStateSnapshot) (ring : SnapshotRing) :
    (clusterStateAcquireSnapshot s ring).1.pool (clusterStateAcquireSnapshot s ring).2 = s :=
  Function.update_self ..

theorem HistoryInv.acquire (h : HistoryInv path w) (ring : SnapshotRing) :
    HistoryInv path { w with ring := ring, acquired := w.acquired ++ [w.masterState] } := by
  -- a snapshot with the pair of the present state is a copy of it
  have hcopy : ∀ s ∈ w.acquired, s.masterEpoch = w.masterState.masterEpoch →
      s.stateGenerationVersion = w.masterState.stateGenerationVersion → s = w.masterState := by
    intro s hs he hv
    refine (h.behind s hs he).resolve_left fun hlt => ?_
    rw [hv] at hlt
    exact UInt64.lt_irrefl _ hlt
  refine ⟨fun s hs t ht he hv => ?_, fun s hs he => ?_, fun s hs => ?_, h.epoch, h.fileEpoch⟩
  · rcases List.mem_append.mp hs with hs | hs <;> rcases List.mem_append.mp ht with ht | ht
    · exact h.identified s hs t ht he hv
    · obtain rfl := List.mem_singleton.mp ht
      exact hcopy s hs he hv
    · obtain rfl := List.mem_singleton.mp hs
      exact (hcopy t ht he.symm hv.symm).symm
    · rw [List.mem_singleton.mp hs, List.mem_singleton.mp ht]
  · rcases List.mem_append.mp hs with hs | hs
    · exact h.behind s hs he
    · exact Or.inr (List.mem_singleton.mp hs)
  · rcases List.mem_append.mp hs with hs | hs
    · exact h.acquiredEpochs s hs
    · rw [List.mem_singleton.mp hs]
      exact h.epoch

/-- A new master starts from its own epoch, or from the file under the file's epoch. -/
theorem boot_cases (path uuid : CStr) (epoch : UInt64) (opens : Bool) (files : Files) :
    (boot path uuid epoch opens files).masterEpoch = epoch ∨
    ∃ t, walState path files = some t ∧ boot path uuid epoch opens files = t.recovered := by
  unfold boot
  rw [recover_walState]
  cases opens with
  | false => exact Or.inl rfl
  | true =>
    cases hwal : walState path files with
    | none => exact Or.inl rfl
    | some t => exact Or.inr ⟨t, rfl, rfl⟩

theorem HistoryInv.restart (h : HistoryInv path w) {uuid : CStr} {epoch : UInt64} (opens : Bool)
    (hepoch : w.createdEpoch < epoch)
    (hnewest : ∀ t, walState path w.files = some t → t.CanAdvance ∧
      ∀ s ∈ w.acquired, s.masterEpoch = t.masterEpoch →
        s.stateGenerationVersion ≤ t.stateGenerationVersion ∨ s = t.recovered) :
    HistoryInv path { w with
      masterState := boot path uuid epoch opens w.files
      ring := emptyRing
      createdEpoch := epoch } := by
  have hle : ∀ {e : UInt64}, e ≤ w.createdEpoch → e ≤ epoch := fun he =>
    UInt64.le_trans he (UInt64.le_of_lt hepoch)
  refine ⟨h.identified, fun s hs he => ?_, fun s hs => hle (h.acquiredEpochs s hs), ?_,
    fun t ht => hle (h.fileEpoch t ht)⟩
  · change s.masterEpoch = (boot path uuid epoch opens w.files).masterEpoch at he
    show s.stateGenerationVersion < (boot path uuid epoch opens w.files).stateGenerationVersion ∨ _
    rcases boot_cases path uuid epoch opens w.files with hfresh | ⟨t, ht, hboot⟩
    · -- no snapshot carries the new epoch
      have hold := h.acquiredEpochs s hs
      rw [he, hfresh] at hold
      exact absurd (UInt64.lt_of_lt_of_le hepoch hold) (UInt64.lt_irrefl _)
    · obtain ⟨hv, hcovered⟩ := hnewest t ht
      rw [hboot] at he ⊢
      rcases hcovered s hs he with hver | rfl
      · exact Or.inl (UInt64.lt_of_le_of_lt hver (CanAdvance.lt hv))
      · exact Or.inr rfl
  · show (boot path uuid epoch opens w.files).masterEpoch ≤ epoch
    rcases boot_cases path uuid epoch opens w.files with hfresh | ⟨t, ht, hboot⟩
    · rw [hfresh]
      exact UInt64.le_refl _
    · rw [hboot]
      exact hle (h.fileEpoch t ht)

theorem historyStep_inv (h : HistoryInv path w) {o : HistoryOp} (hgrow : EpochsGrow w o)
    (hfile : FileIsNewest path w o) : HistoryInv path ((historyMachine path).next w o) := by
  cases o with
  | restart uuid epoch opens => exact h.restart opens hgrow hfile
  | registerWorker worker => exact h.apply hfile fun _ _ hr => register_advances hr
  | updateLease chunkId newStatus progress => exact h.apply hfile fun _ _ hr => updateLease_advances hr
  | processHeartbeat workerId timestampMs => exact h.apply hfile fun _ _ hr => heartbeat_advances hr
  | persist outcome => exact h.persist outcome
  | acquire =>
    show HistoryInv path { w with
      ring := (clusterStateAcquireSnapshot w.masterState w.ring).1
      acquired := w.acquired ++ [_] }
    rw [acquire_contents]
    exact h.acquire _

theorem firstIncarnation_inv (path uuid : CStr) (epoch : UInt64) :
    HistoryInv path (firstIncarnation path uuid epoch) :=
  ⟨nofun, nofun, nofun, UInt64.le_refl epoch, nofun⟩

/-- **When epoch and version identify a snapshot**: in every history of incarnations with growing
    epochs that restarts from a file only when the file is as new as the snapshots handed out, and in
    which no version wraps around, two snapshots with equal epoch and version are equal. -/
theorem snapshots_identified (path uuid : CStr) (epoch : UInt64) (ops : List HistoryOp)
    (hgrow : (historyMachine path).Legal EpochsGrow (firstIncarnation path uuid epoch) ops)
    (hfile : (historyMachine path).Legal (FileIsNewest path) (firstIncarnation path uuid epoch) ops) :
    Identified ((historyMachine path).run (firstIncarnation path uuid epoch) ops).acquired :=
  ((historyMachine path).invariant (HistoryInv path)
    (fun _ _ h hok => historyStep_inv h hok.1 hok.2) (firstIncarnation_inv path uuid epoch)
    (hgrow.and _ hfile)).identified

/-- A worker with four cores. -/
def workerOne : WorkerMember := ⟨1, .value .online, 0, ⟨8192, 0, 4, 0⟩⟩

/-- The first master registers a worker, hands out a snapshot and persists before it stops; the second
    one recovers the file and hands out a snapshot too. -/
def keptRegistration : List HistoryOp :=
  [.registerWorker workerOne, .acquire, .persist (.written snapshotCodec.size),
   .restart ⟨[99], bootUuid_noNul⟩ 101 true, .acquire]

/-- The first master persists before it registers the worker. -/
def lostRegistration : List HistoryOp :=
  [.persist (.written snapshotCodec.size), .registerWorker workerOne, .acquire,
   .restart ⟨[99], bootUuid_noNul⟩ 101 true, .acquire]

/-- The file of both. -/
def walPath : CStr := ⟨[119], by simp⟩

theorem snapshots_identified_keptRegistration :
    Identified ((historyMachine walPath).run
      (firstIncarnation walPath ⟨[99], by simp⟩ 100) keptRegistration).acquired := by
  refine snapshots_identified walPath ⟨[99], by simp⟩ 100 keptRegistration
    ⟨trivial, trivial, trivial, (by decide : (100 : UInt64) < 101), trivial, trivial⟩
    ⟨(by decide +kernel : bootState.stateGenerationVersion.toNat + 1 < 2 ^ 64), trivial, trivial,
      fun t ht => ?_, trivial, trivial⟩
  have hwal := (walState_persist (.written snapshotCodec.size) walPath _ _).symm.trans ht
  obtain rfl := Option.some.inj ((leaves_whole _ _).symm.trans hwal)
  refine ⟨(by decide +kernel : (1 + 1 : UInt64).toNat + 1 < 2 ^ 64), fun s hs _ => Or.inl ?_⟩
  rw [List.mem_singleton.mp hs]
  exact UInt64.le_refl _

/-- **A restart hands out a pair a second time**, for a state without the worker. -/
theorem restart_reuses_version :
    ¬ ∀ (path uuid : CStr) (epoch : UInt64) (ops : List HistoryOp),
      (historyMachine path).Legal EpochsGrow (firstIncarnation path uuid epoch) ops →
      Identified ((historyMachine path).run (firstIncarnation path uuid epoch) ops).acquired := by
  intro h
  have hid := h walPath ⟨[99], by simp⟩ 100 lostRegistration
    ⟨trivial, trivial, trivial, (by decide : (100 : UInt64) < 101), trivial, trivial⟩
  have hrun : ((historyMachine walPath).run (firstIncarnation walPath ⟨[99], by simp⟩ 100)
      lostRegistration).acquired.map (fun s =>
        (s.masterEpoch, s.stateGenerationVersion, s.totalRegisteredWorkers)) =
      [(100, 2, 1), (100, 2, 0)] := by decide +kernel
  obtain ⟨s, rest, hacq, hs, hrest⟩ := List.map_eq_cons_iff.mp hrun
  obtain ⟨t, rest', rfl, ht, -⟩ := List.map_eq_cons_iff.mp hrest
  rw [hacq] at hid
  -- the pairs are equal, so the snapshots would be, and with them the workers they count
  have hsame : s = t := by
    obtain ⟨hse, hsv⟩ := Prod.mk.inj hs
    obtain ⟨hte, htv⟩ := Prod.mk.inj ht
    refine hid s List.mem_cons_self t (List.mem_cons_of_mem _ List.mem_cons_self)
      (hse.trans hte.symm) ?_
    exact (Prod.mk.inj hsv).1.trans (Prod.mk.inj htv).1.symm
  rw [hsame, ht] at hs
  exact absurd hs (by decide)

end VoidOsMerger
