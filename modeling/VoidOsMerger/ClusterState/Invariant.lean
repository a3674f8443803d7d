/-
  File:      VoidOsMerger/ClusterState/Invariant.lean
  Subject:   WHAT EVERY REACHABLE CLUSTER STATE IS, restarts included.

  * `WellFormed` -- counts within the arrays, distinct worker and chunk ids, the bootstrap status
    exactly while no worker is registered, metrics that are the sums over the active workers;
  * `registered_wellFormed`, `beaten_wellFormed`, `leaseSet_wellFormed`, `leaseAdded_wellFormed` --
    the states an operation can leave;
  * `StateRule`, `worldInv_run` -- what the operations keep holds of every reachable state;
  * **`clusterState_wellFormed`** -- every state of every run is well-formed, no operation leaves an
    array, and one that returns false changes no state;
  * `spareZero_rule` -- in every state the slots not in use have id 0.
-/
import VoidOsMerger.ClusterState.Operations
import VoidOsMerger.Base.Table
import Mathlib.Data.List.Nodup

namespace VoidOsMerger

/-! ## 1. Metrics -/

/-- The metrics are the sums over the workers that are online or draining, and their number. -/
structure MetricsOf (ws : List WorkerMember) (m : ClusterMetrics) : Prop where
  aggregateMemory : m.clusterAggregateMemoryBytes.toNat =
    ((ws.filter (·.isActive)).map (·.resources.totalMemoryBytes.toNat)).sum % 2 ^ 64
  allocatedMemory : m.clusterAllocatedMemoryBytes.toNat =
    ((ws.filter (·.isActive)).map (·.resources.reservedMemoryBytes.toNat)).sum % 2 ^ 64
  aggregateCores : m.clusterAggregateCores.toNat =
    ((ws.filter (·.isActive)).map (·.resources.totalCores.toNat)).sum % 2 ^ 32
  allocatedCores : m.clusterAllocatedCores.toNat =
    ((ws.filter (·.isActive)).map (·.resources.reservedCores.toNat)).sum % 2 ^ 32
  activeWorkers : m.activeWorkerCount.toNat = (ws.filter (·.isActive)).length

section Sums

variable {α : Type}

theorem foldl_add_uint64 (f : α → UInt64) : ∀ (l : List α) (a : UInt64),
    (l.foldl (fun a w => a + f w) a).toNat = (a.toNat + (l.map fun w => (f w).toNat).sum) % 2 ^ 64
  | [], a => by
      rw [List.map_nil, List.sum_nil, Nat.add_zero, Nat.mod_eq_of_lt a.toNat_lt]
      rfl
  | w :: l, a => by
      rw [List.foldl_cons, foldl_add_uint64 f l (a + f w), UInt64.toNat_add, Nat.mod_add_mod,
        List.map_cons, List.sum_cons, Nat.add_assoc]

theorem foldl_add_uint32 (f : α → UInt32) : ∀ (l : List α) (a : UInt32),
    (l.foldl (fun a w => a + f w) a).toNat = (a.toNat + (l.map fun w => (f w).toNat).sum) % 2 ^ 32
  | [], a => by
      rw [List.map_nil, List.sum_nil, Nat.add_zero, Nat.mod_eq_of_lt a.toNat_lt]
      rfl
  | w :: l, a => by
      rw [List.foldl_cons, foldl_add_uint32 f l (a + f w), UInt32.toNat_add, Nat.mod_add_mod,
        List.map_cons, List.sum_cons, Nat.add_assoc]

end Sums

/-- Workers that do not count leave the metrics as they are. -/
theorem foldl_addMember_filter : ∀ (ws : List WorkerMember) (m : ClusterMetrics),
    ws.foldl addMember m = (ws.filter (·.isActive)).foldl addMember m
  | [], _ => rfl
  | w :: ws, m => by
      by_cases hw : w.isActive = true
      · rw [List.filter_cons_of_pos hw, List.foldl_cons, List.foldl_cons, foldl_addMember_filter ws]
      · rw [List.filter_cons_of_neg hw, List.foldl_cons, foldl_addMember_filter ws, addMember,
          if_neg hw]

/-- One field of the metrics over active workers: a running sum. -/
theorem foldl_addMember_field {β : Type} [Add β] (get : ClusterMetrics → β) (f : WorkerMember → β)
    (h : ∀ m w, w.isActive = true → get (addMember m w) = get m + f w) :
    ∀ (ws : List WorkerMember) (m : ClusterMetrics), (∀ w ∈ ws, w.isActive = true) →
      get (ws.foldl addMember m) = ws.foldl (fun a w => a + f w) (get m)
  | [], _, _ => rfl
  | w :: ws, m, hws => by
      rw [List.foldl_cons, List.foldl_cons, ← h m w (hws w List.mem_cons_self)]
      exact foldl_addMember_field get f h ws _ fun v hv => hws v (List.mem_cons_of_mem _ hv)

/-- The loop of `internal_recalculate_aggregates` computes the sums. -/
theorem metricsOf_fold {ws : List WorkerMember} (hlen : ws.length < 2 ^ 32) :
    MetricsOf ws (ws.foldl addMember zeroMetrics) := by
  have hactive : ∀ w ∈ ws.filter (·.isActive), w.isActive = true := fun w hw =>
    (List.mem_filter.mp hw).2
  rw [foldl_addMember_filter]
  constructor
  · rw [foldl_addMember_field (·.clusterAggregateMemoryBytes) (·.resources.totalMemoryBytes)
      (fun m w hw => by rw [addMember, if_pos hw]) _ _ hactive, foldl_add_uint64]
    exact congrArg (· % 2 ^ 64) (Nat.zero_add _)
  · rw [foldl_addMember_field (·.clusterAllocatedMemoryBytes) (·.resources.reservedMemoryBytes)
      (fun m w hw => by rw [addMember, if_pos hw]) _ _ hactive, foldl_add_uint64]
    exact congrArg (· % 2 ^ 64) (Nat.zero_add _)
  · rw [foldl_addMember_field (·.clusterAggregateCores) (·.resources.totalCores)
      (fun m w hw => by rw [addMember, if_pos hw]) _ _ hactive, foldl_add_uint32]
    exact congrArg (· % 2 ^ 32) (Nat.zero_add _)
  · rw [foldl_addMember_field (·.clusterAllocatedCores) (·.resources.reservedCores)
      (fun m w hw => by rw [addMember, if_pos hw]) _ _ hactive, foldl_add_uint32]
    exact congrArg (· % 2 ^ 32) (Nat.zero_add _)
  · rw [foldl_addMember_field (·.activeWorkerCount) (fun _ => 1)
      (fun m w hw => by rw [addMember, if_pos hw]) _ _ hactive, foldl_add_uint32]
    have hone : ((ws.filter (·.isActive)).map fun _ => (1 : UInt32).toNat).sum =
        (ws.filter (·.isActive)).length := by
      rw [List.map_const', List.sum_replicate_nat]
      exact Nat.mul_one _
    have hle : (ws.filter (·.isActive)).length ≤ ws.length := List.length_filter_le _ _
    have hzero : zeroMetrics.activeWorkerCount.toNat = 0 := rfl
    rw [hone, hzero, Nat.zero_add, Nat.mod_eq_of_lt (by omega)]

/-! ## 2. Well-formed states -/

/-- Counts within the arrays, distinct ids, and the status that goes with the worker count. -/
structure Shaped (s : ClusterStateSnapshot) : Prop where
  workersNonneg : 0 ≤ s.totalRegisteredWorkers.toInt
  workersFit : s.totalRegisteredWorkers.toInt ≤ clusterMaxWorkers
  workerIds : (s.workers.map (·.workerId)).Nodup
  leasesNonneg : 0 ≤ s.totalActiveLeases.toInt
  leasesFit : s.totalActiveLeases.toInt ≤ clusterMaxActiveLeases
  chunkIds : (s.leases.map (·.chunkId)).Nodup
  boostrap : s.globalStatus = .value .boostrap ↔ s.totalRegisteredWorkers.toInt = 0

structure WellFormed (s : ClusterStateSnapshot) : Prop extends Shaped s where
  metrics : MetricsOf s.workers s.metrics

theorem Shaped.countsInRange {s : ClusterStateSnapshot} (h : Shaped s) : CountsInRange s :=
  ⟨h.workersNonneg, h.workersFit, h.leasesNonneg, h.leasesFit⟩

theorem create_wellFormed (uuid : CStr) (initialEpoch : UInt64) :
    WellFormed (clusterStateCreate uuid initialEpoch).masterState := by
  have hworkers : (clusterStateCreate uuid initialEpoch).masterState.workers = [] := rfl
  have hleases : (clusterStateCreate uuid initialEpoch).masterState.leases = [] := rfl
  refine ⟨⟨Int.le_refl 0, Int.natCast_nonneg _, ?_, Int.le_refl 0, Int.natCast_nonneg _, ?_,
    iff_of_true rfl rfl⟩, ?_⟩
  · rw [hworkers]
    exact List.nodup_nil
  · rw [hleases]
    exact List.nodup_nil
  · rw [hworkers]
    exact ⟨rfl, rfl, rfl, rfl, rfl⟩

/-- The recalculation makes a state well-formed whose counts, ids and status are right. -/
theorem recalculated_wellFormed {s : ClusterStateSnapshot} (h : Shaped s) :
    WellFormed s.recalculated := by
  refine ⟨⟨h.workersNonneg, h.workersFit, h.workerIds, h.leasesNonneg, h.leasesFit, h.chunkIds,
    h.boostrap⟩, metricsOf_fold ?_⟩
  have hlen := h.countsInRange.length_workers
  have hmax : (clusterMaxWorkers : Int) = 32 := rfl
  have hcount := h.workersFit
  show s.workers.length < 2 ^ 32
  omega

/-! ## 3. What one operation can do -/

section Operations

variable {s : ClusterStateSnapshot}

/-- One more worker, of a new id. -/
theorem registered_wellFormed (h : WellFormed s) {worker : WorkerMember}
    (hroom : s.totalRegisteredWorkers.toInt < clusterMaxWorkers)
    (hnew : ∀ w ∈ s.workers, w.workerId ≠ worker.workerId) : WellFormed (s.registered worker) := by
  have hr := h.countsInRange
  have hcounts := registered_countsInRange hr hroom worker
  have hcount := registered_count hr hroom worker
  have hworkers := registered_workers hr hroom worker
  have h₀ := h.workersNonneg
  refine recalculated_wellFormed ⟨hcounts.workersNonneg, hcounts.workersFit, ?_, h.leasesNonneg,
    h.leasesFit, h.chunkIds, ?_⟩
  · show ((s.registered worker).workers.map (·.workerId)).Nodup
    rw [hworkers]
    exact nodup_map_snoc _ h.workerIds hnew
  · show (if s.globalStatus = .value .boostrap then CEnum.value .operational else s.globalStatus) =
        .value .boostrap ↔ (s.registered worker).totalRegisteredWorkers.toInt = 0
    refine iff_of_false ?_ (by omega)
    split
    · exact fun e => by cases e
    · rename_i hb
      exact hb

/-- A worker heard of. -/
theorem beaten_wellFormed (h : WellFormed s) {i : Nat} {w : WorkerMember}
    (hslot : s.workers[i]? = some w) (timestampMs : UInt64) :
    WellFormed (s.beaten i w timestampMs) := by
  refine recalculated_wellFormed ⟨h.workersNonneg, h.workersFit, ?_, h.leasesNonneg, h.leasesFit,
    h.chunkIds, h.boostrap⟩
  show ((s.beaten i w timestampMs).workers.map (·.workerId)).Nodup
  rw [beaten_workers, map_set_key (x := w.beat timestampMs) (·.workerId) hslot rfl]
  exact h.workerIds

/-- A lease of the same chunk in the place of an old one. -/
theorem leaseSet_wellFormed (h : WellFormed s) {i : Nat} {old lease : ChunkLease}
    (hslot : s.leases[i]? = some old) (hid : lease.chunkId = old.chunkId) :
    WellFormed (s.leaseSet i lease) := by
  refine ⟨⟨h.workersNonneg, h.workersFit, h.workerIds, h.leasesNonneg, h.leasesFit, ?_,
    h.boostrap⟩, h.metrics⟩
  rw [leaseSet_leases, map_set_key (x := lease) (·.chunkId) hslot hid]
  exact h.chunkIds

/-- One more lease, of a new chunk. -/
theorem leaseAdded_wellFormed (h : WellFormed s) {lease : ChunkLease}
    (hroom : s.totalActiveLeases.toInt < clusterMaxActiveLeases)
    (hnew : ∀ l ∈ s.leases, l.chunkId ≠ lease.chunkId) : WellFormed (s.leaseAdded lease) := by
  have hcounts := leaseAdded_countsInRange h.countsInRange hroom lease
  refine ⟨⟨h.workersNonneg, h.workersFit, h.workerIds, hcounts.leasesNonneg, hcounts.leasesFit, ?_,
    h.boostrap⟩, h.metrics⟩
  rw [leaseAdded_leases h.countsInRange hroom]
  exact nodup_map_snoc _ h.chunkIds hnew

/-- An operation's result: refused without a change, or a state with `P`. -/
def Outcome (P : ClusterStateSnapshot → Prop) (s : ClusterStateSnapshot)
    (r : Option (Bool × ClusterStateSnapshot)) : Prop :=
  r = some (false, s) ∨ ∃ s', r = some (true, s') ∧ P s'

theorem register_wellFormed (h : WellFormed s) (worker : WorkerMember) :
    Outcome WellFormed s (clusterStateRegisterWorker s worker) := by
  rcases register_cases h.countsInRange worker with ⟨hno, _⟩ | ⟨hroom, hnew, hyes⟩
  · exact Or.inl hno
  · exact Or.inr ⟨_, hyes, registered_wellFormed h hroom hnew⟩

theorem heartbeat_wellFormed (h : WellFormed s) (workerId : UInt32) (timestampMs : UInt64) :
    Outcome WellFormed s (clusterStateProcessHeartbeat s workerId timestampMs) := by
  rcases heartbeat_cases h.countsInRange workerId timestampMs with ⟨hno, _⟩ | ⟨i, w, hslot, _, hyes⟩
  · exact Or.inl hno
  · exact Or.inr ⟨_, hyes, beaten_wellFormed h hslot timestampMs⟩

theorem updateLease_wellFormed (h : WellFormed s) (chunkId : UInt64) (newStatus : LeaseStatus)
    (progress : UInt32) :
    Outcome WellFormed s (clusterStateUpdateLease s chunkId newStatus progress) := by
  rcases updateLease_cases h.countsInRange chunkId newStatus progress with
    ⟨hno, _⟩ | ⟨i, lease, hslot, _, hyes⟩ | ⟨hroom, hnew, hyes⟩
  · exact Or.inl hno
  · exact Or.inr ⟨_, hyes, leaseSet_wellFormed h hslot rfl⟩
  · exact Or.inr ⟨_, hyes, leaseAdded_wellFormed h hroom hnew⟩

end Operations

theorem WellFormed.withGeneration {s : ClusterStateSnapshot} (h : WellFormed s) (g : UInt64) :
    WellFormed { s with stateGenerationVersion := g } :=
  ⟨⟨h.workersNonneg, h.workersFit, h.workerIds, h.leasesNonneg, h.leasesFit, h.chunkIds,
    h.boostrap⟩, h.metrics⟩

/-! ## 4. Runs -/

/-- What makes a property of states one of every reachable state: new states have it, and the
    operations and a new generation keep it. -/
structure StateRule (P : ClusterStateSnapshot → Prop) : Prop where
  create : ∀ uuid initialEpoch, P (clusterStateCreate uuid initialEpoch).masterState
  generation : ∀ {s} g, P s → P { s with stateGenerationVersion := g }
  register : ∀ {s} worker, P s → Outcome P s (clusterStateRegisterWorker s worker)
  heartbeat : ∀ {s} workerId timestampMs, P s →
    Outcome P s (clusterStateProcessHeartbeat s workerId timestampMs)
  updateLease : ∀ {s} chunkId newStatus progress, P s →
    Outcome P s (clusterStateUpdateLease s chunkId newStatus progress)

theorem wellFormed_rule : StateRule WellFormed where
  create := create_wellFormed
  generation g h := h.withGeneration g
  register worker h := register_wellFormed h worker
  heartbeat workerId timestampMs h := heartbeat_wellFormed h workerId timestampMs
  updateLease chunkId newStatus progress h := updateLease_wellFormed h chunkId newStatus progress

/-- A file that only persists of such states have written: too short to be read, or an image. -/
def GoodFile (P : ClusterStateSnapshot → Prop) (bytes : List UInt8) : Prop :=
  bytes.length < snapshotCodec.size ∨ ∃ s, P s ∧ bytes = snapshotCodec.enc s

/-- Every context has the property, and so has what the files hold. -/
structure WorldInv (P : ClusterStateSnapshot → Prop) (w : ClusterWorld) : Prop where
  contexts : ∀ ctx ∈ w.contexts, P ctx.masterState
  files : ∀ path bytes, w.files path = some bytes → GoodFile P bytes

section Runs

variable {P : ClusterStateSnapshot → Prop}

theorem persist_goodFile {s : ClusterStateSnapshot} (h : P s) (n : Nat) :
    GoodFile P ((snapshotCodec.enc s).take n) := by
  by_cases hn : snapshotCodec.size ≤ n
  · exact Or.inr ⟨s, h, snapshotCodec.take_enc_whole s hn⟩
  · exact Or.inl (snapshotCodec.take_enc_short s hn)

/-- A recovery is refused and changes nothing, or restores a state that was persisted. -/
theorem recover_outcome (rule : StateRule P) {files : Files}
    (hfiles : ∀ path bytes, files path = some bytes → GoodFile P bytes)
    (opens : Bool) (path : CStr) (s : ClusterStateSnapshot) :
    Outcome P s (some (clusterStateRecoverFromWal opens path s files)) := by
  unfold clusterStateRecoverFromWal
  cases hfile : files path with
  | none => exact Or.inl rfl
  | some bytes =>
      dsimp only
      split
      · exact Or.inl rfl
      · rename_i hread
        right
        refine ⟨_, rfl, ?_⟩
        rcases hfiles path bytes hfile with hshort | ⟨t, ht, rfl⟩
        · simp [hshort] at hread
        · rw [snapshotCodec.take_enc_whole t (Nat.le_refl _), snapshotCodec.dec_enc]
          exact rule.generation _ ht

/-- What an operation on one context can do: it stays within the arrays, keeps the invariant, and
    changes no state when it answers false. -/
theorem onContext_spec {w : ClusterWorld} (h : WorldInv P w) (i : Nat)
    {f : ClusterStateSnapshot → Option (Bool × ClusterStateSnapshot)}
    (hf : ∀ s, P s → Outcome P s (f s)) :
    WorldInv P (onContext w i f).1 ∧ (onContext w i f).2 ≠ none ∧
      ((onContext w i f).2 = some false → (onContext w i f).1.contexts = w.contexts) := by
  unfold onContext
  cases hget : w.contexts[i]? with
  | none => exact ⟨h, by simp, fun _ => rfl⟩
  | some ctx =>
      have hctx := h.contexts ctx (List.mem_of_getElem? hget)
      rcases hf ctx.masterState hctx with hno | ⟨s', hyes, hwf⟩
      · have hsame : w.contexts.set i ctx = w.contexts := by
          obtain ⟨hlt, rfl⟩ := List.getElem?_eq_some_iff.mp hget
          exact List.set_getElem_self hlt
        dsimp only
        rw [hno]
        dsimp only
        rw [hsame]
        exact ⟨h, by simp, fun _ => rfl⟩
      · dsimp only
        rw [hyes]
        refine ⟨⟨fun c hc => ?_, h.files⟩, by simp, by simp⟩
        rcases List.mem_or_eq_of_mem_set hc with hc | rfl
        · exact h.contexts c hc
        · exact hwf

/-- One operation. -/
theorem clusterStep_spec (rule : StateRule P) {w : ClusterWorld} (h : WorldInv P w)
    (op : ClusterOp) :
    WorldInv P (clusterMachine.next w op) ∧ clusterMachine.answer w op ≠ none ∧
      (clusterMachine.answer w op = some false →
        (clusterMachine.next w op).contexts = w.contexts) := by
  cases op with
  | create uuid initialEpoch =>
      refine ⟨⟨fun ctx hctx => ?_, h.files⟩, nofun, nofun⟩
      rcases List.mem_append.mp hctx with hctx | hctx
      · exact h.contexts ctx hctx
      · rw [List.mem_singleton.mp hctx]
        exact rule.create uuid initialEpoch
  | registerWorker i worker => exact onContext_spec h i fun s hs => rule.register worker hs
  | updateLease i chunkId newStatus progress =>
      exact onContext_spec h i fun s hs => rule.updateLease chunkId newStatus progress hs
  | processHeartbeat i workerId timestampMs =>
      exact onContext_spec h i fun s hs => rule.heartbeat workerId timestampMs hs
  | recoverFromWal i path opens =>
      exact onContext_spec h i fun s _ => recover_outcome rule h.files opens path s
  | persistToWal i path outcome =>
      unfold Machine.next Machine.answer clusterMachine
      dsimp only
      cases hget : w.contexts[i]? with
      | none => exact ⟨h, by simp, fun _ => rfl⟩
      | some ctx =>
          refine ⟨⟨h.contexts, ?_⟩, by simp, fun _ => rfl⟩
          cases outcome with
          | openFails => exact h.files
          | written n =>
              intro p bytes hp
              dsimp only [clusterStatePersistToWal] at hp
              split at hp
              · rw [← Option.some.inj hp]
                exact persist_goodFile (h.contexts ctx (List.mem_of_getElem? hget)) n
              · exact h.files p bytes hp

/-- Every run keeps such a property. -/
theorem worldInv_run (rule : StateRule P) (ops : List ClusterOp) :
    WorldInv P (clusterMachine.run emptyWorld ops) :=
  clusterMachine.invariant_all (WorldInv P) (fun _ op hw => (clusterStep_spec rule hw op).1) ops
    ⟨fun _ hctx => absurd hctx List.not_mem_nil, fun _ _ hp => by cases hp⟩

end Runs

/-- **Every reachable cluster state is well-formed**, whatever the operations, the contexts and the
    restarts from files that persists have written: the counts are within the arrays and the ids
    distinct, the status is bootstrap exactly while no worker is registered, the metrics are the sums
    over the active workers. No operation accesses an array outside its bounds, and an operation that
    returns false leaves every master state as it was. -/
theorem clusterState_wellFormed (ops : List ClusterOp) :
    (∀ ctx ∈ (clusterMachine.run emptyWorld ops).contexts, WellFormed ctx.masterState) ∧
    ∀ op, clusterMachine.answer (clusterMachine.run emptyWorld ops) op ≠ none ∧
      (clusterMachine.answer (clusterMachine.run emptyWorld ops) op = some false →
        (clusterMachine.next (clusterMachine.run emptyWorld ops) op).contexts =
          (clusterMachine.run emptyWorld ops).contexts) := by
  have hinv := worldInv_run wellFormed_rule ops
  exact ⟨hinv.contexts, fun op => (clusterStep_spec wellFormed_rule hinv op).2⟩

/-! ## 5. Spare slots -/

/-- The slots not in use have id 0. -/
structure SpareZero (s : ClusterStateSnapshot) : Prop where
  workers : ∀ w ∈ s.spareWorkers, w.workerId = 0
  leases : ∀ l ∈ s.spareLeases, l.chunkId = 0

theorem create_spareZero (uuid : CStr) (initialEpoch : UInt64) :
    SpareZero (clusterStateCreate uuid initialEpoch).masterState := by
  constructor
  · intro w hw
    have hw : w ∈ (Vector.replicate clusterMaxWorkers zeroWorker).toList := List.mem_of_mem_drop hw
    rw [Vector.toList_replicate] at hw
    rw [List.eq_of_mem_replicate hw]
    rfl
  · intro l hl
    have hl : l ∈ (Vector.replicate clusterMaxActiveLeases (zeroLease 0)).toList :=
      List.mem_of_mem_drop hl
    rw [Vector.toList_replicate] at hl
    rw [List.eq_of_mem_replicate hl]
    rfl

/-- Only a registration or a new lease takes a spare slot, and none is ever given up. -/
theorem spareZero_rule : StateRule fun s => WellFormed s ∧ SpareZero s where
  create uuid initialEpoch := ⟨create_wellFormed uuid initialEpoch, create_spareZero uuid initialEpoch⟩
  generation g h := ⟨h.1.withGeneration g, h.2.workers, h.2.leases⟩
  register worker h := by
    rcases register_cases h.1.countsInRange worker with ⟨hno, _⟩ | ⟨hroom, hnew, hyes⟩
    · exact Or.inl hno
    · refine Or.inr ⟨_, hyes, registered_wellFormed h.1 hroom hnew, ?_, h.2.leases⟩
      rw [registered_spareWorkers h.1.countsInRange hroom]
      exact fun w hw => h.2.workers w (List.mem_of_mem_drop hw)
  heartbeat workerId timestampMs h := by
    rcases heartbeat_cases h.1.countsInRange workerId timestampMs with
      ⟨hno, _⟩ | ⟨i, w, hslot, _, hyes⟩
    · exact Or.inl hno
    · refine Or.inr ⟨_, hyes, beaten_wellFormed h.1 hslot timestampMs, ?_, h.2.leases⟩
      obtain ⟨hlt, -⟩ := List.getElem?_eq_some_iff.mp hslot
      rw [beaten_spareWorkers hlt]
      exact h.2.workers
  updateLease chunkId newStatus progress h := by
    rcases updateLease_cases h.1.countsInRange chunkId newStatus progress with
      ⟨hno, _⟩ | ⟨i, lease, hslot, _, hyes⟩ | ⟨hroom, hnew, hyes⟩
    · exact Or.inl hno
    · refine Or.inr ⟨_, hyes, leaseSet_wellFormed h.1 hslot rfl, h.2.workers, ?_⟩
      obtain ⟨hlt, -⟩ := List.getElem?_eq_some_iff.mp hslot
      rw [leaseSet_spareLeases hlt]
      exact h.2.leases
    · refine Or.inr ⟨_, hyes, leaseAdded_wellFormed h.1 hroom hnew, h.2.workers, ?_⟩
      rw [leaseAdded_spareLeases h.1.countsInRange hroom]
      exact fun l hl => h.2.leases l (List.mem_of_mem_drop hl)

end VoidOsMerger
