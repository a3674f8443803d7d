/-
  File:      VoidOsMerger/ClusterState/LeaseCalls.lean
  Subject:   THE LEASE TABLE AS A RECORD OF THE CALLS.

  A master state from its creation on, under any calls on it. The log holds the lease updates that
  were accepted; `leaseAfter` reads from the log what the table is to hold of a chunk.

  * `leaseAfter_snoc_self`, `leaseAfter_snoc_other` -- one more call in the log updates one lease;
  * `call_leasesTell` -- one call keeps table and log in step;
  * **`leases_tell_calls`** -- so after any calls a chunk with an accepted call has one lease, with the
    last status and progress and the number of failures, and an update is refused exactly when its
    chunk has no lease and 128 chunks have one.
-/
import Mathlib.Data.Finset.Card
import Mathlib.Data.Finset.Dedup
import VoidOsMerger.Base.Table
import VoidOsMerger.ClusterState.Damaged
import VoidOsMerger.ClusterState.Invariant

namespace VoidOsMerger

/-! ## 1. Calls and their log -/

/-- A master state under calls; a call that would leave the arrays answers `none`. -/
def stateCallMachine : Machine ClusterStateSnapshot StateCall (Option Bool) where
  step s c :=
    match c.apply s with
    | none => (s, none)
    | some (ok, s') => (s', some ok)

theorem stateCall_next {s s' : ClusterStateSnapshot} (c : StateCall) {ok : Bool}
    (h : c.apply s = some (ok, s')) : stateCallMachine.next s c = s' := by
  unfold Machine.next stateCallMachine
  dsimp only
  rw [h]

theorem stateCall_answer {s s' : ClusterStateSnapshot} (c : StateCall) {ok : Bool}
    (h : c.apply s = some (ok, s')) : stateCallMachine.answer s c = some ok := by
  unfold Machine.answer stateCallMachine
  dsimp only
  rw [h]

/-- A call of `cluster_state_update_lease`. -/
structure LeaseCall where
  chunkId : UInt64
  newStatus : LeaseStatus
  progress : UInt32
  deriving DecidableEq, Repr

/-- A call that counts as a failed attempt. -/
def LeaseCall.fails (c : LeaseCall) : Bool :=
  c.newStatus == .failed || c.newStatus == .timedOut

/-- The lease update a call is, when it is one and returns true. -/
def acceptedLeaseCall (s : ClusterStateSnapshot) : StateCall → List LeaseCall
  | .updateLease chunkId newStatus progress =>
    if stateCallMachine.answer s (.updateLease chunkId newStatus progress) = some true then
      [⟨chunkId, newStatus, progress⟩]
    else []
  | .registerWorker _ | .processHeartbeat _ _ => []

/-- The calls about one chunk. -/
def callsOf (calls : List LeaseCall) (chunkId : UInt64) : List LeaseCall :=
  calls.filter fun c => c.chunkId == chunkId

/-- The lease the calls leave: status and progress of the last one, and the number of failures. -/
def leaseAfter (calls : List LeaseCall) (chunkId : UInt64) : Option ChunkLease :=
  (callsOf calls chunkId).getLast?.map fun last =>
    { chunkId := chunkId
      status := .value last.newStatus
      progressPercentage := last.progress
      failureRetryCount := UInt32.ofNat ((callsOf calls chunkId).countP LeaseCall.fails) }

theorem chunkId_of_leaseAfter {calls : List LeaseCall} {chunkId : UInt64} {lease : ChunkLease}
    (h : leaseAfter calls chunkId = some lease) : lease.chunkId = chunkId := by
  obtain ⟨last, _, rfl⟩ := Option.map_eq_some_iff.mp h
  rfl

theorem leaseAfter_eq_none_iff {calls : List LeaseCall} {chunkId : UInt64} :
    leaseAfter calls chunkId = none ↔ ∀ c ∈ calls, c.chunkId ≠ chunkId := by
  unfold leaseAfter callsOf
  rw [Option.map_eq_none_iff, List.getLast?_eq_none_iff, List.filter_eq_nil_iff]
  simp only [beq_iff_eq]

theorem leaseAfter_snoc_other (calls : List LeaseCall) {c : LeaseCall} {chunkId : UInt64}
    (h : c.chunkId ≠ chunkId) : leaseAfter (calls ++ [c]) chunkId = leaseAfter calls chunkId := by
  have hsame : callsOf (calls ++ [c]) chunkId = callsOf calls chunkId := by
    simp [callsOf, h]
  unfold leaseAfter
  rw [hsame]

/-- One more call updates the lease, or a zeroed one. -/
theorem leaseAfter_snoc_self (calls : List LeaseCall) (c : LeaseCall) :
    leaseAfter (calls ++ [c]) c.chunkId =
      some (((leaseAfter calls c.chunkId).getD (zeroLease c.chunkId)).update c.newStatus c.progress) := by
  have hsnoc : callsOf (calls ++ [c]) c.chunkId = callsOf calls c.chunkId ++ [c] := by
    simp [callsOf]
  -- What both sides count as failures, also when there is no lease yet.
  have hcount : ((leaseAfter calls c.chunkId).getD (zeroLease c.chunkId)).failureRetryCount =
      UInt32.ofNat ((callsOf calls c.chunkId).countP LeaseCall.fails) := by
    unfold leaseAfter
    cases hlast : (callsOf calls c.chunkId).getLast? with
    | none =>
      rw [List.getLast?_eq_none_iff.mp hlast]
      rfl
    | some last => rfl
  have hid : ((leaseAfter calls c.chunkId).getD (zeroLease c.chunkId)).chunkId = c.chunkId := by
    cases hl : leaseAfter calls c.chunkId with
    | none => rfl
    | some lease => exact chunkId_of_leaseAfter hl
  have hfails : (c.newStatus = .failed ∨ c.newStatus = .timedOut) ↔ c.fails = true := by
    simp [LeaseCall.fails]
  unfold ChunkLease.update
  rw [hcount, hid, leaseAfter, hsnoc, List.getLast?_concat, Option.map_some, List.countP_append]
  congr 2
  by_cases hf : c.fails = true
  · rw [if_pos (hfails.mpr hf), List.countP_singleton, if_pos hf]
    exact UInt32.ofNat_add _ 1
  · rw [if_neg fun h => hf (hfails.mp h), List.countP_singleton, if_neg hf, Nat.add_zero]

/-! ## 2. Table and log in step -/

/-- The table holds the leases the calls leave, and no others. -/
structure LeasesTell (s : ClusterStateSnapshot) (calls : List LeaseCall) : Prop where
  counts : CountsInRange s
  chunkIds : (s.leases.map (·.chunkId)).Nodup
  tells : ∀ lease, lease ∈ s.leases ↔ leaseAfter calls lease.chunkId = some lease

section Step

variable {s : ClusterStateSnapshot} {calls : List LeaseCall}

theorem create_leasesTell (uuid : CStr) (initialEpoch : UInt64) :
    LeasesTell (clusterStateCreate uuid initialEpoch).masterState [] := by
  have h := create_wellFormed uuid initialEpoch
  have hleases : (clusterStateCreate uuid initialEpoch).masterState.leases = [] := rfl
  refine ⟨h.countsInRange, h.chunkIds, fun lease => ?_⟩
  rw [hleases]
  exact iff_of_false List.not_mem_nil nofun

/-- A chunk without a lease is one without a call. -/
theorem LeasesTell.leaseAfter_none (h : LeasesTell s calls) {chunkId : UInt64}
    (hno : ∀ l ∈ s.leases, l.chunkId ≠ chunkId) : leaseAfter calls chunkId = none := by
  cases hl : leaseAfter calls chunkId with
  | none => rfl
  | some lease =>
    have hid := chunkId_of_leaseAfter hl
    exact absurd hid (hno lease ((h.tells lease).mpr (hid.symm ▸ hl)))

theorem leaseSet_leasesTell (h : LeasesTell s calls) {i : Nat} {lease : ChunkLease}
    (hslot : s.leases[i]? = some lease) (newStatus : LeaseStatus) (progress : UInt32) :
    LeasesTell (s.leaseSet i (lease.update newStatus progress))
      (calls ++ [⟨lease.chunkId, newStatus, progress⟩]) := by
  have hlease := (h.tells lease).mp (List.mem_of_getElem? hslot)
  have hnew := leaseAfter_snoc_self calls ⟨lease.chunkId, newStatus, progress⟩
  rw [hlease, Option.getD_some] at hnew
  refine ⟨⟨h.counts.workersNonneg, h.counts.workersFit, h.counts.leasesNonneg, h.counts.leasesFit⟩,
    ?_, fun l => ?_⟩
  · have hids : (s.leases.set i (lease.update newStatus progress)).map (·.chunkId) =
        s.leases.map (·.chunkId) := map_set_key _ hslot rfl
    rw [leaseSet_leases, hids]
    exact h.chunkIds
  · rw [leaseSet_leases]
    by_cases hid : l.chunkId = lease.chunkId
    · rw [hid, hnew]
      constructor
      · intro hl
        rcases mem_set_key (·.chunkId) h.chunkIds hslot hl with ⟨_, hne⟩ | rfl
        · exact absurd hid hne
        · rfl
      · intro hl
        rw [← Option.some.inj hl]
        exact List.mem_set (List.getElem?_eq_some_iff.mp hslot).1 _
    · rw [leaseAfter_snoc_other calls (Ne.symm hid), ← h.tells l]
      constructor
      · intro hl
        rcases mem_set_key (·.chunkId) h.chunkIds hslot hl with ⟨hl, _⟩ | rfl
        · exact hl
        · exact absurd rfl hid
      · intro hl
        exact mem_set_of_key (·.chunkId) hslot hl hid

theorem leaseAdded_leasesTell (h : LeasesTell s calls) {chunkId : UInt64}
    (hroom : s.totalActiveLeases.toInt < clusterMaxActiveLeases)
    (hno : ∀ l ∈ s.leases, l.chunkId ≠ chunkId) (newStatus : LeaseStatus) (progress : UInt32) :
    LeasesTell (s.leaseAdded ((zeroLease chunkId).update newStatus progress))
      (calls ++ [⟨chunkId, newStatus, progress⟩]) := by
  have hnew := leaseAfter_snoc_self calls ⟨chunkId, newStatus, progress⟩
  rw [h.leaseAfter_none hno, Option.getD_none] at hnew
  refine ⟨leaseAdded_countsInRange h.counts hroom _, ?_, fun l => ?_⟩
  · rw [leaseAdded_leases h.counts hroom]
    exact nodup_map_snoc _ h.chunkIds hno
  · rw [leaseAdded_leases h.counts hroom, List.mem_append, List.mem_singleton]
    by_cases hid : l.chunkId = chunkId
    · rw [hid, hnew, Option.some.injEq, eq_comm]
      exact or_iff_right fun hl => hno l hl hid
    · rw [leaseAfter_snoc_other calls (Ne.symm hid), ← h.tells l]
      exact or_iff_left fun e => hid (congrArg ChunkLease.chunkId e)

/-- **One call.** -/
theorem call_leasesTell (h : LeasesTell s calls) (c : StateCall) :
    LeasesTell (stateCallMachine.next s c) (calls ++ acceptedLeaseCall s c) := by
  cases c with
  | registerWorker worker =>
    unfold acceptedLeaseCall
    rw [List.append_nil]
    rcases register_cases h.counts worker with ⟨hno, _⟩ | ⟨hroom, _, hyes⟩
    · rw [stateCall_next (.registerWorker worker) hno]
      exact h
    · rw [stateCall_next (.registerWorker worker) hyes]
      exact ⟨registered_countsInRange h.counts hroom worker, h.chunkIds, h.tells⟩
  | processHeartbeat workerId timestampMs =>
    unfold acceptedLeaseCall
    rw [List.append_nil]
    rcases heartbeat_cases h.counts workerId timestampMs with ⟨hno, _⟩ | ⟨i, w, _, _, hyes⟩
    · rw [stateCall_next (.processHeartbeat workerId timestampMs) hno]
      exact h
    · rw [stateCall_next (.processHeartbeat workerId timestampMs) hyes]
      exact ⟨beaten_countsInRange h.counts i w timestampMs, h.chunkIds, h.tells⟩
  | updateLease chunkId newStatus progress =>
    dsimp only [acceptedLeaseCall]
    rcases updateLease_cases h.counts chunkId newStatus progress with
      ⟨hno, _⟩ | ⟨i, lease, hslot, rfl, hyes⟩ | ⟨hroom, hnew, hyes⟩
    · rw [stateCall_next (.updateLease _ _ _) hno, stateCall_answer (.updateLease _ _ _) hno, if_neg (by simp), List.append_nil]
      exact h
    · rw [stateCall_next (.updateLease _ _ _) hyes, stateCall_answer (.updateLease _ _ _) hyes, if_pos rfl]
      exact leaseSet_leasesTell h hslot newStatus progress
    · rw [stateCall_next (.updateLease _ _ _) hyes, stateCall_answer (.updateLease _ _ _) hyes, if_pos rfl]
      exact leaseAdded_leasesTell h hroom hnew newStatus progress

/-- The one lease of a chunk with a call. -/
theorem LeasesTell.leases_of (h : LeasesTell s calls) {chunkId : UInt64} {lease : ChunkLease}
    (hl : leaseAfter calls chunkId = some lease) :
    s.leases.filter (fun l => l.chunkId == chunkId) = [lease] := by
  obtain rfl := chunkId_of_leaseAfter hl
  have hmem : lease ∈ s.leases := (h.tells lease).mpr hl
  have hnodup : s.leases.Nodup := List.Nodup.of_map _ h.chunkIds
  rw [List.filter_congr (q := fun l => l == lease)]
  · rw [List.filter_beq, List.count_eq_one_of_mem hnodup hmem]
    rfl
  · intro l hl
    rw [Bool.eq_iff_iff, beq_iff_eq, beq_iff_eq]
    exact ⟨fun e => List.inj_on_of_nodup_map h.chunkIds hl hmem e, fun e => congrArg _ e⟩

theorem LeasesTell.chunkIds_card (h : LeasesTell s calls) :
    ((s.leases.map (·.chunkId)).toFinset.card : Int) = s.totalActiveLeases.toInt := by
  rw [List.toFinset_card_of_nodup h.chunkIds, List.length_map, h.counts.length_leases]
  exact Int.toNat_of_nonneg h.counts.leasesNonneg

end Step

/-! ## 3. The table after any calls -/

/-- **The lease table tells the calls.** After a creation and any calls, a chunk with an accepted
    lease update has exactly one lease: with the status and the progress of the last accepted update,
    and as retry count the number of accepted updates to failed or timed out, modulo `2 ^ 32`. A
    further update returns false exactly when its chunk has no lease and 128 distinct chunks have
    one. -/
theorem leases_tell_calls (uuid : CStr) (initialEpoch : UInt64) (ops : List StateCall) :
    let created := (clusterStateCreate uuid initialEpoch).masterState
    let s := stateCallMachine.run created ops
    let calls := stateCallMachine.log acceptedLeaseCall created ops
    (∀ chunkId, (∃ c ∈ calls, c.chunkId = chunkId) →
      ∃ last, (callsOf calls chunkId).getLast? = some last ∧
        s.leases.filter (fun l => l.chunkId == chunkId) =
          [{ chunkId := chunkId
             status := .value last.newStatus
             progressPercentage := last.progress
             failureRetryCount := UInt32.ofNat ((callsOf calls chunkId).countP LeaseCall.fails) }]) ∧
    ∀ chunkId newStatus progress, ∃ ok,
      stateCallMachine.answer s (.updateLease chunkId newStatus progress) = some ok ∧
      (ok = false ↔ (∀ l ∈ s.leases, l.chunkId ≠ chunkId) ∧
        (s.leases.map (·.chunkId)).toFinset.card = clusterMaxActiveLeases) := by
  intro created s calls
  have h : LeasesTell s calls := stateCallMachine.invariant_log acceptedLeaseCall LeasesTell
    (fun _ c _ ht _ => call_leasesTell ht c) (create_leasesTell uuid initialEpoch)
    (stateCallMachine.legal_true created ops)
  constructor
  · intro chunkId hcall
    cases hl : leaseAfter calls chunkId with
    | none =>
      obtain ⟨c, hc, hid⟩ := hcall
      exact absurd hid (leaseAfter_eq_none_iff.mp hl c hc)
    | some lease =>
      obtain ⟨last, hlast, rfl⟩ := Option.map_eq_some_iff.mp hl
      exact ⟨last, hlast, h.leases_of hl⟩
  · intro chunkId newStatus progress
    have hcard := h.chunkIds_card
    rcases updateLease_cases h.counts chunkId newStatus progress with
      ⟨hno, hfull, hnone⟩ | ⟨i, lease, hslot, hid, hyes⟩ | ⟨hroom, _, hyes⟩
    · exact ⟨false, stateCall_answer (.updateLease _ _ _) hno, iff_of_true rfl ⟨hnone, by omega⟩⟩
    · refine ⟨true, stateCall_answer (.updateLease _ _ _) hyes, iff_of_false nofun fun hr => ?_⟩
      exact hr.1 lease (List.mem_of_getElem? hslot) hid
    · refine ⟨true, stateCall_answer (.updateLease _ _ _) hyes, iff_of_false nofun fun hr => ?_⟩
      omega

end VoidOsMerger
