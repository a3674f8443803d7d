/-
  File:      VoidOsMerger/Registry/Steps.lean
  Subject:   WHAT AN OPERATION DOES TO ONE RECORD of the registry.

  * `RecordStep` -- a record before and after an operation: as it was, or what the operation writes
    to the worker it names, or marked by a sweep;
  * **`records_step`** -- an operation makes such a step on every record, or adds a new one at the end.
-/
import VoidOsMerger.Registry.Refinement

namespace VoidOsMerger

/-- A record before and after an operation. -/
inductive RecordStep : RegistryOp → WorkerRecord → WorkerRecord → Prop
  | kept (o : RegistryOp) (r : WorkerRecord) : RecordStep o r r
  | rejoin {r : WorkerRecord} {workerId transport : CStr} {caps : VomWorkerCapabilities}
      {nowMs : UInt64} (hid : r.key = workerId) :
      RecordStep (.join workerId transport caps nowMs) r (r.rejoin caps nowMs)
  | heartbeat {r : WorkerRecord} {workerId : CStr} {dynamicCaps : VomWorkerCapabilities}
      {nowMs : UInt64} (hid : r.key = workerId) :
      RecordStep (.heartbeat workerId dynamicCaps nowMs) r (r.heartbeat dynamicCaps nowMs)
  | leave {r : WorkerRecord} {workerId : CStr} (hid : r.key = workerId) :
      RecordStep (.leave workerId) r r.disconnect
  | track {r : WorkerRecord} {workerId : CStr} {chunkId : UInt64} (hid : r.key = workerId) :
      RecordStep (.track workerId chunkId) r (r.track chunkId)
  | untrack {r : WorkerRecord} {workerId : CStr} {chunkId : UInt64} (hid : r.key = workerId) :
      RecordStep (.untrack workerId chunkId) r (r.untrack chunkId)
  | marked {r : WorkerRecord} {nowMs timeoutMs : UInt64} {maxOut : Int}
      (hstale : r.stale nowMs timeoutMs = true) :
      RecordStep (.sweep nowMs timeoutMs maxOut) r r.disconnect

/-- The records after an operation, one by one. -/
abbrev RecordsStep (o : RegistryOp) (s s' : RegistrySnapshot) : Prop :=
  List.Forall₂ (RecordStep o) s.records s'.records

theorem recordsStep_refl (o : RegistryOp) (s : RegistrySnapshot) : RecordsStep o s s :=
  List.forall₂_same.mpr fun r _ => .kept o r

section Directed

variable {o : RegistryOp} {s : RegistrySnapshot} {f : WorkerRecord → WorkerRecord}

theorem recordsStep_update {p : WorkerRecord → Bool}
    (hf : ∀ r, p r = true → RecordStep o r (f r)) : RecordsStep o s (s.update p f) :=
  forall₂_modifyFirst (fun r => .kept o r) fun r hr => hf r (List.find?_some hr)

theorem recordsStep_updateKnown {workerId : CStr}
    (hf : ∀ r : WorkerRecord, r.key = workerId → RecordStep o r (f r)) :
    RecordsStep o s (s.updateKnown workerId f).1 := by
  rcases updateKnown_cases s workerId f with ⟨r, -, heq⟩ | ⟨-, heq⟩
  · rw [heq]
    exact recordsStep_update fun r hr => hf r (r.hasId_iff.mp hr)
  · rw [heq]
    exact recordsStep_refl o s

end Directed

/-- **What an operation does to the records**: a step on each of them, or a new worker at the end. -/
theorem records_step (s : RegistrySnapshot) (o : RegistryOp) :
    RecordsStep o s (registryMachine.next s o) ∨
    ∃ workerId transport caps nowMs, o = .join workerId transport caps nowMs ∧
      s.records.find? (·.hasId workerId) = none ∧
      (registryMachine.next s o).records =
        s.records ++ [WorkerRecord.fresh workerId transport caps nowMs] := by
  cases o with
  | join workerId transport caps nowMs =>
    unfold Machine.next registryMachine
    dsimp only
    rcases join_cases s workerId transport caps nowMs with ⟨r, -, heq⟩ | ⟨-, -, heq⟩ |
      ⟨hfind, -, s', heq, hrecords, -⟩
    · rw [heq]
      exact Or.inl (recordsStep_update fun r hr => .rejoin (r.hasId_iff.mp hr))
    · rw [heq]
      exact Or.inl (recordsStep_refl _ s)
    · rw [heq]
      exact Or.inr ⟨workerId, transport, caps, nowMs, rfl, hfind, hrecords⟩
  | heartbeat workerId dynamicCaps nowMs =>
    exact Or.inl (recordsStep_updateKnown fun _ hid => .heartbeat hid)
  | leave workerId => exact Or.inl (recordsStep_updateKnown fun _ hid => .leave hid)
  | track workerId chunkId =>
    left
    unfold Machine.next registryMachine
    dsimp only
    rcases track_cases s workerId chunkId with ⟨-, heq⟩ | ⟨r, -, -, heq⟩
    · rw [heq]
      exact recordsStep_refl _ s
    · rw [heq]
      exact recordsStep_update fun r hr => .track (r.hasId_iff.mp hr)
  | untrack workerId chunkId =>
    left
    unfold Machine.next registryMachine
    dsimp only
    rcases untrack_cases s workerId chunkId with ⟨-, heq⟩ | ⟨-, heq⟩
    · rw [heq]
      exact recordsStep_update fun r hr => .untrack (r.hasId_iff.mp (Bool.and_eq_true_iff.mp hr).1)
    · rw [heq]
      exact recordsStep_refl _ s
  | sweep nowMs timeoutMs maxOut =>
    left
    unfold Machine.next registryMachine
    dsimp only
    by_cases hmax : maxOut ≤ 0
    · rw [sweepStale_nonpos s nowMs timeoutMs hmax]
      exact recordsStep_refl _ s
    · unfold RecordsStep
      rw [sweepStale_records s nowMs timeoutMs hmax, List.forall₂_map_right_iff]
      refine List.forall₂_same.mpr fun r _ => ?_
      unfold WorkerRecord.mark
      split
      · rename_i hstale
        exact .marked hstale
      · exact .kept _ r

/-! ## What a step keeps -/

/-- Id and endpoint of a record never change. -/
theorem RecordStep.keeps {o : RegistryOp} {r r' : WorkerRecord} (h : RecordStep o r r') :
    r'.key = r.key ∧ r'.transportEndpoint = r.transportEndpoint := by
  cases h with
  | track hid =>
    unfold WorkerRecord.track
    split <;> exact ⟨rfl, rfl⟩
  | _ => exact ⟨rfl, rfl⟩

end VoidOsMerger
