/-
  File:      VoidOsMerger/Registry/Registrations.lean
  Subject:   WHAT IS LEFT OF A JOIN.

  A join stores the first 63 bytes of the worker id and of the endpoint; every lookup compares with
  the whole id. A join of a known worker writes status, time and capabilities, not the endpoint.

  * `mem_keys_run` -- an id that is in the registry stays there;
  * **`join_found_iff`** -- after a granted join, and whatever happens then, the calls with its id find
    the worker exactly when the id has at most 63 bytes;
  * `RegistrationsTold` -- records and granted joins: the endpoint is that of a worker's first join,
    the static capabilities are those of its last (`registrations_told`);
  * **`latest_registration_iff`** -- so a worker's record holds its last join exactly when that had the
    endpoint of the first one.
-/
import VoidOsMerger.Registry.Steps

namespace VoidOsMerger

/-! ## 1. Ids in the registry -/

section Keys

variable {s s' : RegistrySnapshot} {o : RegistryOp} {id : CStr}

theorem RecordsStep.keys (h : RecordsStep o s s') :
    s'.records.map (·.key) = s.records.map (·.key) :=
  map_eq_of_forall₂ h fun _ _ hr => hr.keeps.1

theorem mem_keys_next (h : id ∈ s.records.map (·.key)) :
    id ∈ (registryMachine.next s o).records.map (·.key) := by
  rcases records_step s o with hstep | ⟨_, _, _, _, _, _, hrecords⟩
  · rw [hstep.keys]
    exact h
  · rw [hrecords, List.map_append]
    exact List.mem_append_left _ h

/-- No operation takes a worker out. -/
theorem mem_keys_run (ops : List RegistryOp) (h : id ∈ s.records.map (·.key)) :
    id ∈ (registryMachine.run s ops).records.map (·.key) :=
  registryMachine.invariant_all (fun s => id ∈ s.records.map (·.key)) (fun _ _ => mem_keys_next) ops h

/-- Ids in the registry have at most 63 bytes. -/
theorem strlen_of_mem_keys (h : id ∈ s.records.map (·.key)) : id.strlen ≤ 63 := by
  obtain ⟨r, -, rfl⟩ := List.mem_map.mp h
  exact Nat.le_of_lt_succ r.workerId.strlen_lt

theorem find?_isSome_iff : (s.records.find? (·.hasId id)).isSome = true ↔ id ∈ s.records.map (·.key) := by
  rw [List.find?_isSome, List.mem_map]
  exact exists_congr fun r => and_congr_right fun _ => r.hasId_iff

/-- A granted join of an id that fits puts it into the registry. -/
theorem mem_keys_of_join {transport : CStr} {caps : VomWorkerCapabilities} {nowMs : UInt64}
    (hjoin : (vomRegistryOnWorkerJoin s id transport caps nowMs).2 = true) (hfit : id.strlen ≤ 63) :
    id ∈ (vomRegistryOnWorkerJoin s id transport caps nowMs).1.records.map (·.key) := by
  rcases join_cases s id transport caps nowMs with ⟨r, hfind, -⟩ | ⟨-, -, heq⟩ |
    ⟨-, -, s', heq, hrecords, -⟩
  · have hold : id ∈ s.records.map (·.key) := find?_isSome_iff.mp (by rw [hfind]; rfl)
    exact mem_keys_next (o := .join id transport caps nowMs) hold
  · rw [heq] at hjoin
    cases hjoin
  · have hkey : (WorkerRecord.fresh id transport caps nowMs).key = id := NulBuf.copy_str hfit
    rw [heq, hrecords, List.map_append, List.map_singleton, hkey]
    exact List.mem_append_right _ (List.mem_singleton_self id)

end Keys

/-! ## 2. Calls with the id of a joined worker -/

/-- The calls with the id find a worker and leave the number of workers as it is; tracking returns
    true while the worker's chunk list has room. -/
structure FindsWorker (s : RegistrySnapshot) (workerId : CStr) : Prop where
  join : ∀ transport caps nowMs,
    (vomRegistryOnWorkerJoin s workerId transport caps nowMs).2 = true ∧
    (vomRegistryOnWorkerJoin s workerId transport caps nowMs).1.records.length = s.records.length
  heartbeat : ∀ dynamicCaps nowMs,
    (vomRegistryOnWorkerHeartbeat s workerId dynamicCaps nowMs).2 = true ∧
    (vomRegistryOnWorkerHeartbeat s workerId dynamicCaps nowMs).1.records.length = s.records.length
  leave : (vomRegistryOnWorkerLeave s workerId).2 = true ∧
    (vomRegistryOnWorkerLeave s workerId).1.records.length = s.records.length
  track : ∃ r ∈ s.records, r.key = workerId ∧ ∀ chunkId,
    ((vomRegistryTrackChunk s workerId chunkId).2 = true ↔ r.activeChunkIds.length < regMaxChunks) ∧
    (vomRegistryTrackChunk s workerId chunkId).1.records.length = s.records.length

section Finds

variable {s : RegistrySnapshot} {workerId : CStr} {r : WorkerRecord}

theorem update_length (p : WorkerRecord → Bool) (f : WorkerRecord → WorkerRecord) :
    (s.update p f).records.length = s.records.length :=
  length_modifyFirst p f s.records

theorem updateKnown_found (hfind : s.records.find? (·.hasId workerId) = some r)
    (f : WorkerRecord → WorkerRecord) :
    (s.updateKnown workerId f).2 = true ∧
      (s.updateKnown workerId f).1.records.length = s.records.length := by
  rcases updateKnown_cases s workerId f with ⟨_, -, heq⟩ | ⟨hnone, -⟩
  · rw [heq]
    exact ⟨rfl, update_length _ f⟩
  · rw [hnone] at hfind
    cases hfind

theorem join_found (hfind : s.records.find? (·.hasId workerId) = some r) (transport : CStr)
    (caps : VomWorkerCapabilities) (nowMs : UInt64) :
    (vomRegistryOnWorkerJoin s workerId transport caps nowMs).2 = true ∧
      (vomRegistryOnWorkerJoin s workerId transport caps nowMs).1.records.length =
        s.records.length := by
  rcases join_cases s workerId transport caps nowMs with ⟨_, -, heq⟩ | ⟨hnone, -⟩ | ⟨hnone, -⟩
  · rw [heq]
    exact ⟨rfl, update_length _ _⟩
  · rw [hnone] at hfind
    cases hfind
  · rw [hnone] at hfind
    cases hfind

theorem track_found (hfind : s.records.find? (·.hasId workerId) = some r) (chunkId : UInt64) :
    ((vomRegistryTrackChunk s workerId chunkId).2 = true ↔ r.activeChunkIds.length < regMaxChunks) ∧
      (vomRegistryTrackChunk s workerId chunkId).1.records.length = s.records.length := by
  rcases track_cases s workerId chunkId with ⟨hrefused, heq⟩ | ⟨x, hx, hroom, heq⟩
  · rw [hfind] at hrefused
    rcases hrefused with hnone | ⟨x, hx, hfull⟩
    · cases hnone
    · obtain rfl := Option.some.inj hx
      rw [heq]
      exact ⟨iff_of_false nofun (Nat.not_lt.mpr hfull), rfl⟩
  · obtain rfl := Option.some.inj (hfind.symm.trans hx)
    rw [heq]
    exact ⟨iff_of_true rfl hroom, update_length _ _⟩

/-- The calls find a worker exactly when its id is in the registry. -/
theorem findsWorker_iff : FindsWorker s workerId ↔ workerId ∈ s.records.map (·.key) := by
  constructor
  · intro h
    obtain ⟨r, hr, hkey, -⟩ := h.track
    exact List.mem_map.mpr ⟨r, hr, hkey⟩
  · intro h
    obtain ⟨r, hfind⟩ := Option.isSome_iff_exists.mp (find?_isSome_iff.mpr h)
    exact ⟨join_found hfind, fun dynamicCaps nowMs => updateKnown_found hfind _,
      updateKnown_found hfind _, r, List.mem_of_find?_eq_some hfind,
      r.hasId_iff.mp (List.find?_some hfind), track_found hfind⟩

end Finds

/-- **When a joined worker is found again.** After a join that returned true, in any state and after
    any further operations, calls with the same id find the worker exactly when the id has at most 63
    bytes. -/
theorem join_found_iff (s : RegistrySnapshot) (workerId transport : CStr)
    (caps : VomWorkerCapabilities) (nowMs : UInt64)
    (hjoin : (vomRegistryOnWorkerJoin s workerId transport caps nowMs).2 = true)
    (ops : List RegistryOp) :
    FindsWorker
        (registryMachine.run (vomRegistryOnWorkerJoin s workerId transport caps nowMs).1 ops)
        workerId ↔
      workerId.strlen ≤ 63 := by
  rw [findsWorker_iff]
  exact ⟨strlen_of_mem_keys, fun hfit => mem_keys_run ops (mem_keys_of_join hjoin hfit)⟩

/-- An id of `n` bytes. -/
def longId (n : Nat) : CStr := CStr.upTo (List.replicate n 97)

theorem join_found_iff_shortId :
    (vomRegistryOnWorkerJoin vomRegistryCreate (longId 3) (longId 1) sampleCapabilities 10).2 = true ∧
    (FindsWorker (registryMachine.run
        (vomRegistryOnWorkerJoin vomRegistryCreate (longId 3) (longId 1) sampleCapabilities 10).1
        [.leave (longId 3)]) (longId 3) ↔
      (longId 3).strlen ≤ 63) :=
  ⟨by decide, join_found_iff vomRegistryCreate (longId 3) (longId 1) sampleCapabilities 10 (by decide)
    [.leave (longId 3)]⟩

/-- **A worker with an id of 64 bytes joins twice**: both joins return true, the second makes a second
    record, and a heartbeat finds none. -/
theorem long_id_joins_twice :
    let joined := vomRegistryOnWorkerJoin vomRegistryCreate (longId 64) (longId 1) sampleCapabilities 10
    let again := vomRegistryOnWorkerJoin joined.1 (longId 64) (longId 1) sampleCapabilities 20
    joined.2 = true ∧ again.2 = true ∧ again.1.records.length = 2 ∧
      (vomRegistryOnWorkerHeartbeat joined.1 (longId 64) sampleCapabilities 20).2 = false := by
  decide +kernel

/-! ## 3. Records and granted joins -/

/-- What a worker passes when it joins. -/
structure Registration where
  workerId : CStr
  endpoint : CStr
  caps : VomWorkerCapabilities
  deriving DecidableEq

/-- The join an operation is, when it is one and returns true. -/
def grantedJoin (s : RegistrySnapshot) : RegistryOp → List Registration
  | .join workerId transport caps nowMs =>
    if (vomRegistryOnWorkerJoin s workerId transport caps nowMs).2 then
      [⟨workerId, transport, caps⟩]
    else []
  | _ => []

def RegistryOp.isJoin : RegistryOp → Bool
  | .join _ _ _ _ => true
  | _ => false

/-- The joins of one worker. -/
def joinsOf (joins : List Registration) (id : CStr) : List Registration :=
  joins.filter fun j => j.workerId = id

/-- The fields a heartbeat does not refresh agree. -/
def VomWorkerCapabilities.SameStatic (a b : VomWorkerCapabilities) : Prop := a.refresh b = b

theorem VomWorkerCapabilities.SameStatic.refl (a : VomWorkerCapabilities) : a.SameStatic a := rfl

/-- Ids and endpoints of joining workers fit into their fields. -/
def RegistryOp.TextsFit : RegistryOp → Prop
  | .join workerId transport _ _ => workerId.strlen ≤ 63 ∧ transport.strlen ≤ 63
  | _ => True

instance : (o : RegistryOp) → Decidable o.TextsFit
  | .join workerId transport _ _ =>
    inferInstanceAs (Decidable (workerId.strlen ≤ 63 ∧ transport.strlen ≤ 63))
  | .heartbeat .. | .leave .. | .track .. | .untrack .. | .sweep .. => isTrue trivial

/-- The record of a worker, by its first and its last join. -/
def WorkerRecord.ToldBy (r : WorkerRecord) (joins : List Registration) : Prop :=
  ∃ first last, joins.head? = some first ∧ joins.getLast? = some last ∧
    r.transportEndpoint.str = first.endpoint ∧ r.capabilities.SameStatic last.caps

/-- Every record is told by the joins of its worker, and every join has its record. -/
structure RegistrationsTold (s : RegistrySnapshot) (joins : List Registration) : Prop where
  ids : (s.records.map (·.key)).Nodup
  joined : ∀ j ∈ joins, j.workerId ∈ s.records.map (·.key)
  told : ∀ r ∈ s.records, r.ToldBy (joinsOf joins r.key)

theorem joinsOf_snoc_self (joins : List Registration) (j : Registration) :
    joinsOf (joins ++ [j]) j.workerId = joinsOf joins j.workerId ++ [j] := by
  simp [joinsOf]

theorem joinsOf_snoc_other (joins : List Registration) {j : Registration} {id : CStr}
    (h : j.workerId ≠ id) : joinsOf (joins ++ [j]) id = joinsOf joins id := by
  simp [joinsOf, h]

/-- An operation that is no join leaves the static capabilities. -/
theorem RecordStep.static {o : RegistryOp} {r r' : WorkerRecord} (h : RecordStep o r r')
    (hno : o.isJoin = false) (b : VomWorkerCapabilities) (hr : r.capabilities.SameStatic b) :
    r'.capabilities.SameStatic b := by
  cases h with
  | rejoin _ => cases hno
  | track _ =>
    unfold WorkerRecord.track
    split <;> exact hr
  | _ => exact hr

section Told

variable {s : RegistrySnapshot} {joins : List Registration}

/-- No join. -/
theorem step_told (h : RegistrationsTold s joins) {o : RegistryOp} (hno : o.isJoin = false) :
    RegistrationsTold (registryMachine.next s o) joins := by
  rcases records_step s o with hstep | ⟨_, _, _, _, rfl, -⟩
  · refine ⟨hstep.keys ▸ h.ids, hstep.keys ▸ h.joined, fun r' hr' => ?_⟩
    obtain ⟨r, hr, hrr'⟩ := forall₂_exists_left hstep hr'
    obtain ⟨hkey, hendpoint⟩ := hrr'.keeps
    obtain ⟨first, last, hfirst, hlast, he, hc⟩ := h.told r hr
    rw [hkey]
    exact ⟨first, last, hfirst, hlast, hendpoint ▸ he, hrr'.static hno last.caps hc⟩
  · cases hno

/-- A join of a known worker. -/
theorem rejoin_told (h : RegistrationsTold s joins) {workerId : CStr} {r : WorkerRecord}
    (hfind : s.records.find? (·.hasId workerId) = some r) (transport : CStr)
    (caps : VomWorkerCapabilities) (nowMs : UInt64) :
    RegistrationsTold (s.update (·.hasId workerId) (·.rejoin caps nowMs))
      (joins ++ [⟨workerId, transport, caps⟩]) := by
  have hkeys : (s.update (·.hasId workerId) (·.rejoin caps nowMs)).records.map (·.key) =
      s.records.map (·.key) :=
    RecordsStep.keys (o := .join workerId transport caps nowMs)
      (recordsStep_update fun x hx => .rejoin (x.hasId_iff.mp hx))
  have hknown : workerId ∈ s.records.map (·.key) := find?_isSome_iff.mp (by rw [hfind]; rfl)
  refine ⟨hkeys ▸ h.ids, fun j hj => ?_, fun r' hr' => ?_⟩
  · rw [hkeys]
    rcases List.mem_append.mp hj with hj | hj
    · exact h.joined j hj
    · rw [List.mem_singleton.mp hj]
      exact hknown
  · rcases (mem_modifyFirst_key WorkerRecord.key (fun x => x.hasId_iff) h.ids).mp hr' with
      ⟨hr, hne⟩ | ⟨x, hx, hid, rfl⟩
    · rw [joinsOf_snoc_other joins (Ne.symm hne)]
      exact h.told r' hr
    · obtain ⟨first, last, hfirst, -, he, -⟩ := h.told x hx
      have hkey : (x.rejoin caps nowMs).key = workerId := hid
      rw [hid] at hfirst
      rw [hkey, joinsOf_snoc_self joins ⟨workerId, transport, caps⟩]
      refine ⟨first, ⟨workerId, transport, caps⟩, ?_, List.getLast?_concat, he, .refl caps⟩
      rw [List.head?_append, hfirst]
      rfl

/-- The first join of a worker. -/
theorem fresh_told (h : RegistrationsTold s joins) {s' : RegistrySnapshot}
    {workerId transport : CStr} {caps : VomWorkerCapabilities} {nowMs : UInt64}
    (hnew : s.records.find? (·.hasId workerId) = none) (hid : workerId.strlen ≤ 63)
    (hend : transport.strlen ≤ 63)
    (hrecords : s'.records = s.records ++ [WorkerRecord.fresh workerId transport caps nowMs]) :
    RegistrationsTold s' (joins ++ [⟨workerId, transport, caps⟩]) := by
  have hkey : (WorkerRecord.fresh workerId transport caps nowMs).key = workerId := NulBuf.copy_str hid
  have hother : ∀ r ∈ s.records, r.key ≠ workerId := fun r hr e =>
    List.find?_eq_none.mp hnew r hr (r.hasId_iff.mpr e)
  have hnone : joinsOf joins workerId = [] := by
    refine List.filter_eq_nil_iff.mpr fun j hj e => ?_
    obtain ⟨r, hr, hrj⟩ := List.mem_map.mp (h.joined j hj)
    exact hother r hr (hrj.trans (of_decide_eq_true e))
  refine ⟨?_, fun j hj => ?_, fun r hr => ?_⟩
  · rw [hrecords]
    refine nodup_map_snoc _ h.ids fun r hr => ?_
    rw [hkey]
    exact hother r hr
  · rw [hrecords, List.map_append, List.map_singleton, hkey]
    rcases List.mem_append.mp hj with hj | hj
    · exact List.mem_append_left _ (h.joined j hj)
    · rw [List.mem_singleton.mp hj]
      exact List.mem_append_right _ (List.mem_singleton_self workerId)
  · rw [hrecords] at hr
    rcases List.mem_append.mp hr with hr | hr
    · rw [joinsOf_snoc_other joins (Ne.symm (hother r hr))]
      exact h.told r hr
    · rw [List.mem_singleton.mp hr, hkey, joinsOf_snoc_self joins ⟨workerId, transport, caps⟩, hnone]
      exact ⟨_, _, rfl, rfl, NulBuf.copy_str hend, .refl caps⟩

/-- **One operation.** -/
theorem registrations_next (h : RegistrationsTold s joins) {o : RegistryOp} (hfit : o.TextsFit) :
    RegistrationsTold (registryMachine.next s o) (joins ++ grantedJoin s o) := by
  cases o with
  | join workerId transport caps nowMs =>
    show RegistrationsTold (vomRegistryOnWorkerJoin s workerId transport caps nowMs).1 _
    unfold grantedJoin
    dsimp only
    rcases join_cases s workerId transport caps nowMs with ⟨r, hfind, heq⟩ | ⟨-, -, heq⟩ |
      ⟨hnew, -, s', heq, hrecords, -⟩
    · rw [heq, if_pos rfl]
      exact rejoin_told h hfind transport caps nowMs
    · rw [heq, if_neg (by simp), List.append_nil]
      exact h
    · rw [heq, if_pos rfl]
      exact fresh_told h hnew hfit.1 hfit.2 hrecords
  | heartbeat | leave | track | untrack | sweep =>
    unfold grantedJoin
    rw [List.append_nil]
    exact step_told h rfl

end Told

/-- After any run. -/
theorem registrations_told (ops : List RegistryOp) (hfit : ∀ o ∈ ops, o.TextsFit) :
    RegistrationsTold (registryMachine.run vomRegistryCreate ops)
      (registryMachine.log grantedJoin vomRegistryCreate ops) := by
  have hstart : RegistrationsTold vomRegistryCreate [] :=
    ⟨List.nodup_nil, fun _ hj => absurd hj List.not_mem_nil,
      fun _ hr => absurd hr List.not_mem_nil⟩
  exact registryMachine.invariant_log grantedJoin RegistrationsTold
    (fun _ _ _ h ho => registrations_next h ho) hstart (registryMachine.legal_of_forall _ hfit)

/-! ## 4. The latest registration -/

/-- The worker's record has the endpoint and the static capabilities of its last granted join. -/
def HoldsLatest (s : RegistrySnapshot) (joins : List Registration) (id : CStr) : Prop :=
  ∀ last, (joinsOf joins id).getLast? = some last →
    ∃ r, s.records.find? (·.hasId id) = some r ∧ r.transportEndpoint.str = last.endpoint ∧
      r.capabilities.SameStatic last.caps

/-- **When the registry holds a worker's latest registration**: after any run in which ids and
    endpoints fit, exactly when the worker's last granted join passed the endpoint of its first. -/
theorem latest_registration_iff (ops : List RegistryOp) (hfit : ∀ o ∈ ops, o.TextsFit) (id : CStr) :
    let joins := registryMachine.log grantedJoin vomRegistryCreate ops
    HoldsLatest (registryMachine.run vomRegistryCreate ops) joins id ↔
      ∀ first last, (joinsOf joins id).head? = some first → (joinsOf joins id).getLast? = some last →
        last.endpoint = first.endpoint := by
  intro joins
  have h := registrations_told ops hfit
  constructor
  · intro hholds first last hfirst hlast
    obtain ⟨r, hfind, hend, -⟩ := hholds last hlast
    obtain ⟨first', -, hfirst', -, hend', -⟩ := h.told r (List.mem_of_find?_eq_some hfind)
    rw [r.hasId_iff.mp (List.find?_some hfind)] at hfirst'
    obtain rfl := Option.some.inj (hfirst.symm.trans hfirst')
    rw [← hend, hend']
  · intro hsame last hlast
    obtain ⟨hmem, hid⟩ := List.mem_filter.mp (List.mem_of_getLast? hlast)
    have hknown := h.joined last hmem
    rw [of_decide_eq_true hid] at hknown
    obtain ⟨r, hfind⟩ := Option.isSome_iff_exists.mp (find?_isSome_iff.mpr hknown)
    obtain ⟨first, last', hfirst, hlast', hend, hcaps⟩ := h.told r (List.mem_of_find?_eq_some hfind)
    rw [r.hasId_iff.mp (List.find?_some hfind)] at hfirst hlast'
    obtain rfl := Option.some.inj (hlast.symm.trans hlast')
    exact ⟨r, hfind, hend.trans (hsame first last hfirst hlast).symm, hcaps⟩

/-- A worker joins, leaves, and joins again from another endpoint. -/
def movedWorker : List RegistryOp :=
  [.join (CStr.upTo [97]) (CStr.upTo [101, 49]) sampleCapabilities 10, .leave (CStr.upTo [97]),
    .join (CStr.upTo [97]) (CStr.upTo [101, 50]) sampleCapabilities 20]

theorem latest_registration_iff_movedWorker :
    (∀ o ∈ movedWorker, o.TextsFit) ∧
    (HoldsLatest (registryMachine.run vomRegistryCreate movedWorker)
        (registryMachine.log grantedJoin vomRegistryCreate movedWorker) (CStr.upTo [97]) ↔
      ∀ first last,
        (joinsOf (registryMachine.log grantedJoin vomRegistryCreate movedWorker)
          (CStr.upTo [97])).head? = some first →
        (joinsOf (registryMachine.log grantedJoin vomRegistryCreate movedWorker)
          (CStr.upTo [97])).getLast? = some last →
        last.endpoint = first.endpoint) :=
  ⟨by decide, latest_registration_iff movedWorker (by decide) (CStr.upTo [97])⟩

/-- **A worker that moved is reached at its old endpoint.** -/
theorem moved_worker_keeps_endpoint :
    ¬ HoldsLatest (registryMachine.run vomRegistryCreate movedWorker)
      (registryMachine.log grantedJoin vomRegistryCreate movedWorker) (CStr.upTo [97]) := by
  intro h
  obtain ⟨r, hfind, hend, -⟩ :=
    h ⟨CStr.upTo [97], CStr.upTo [101, 50], sampleCapabilities⟩ (by decide +kernel)
  have hold : ((registryMachine.run vomRegistryCreate movedWorker).records.find?
      (·.hasId (CStr.upTo [97]))).map (·.transportEndpoint.str) = some (CStr.upTo [101, 49]) := by
    decide +kernel
  rw [hfind, Option.map_some, hend] at hold
  exact absurd hold (by decide)

end VoidOsMerger
