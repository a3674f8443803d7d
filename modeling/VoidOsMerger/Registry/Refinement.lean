/-
  File:      VoidOsMerger/Registry/Refinement.lean
  Subject:   THE RECORD ARRAY OF THE REGISTRY IS A FINITE MAP.

  `WorkerMap` is what the registry is for: a finite map from worker ids to entries, and a version.
  `mapMachine` answers the registry's operations on it, without an order of the workers.

  * `refines_next` -- one operation on both sides;
  * `registry_step` -- refused calls change nothing, granted ones raise the version by one, a sweep by
    the number of the workers it marks, and only the entry of the worker named changes;
  * **`registry_refines_map`** -- over whole runs.
-/
import VoidOsMerger.Base.Keyed
import VoidOsMerger.Registry.Model

namespace VoidOsMerger

/-! ## 1. The finite map -/

/-- What the registry knows of a worker. -/
structure WorkerEntry where
  status : WorkerRegStatus
  lastSeenMs : UInt64
  capabilities : VomWorkerCapabilities
  endpoint : NulBuf 64
  chunkIds : List UInt64
  deriving DecidableEq

structure WorkerMap where
  workers : Finmap fun _ : CStr => WorkerEntry
  version : UInt64

def WorkerMap.empty : WorkerMap := ⟨∅, 1⟩

/-- What a call returns: a `bool`, or the `int` of a sweep. -/
inductive Returned
  | bool (b : Bool)
  | int (n : Nat)
  deriving DecidableEq

/-- The entry of a worker is set, which raises the version. -/
def WorkerMap.put (m : WorkerMap) (id : CStr) (e : WorkerEntry) : WorkerMap :=
  ⟨m.workers.insert id e, m.version + 1⟩

/-- The entry of a known worker is changed by `f`, unless `f` refuses. -/
def WorkerMap.change (m : WorkerMap) (id : CStr) (f : WorkerEntry → Option WorkerEntry) :
    WorkerMap × Returned :=
  match (m.workers.lookup id).bind f with
  | some e => (m.put id e, .bool true)
  | none => (m, .bool false)

def WorkerEntry.rejoin (caps : VomWorkerCapabilities) (nowMs : UInt64) (e : WorkerEntry) :
    WorkerEntry :=
  { e with status := .approved, lastSeenMs := nowMs, capabilities := caps }

def WorkerEntry.heartbeat (dynamicCaps : VomWorkerCapabilities) (nowMs : UInt64) (e : WorkerEntry) :
    WorkerEntry :=
  { e with
    status := e.status.heard
    lastSeenMs := nowMs
    capabilities := e.capabilities.refresh dynamicCaps }

def WorkerEntry.stale (nowMs timeoutMs : UInt64) (e : WorkerEntry) : Bool :=
  e.status ≠ .disconnected ∧ nowMs - e.lastSeenMs > timeoutMs

def WorkerEntry.disconnect (e : WorkerEntry) : WorkerEntry := { e with status := .disconnected }

def WorkerEntry.mark (nowMs timeoutMs : UInt64) (e : WorkerEntry) : WorkerEntry :=
  if e.stale nowMs timeoutMs then e.disconnect else e

/-- The chunk goes to the end of the list, unless the list has 32 entries. -/
def WorkerEntry.track (chunkId : UInt64) (e : WorkerEntry) : Option WorkerEntry :=
  if e.chunkIds.length = regMaxChunks then none
  else some { e with chunkIds := e.chunkIds ++ [chunkId] }

/-- The first occurrence of the chunk is taken out. -/
def WorkerEntry.untrack (chunkId : UInt64) (e : WorkerEntry) : Option WorkerEntry :=
  if chunkId ∈ e.chunkIds then some { e with chunkIds := e.chunkIds.erase chunkId } else none

/-- A join changes the entry of a known worker, or adds one while there are fewer than 64. -/
def WorkerMap.join (m : WorkerMap) (id transport : CStr) (caps : VomWorkerCapabilities)
    (nowMs : UInt64) : WorkerMap × Returned :=
  match m.workers.lookup id with
  | some e => (m.put id (e.rejoin caps nowMs), .bool true)
  | none =>
    if m.workers.keys.card < regMaxWorkers then
      (m.put id ⟨.approved, nowMs, caps, NulBuf.copy 63 transport, []⟩, .bool true)
    else (m, .bool false)

/-- A sweep marks every stale worker; each raises the version. -/
def WorkerMap.sweep (m : WorkerMap) (nowMs timeoutMs : UInt64) (maxOut : Int) :
    WorkerMap × Returned :=
  if maxOut ≤ 0 then (m, .int 0)
  else
    let dead := m.workers.entries.countP fun p => p.2.stale nowMs timeoutMs
    (⟨mapValues (·.mark nowMs timeoutMs) m.workers, m.version + UInt64.ofNat dead⟩,
      .int (min maxOut.toNat dead))

/-- The registry's operations on the map. -/
def mapMachine : Machine WorkerMap RegistryOp Returned where
  step m
    | .join workerId transport caps nowMs => m.join workerId transport caps nowMs
    | .heartbeat workerId dynamicCaps nowMs =>
      m.change workerId fun e => some (e.heartbeat dynamicCaps nowMs)
    | .leave workerId => m.change workerId fun e => some e.disconnect
    | .track workerId chunkId => m.change workerId (·.track chunkId)
    | .untrack workerId chunkId => m.change workerId (·.untrack chunkId)
    | .sweep nowMs timeoutMs maxOut => m.sweep nowMs timeoutMs maxOut

/-! ## 2. Records and entries -/

def WorkerRecord.key (r : WorkerRecord) : CStr := r.workerId.str

def WorkerRecord.entry (r : WorkerRecord) : WorkerEntry :=
  ⟨r.status, r.lastSeenMs, r.capabilities, r.transportEndpoint, r.activeChunkIds⟩

theorem WorkerRecord.hasId_iff {id : CStr} (r : WorkerRecord) : r.hasId id = true ↔ r.key = id := by
  simp [WorkerRecord.hasId, WorkerRecord.key]

theorem WorkerRecord.mark_key (nowMs timeoutMs : UInt64) (r : WorkerRecord) :
    (r.mark nowMs timeoutMs).key = r.key := by
  unfold WorkerRecord.mark
  split <;> rfl

theorem WorkerRecord.mark_entry (nowMs timeoutMs : UInt64) (r : WorkerRecord) :
    (r.mark nowMs timeoutMs).entry = r.entry.mark nowMs timeoutMs := by
  unfold WorkerRecord.mark WorkerEntry.mark
  exact apply_ite WorkerRecord.entry _ _ _

/-- The registry holds the map. -/
structure Refines (s : RegistrySnapshot) (m : WorkerMap) : Prop where
  workers : Keyed WorkerRecord.key WorkerRecord.entry s.records m.workers
  version : s.snapshotVersion = m.version

theorem Refines.lookup {s : RegistrySnapshot} {m : WorkerMap} (h : Refines s m) (id : CStr) :
    m.workers.lookup id = (s.records.find? (·.hasId id)).map (·.entry) :=
  h.workers.lookup fun r => r.hasId_iff

/-- A record changed, an entry set. -/
theorem Refines.update {s : RegistrySnapshot} {m : WorkerMap} (h : Refines s m) {id : CStr}
    {r : WorkerRecord} {f : WorkerRecord → WorkerRecord}
    (hfind : s.records.find? (·.hasId id) = some r) (hkey : ∀ x, (f x).key = x.key) :
    Refines (s.update (·.hasId id) f) (m.put id (f r).entry) where
  workers := h.workers.modifyFirst (fun x => x.hasId_iff) hfind
    ((hkey r).trans (r.hasId_iff.mp (List.find?_some hfind)))
  version := congrArg (· + 1) h.version

/-! ## 3. One operation on both sides -/

/-- The `bool` a call returns, or the `int` of a sweep. -/
def RegistryAnswer.returned : RegistryAnswer → Returned
  | .ok b => .bool b
  | .dead out => .int out.length

/-- A new worker's id fits into its field. -/
def RegistryOp.IdFits : RegistryOp → Prop
  | .join workerId _ _ _ => workerId.strlen ≤ 63
  | _ => True

instance (o : RegistryOp) : Decidable o.IdFits := by
  cases o <;> unfold RegistryOp.IdFits <;> infer_instance

/-- Both sides after one operation. -/
def Agree (r : RegistrySnapshot × RegistryAnswer) (r' : WorkerMap × Returned) : Prop :=
  Refines r.1 r'.1 ∧ r.2.returned = r'.2

/-- The change of a known worker by an operation that never refuses. -/
theorem agree_change {s : RegistrySnapshot} {m : WorkerMap} (h : Refines s m) (id : CStr)
    {f : WorkerRecord → WorkerRecord} {g : WorkerEntry → WorkerEntry}
    (hkey : ∀ x, (f x).key = x.key) (hentry : ∀ x, (f x).entry = g x.entry) :
    Agree ((s.updateKnown id f).1, .ok (s.updateKnown id f).2)
      (m.change id fun e => some (g e)) := by
  unfold WorkerMap.change
  rw [h.lookup]
  rcases updateKnown_cases s id f with ⟨r, hfind, heq⟩ | ⟨hfind, heq⟩
  · have hup := h.update hfind hkey
    rw [hentry] at hup
    rw [heq, hfind]
    exact ⟨hup, rfl⟩
  · rw [heq, hfind]
    exact ⟨h, rfl⟩

theorem agree_join {s : RegistrySnapshot} {m : WorkerMap} (h : Refines s m) {id : CStr}
    (hfit : id.strlen ≤ 63) (transport : CStr) (caps : VomWorkerCapabilities) (nowMs : UInt64) :
    Agree (registryMachine.step s (.join id transport caps nowMs)) (m.join id transport caps nowMs) := by
  show Agree ((vomRegistryOnWorkerJoin s id transport caps nowMs).1,
    .ok (vomRegistryOnWorkerJoin s id transport caps nowMs).2) _
  unfold WorkerMap.join
  have hlookup := h.lookup id
  rcases join_cases s id transport caps nowMs with ⟨r, hfind, heq⟩ | ⟨hfind, hfull, heq⟩ |
    ⟨hfind, hroom, s', heq, hrecords, hversion⟩
  · rw [hlookup, hfind, heq]
    exact ⟨h.update hfind fun _ => rfl, rfl⟩
  · rw [hlookup, hfind, heq]
    simp only [Option.map_none, h.workers.card]
    rw [if_neg (Nat.not_lt_of_le hfull)]
    exact ⟨h, rfl⟩
  · have hkey : (WorkerRecord.fresh id transport caps nowMs).key = id := NulBuf.copy_str hfit
    have hnew : m.workers.lookup (WorkerRecord.fresh id transport caps nowMs).key = none := by
      rw [hkey, hlookup, hfind]
      rfl
    have hsnoc := h.workers.snoc hnew
    rw [hlookup, hfind, heq]
    simp only [Option.map_none, h.workers.card]
    rw [if_pos hroom]
    rw [hkey, ← hrecords] at hsnoc
    exact ⟨⟨hsnoc, hversion.trans (congrArg (· + 1) h.version)⟩, rfl⟩

theorem agree_track {s : RegistrySnapshot} {m : WorkerMap} (h : Refines s m) (id : CStr)
    (chunkId : UInt64) :
    Agree (registryMachine.step s (.track id chunkId)) (m.change id (·.track chunkId)) := by
  show Agree ((vomRegistryTrackChunk s id chunkId).1, .ok (vomRegistryTrackChunk s id chunkId).2) _
  unfold WorkerMap.change
  rw [h.lookup]
  rcases track_cases s id chunkId with ⟨hrefused, heq⟩ | ⟨r, hfind, hroom, heq⟩
  · have hnone : ((s.records.find? (·.hasId id)).map (·.entry)).bind (·.track chunkId) = none := by
      rcases hrefused with hfind | ⟨r, hfind, hfull⟩
      · rw [hfind]
        rfl
      · rw [hfind]
        exact if_pos (Nat.le_antisymm r.chunksFit hfull)
    rw [heq, hnone]
    exact ⟨h, rfl⟩
  · have hsome : ((s.records.find? (·.hasId id)).map (·.entry)).bind (·.track chunkId) =
        some (r.track chunkId).entry := by
      rw [hfind, WorkerRecord.track, dif_pos hroom]
      exact if_neg (Nat.ne_of_lt hroom)
    have hkey : ∀ x : WorkerRecord, (x.track chunkId).key = x.key := fun x =>
      congrArg NulBuf.str (x.track_keeps chunkId).1
    rw [heq, hsome]
    exact ⟨h.update hfind hkey, rfl⟩

theorem agree_untrack {s : RegistrySnapshot} {m : WorkerMap} (h : Refines s m) (id : CStr)
    (chunkId : UInt64) :
    Agree (registryMachine.step s (.untrack id chunkId)) (m.change id (·.untrack chunkId)) := by
  show Agree ((vomRegistryUntrackChunk s id chunkId).1,
    .ok (vomRegistryUntrackChunk s id chunkId).2) _
  unfold WorkerMap.change
  rw [h.lookup]
  rcases untrack_cases s id chunkId with ⟨hany, heq⟩ | ⟨hany, heq⟩
  · obtain ⟨r, hr, htracks⟩ := List.any_eq_true.mp hany
    obtain ⟨hid, hchunk⟩ := Bool.and_eq_true_iff.mp htracks
    have hfind : s.records.find? (·.hasId id) = some r :=
      find?_key WorkerRecord.key h.workers.nodup hr fun x =>
        x.hasId_iff.trans (by rw [r.hasId_iff.mp hid])
    have hsame : s.update (·.tracks id chunkId) (·.untrack chunkId) =
        s.update (·.hasId id) (·.untrack chunkId) := by
      have hrecords := modifyFirst_narrow (fun x => x.untrack chunkId) hfind
        (q := (·.tracks id chunkId)) (fun x hx => (Bool.and_eq_true_iff.mp hx).1) htracks
      simp only [RegistrySnapshot.update, hrecords]
    have hsome : ((s.records.find? (·.hasId id)).map (·.entry)).bind (·.untrack chunkId) =
        some (r.untrack chunkId).entry := by
      rw [hfind]
      exact if_pos (List.contains_iff_mem.mp hchunk)
    rw [heq, hsame, hsome]
    exact ⟨h.update hfind fun _ => rfl, rfl⟩
  · have hnone : ((s.records.find? (·.hasId id)).map (·.entry)).bind (·.untrack chunkId) = none := by
      cases hfind : s.records.find? (·.hasId id) with
      | none => rfl
      | some r =>
        refine if_neg fun hchunk => ?_
        refine List.any_eq_false.mp hany r (List.mem_of_find?_eq_some hfind) ?_
        exact Bool.and_eq_true_iff.mpr ⟨List.find?_some hfind, List.contains_iff_mem.mpr hchunk⟩
    rw [heq, hnone]
    exact ⟨h, rfl⟩

theorem agree_sweep {s : RegistrySnapshot} {m : WorkerMap} (h : Refines s m)
    (nowMs timeoutMs : UInt64) (maxOut : Int) :
    Agree (registryMachine.step s (.sweep nowMs timeoutMs maxOut)) (m.sweep nowMs timeoutMs maxOut) := by
  show Agree ((vomRegistrySweepStale s nowMs timeoutMs maxOut).1,
    .dead (vomRegistrySweepStale s nowMs timeoutMs maxOut).2) _
  unfold WorkerMap.sweep
  by_cases hmax : maxOut ≤ 0
  · rw [sweepStale_nonpos s nowMs timeoutMs hmax, if_pos hmax]
    exact ⟨h, rfl⟩
  · have hcount : m.workers.entries.countP (fun p => p.2.stale nowMs timeoutMs) =
        s.records.countP (·.stale nowMs timeoutMs) :=
      h.workers.countP (·.stale nowMs timeoutMs)
    rw [if_neg hmax, hcount]
    refine ⟨⟨?_, ?_⟩, ?_⟩
    · rw [sweepStale_records s nowMs timeoutMs hmax]
      exact h.workers.map (fun r => r.mark_key nowMs timeoutMs) fun r => r.mark_entry nowMs timeoutMs
    · rw [sweepStale_version s nowMs timeoutMs hmax, h.version]
    · show Returned.int (vomRegistrySweepStale s nowMs timeoutMs maxOut).2.length = _
      rw [sweepStale_out s nowMs timeoutMs hmax, List.length_map, List.length_take,
        List.countP_eq_length_filter]

/-- **One operation on both sides.** -/
theorem refines_next (s : RegistrySnapshot) (m : WorkerMap) (o : RegistryOp) (h : Refines s m)
    (hfit : o.IdFits) :
    Refines (registryMachine.next s o) (mapMachine.next m o) ∧
      (registryMachine.answer s o).returned = mapMachine.answer m o := by
  cases o with
  | join workerId transport caps nowMs => exact agree_join h hfit transport caps nowMs
  | heartbeat workerId dynamicCaps nowMs =>
    exact agree_change h workerId (g := (·.heartbeat dynamicCaps nowMs)) (fun _ => rfl) fun _ => rfl
  | leave workerId => exact agree_change h workerId (g := (·.disconnect)) (fun _ => rfl) fun _ => rfl
  | track workerId chunkId => exact agree_track h workerId chunkId
  | untrack workerId chunkId => exact agree_untrack h workerId chunkId
  | sweep nowMs timeoutMs maxOut => exact agree_sweep h nowMs timeoutMs maxOut

/-! ## 4. What one call does -/

/-- The worker an operation names. -/
def RegistryOp.target : RegistryOp → Option CStr
  | .join workerId _ _ _ => some workerId
  | .heartbeat workerId _ _ => some workerId
  | .leave workerId => some workerId
  | .track workerId _ => some workerId
  | .untrack workerId _ => some workerId
  | .sweep _ _ _ => none

/-- The entry the registry finds for an id. -/
def RegistrySnapshot.entryOf (s : RegistrySnapshot) (id : CStr) : Option WorkerEntry :=
  (s.records.find? (·.hasId id)).map (·.entry)

/-- The records that were not disconnected before and are now. -/
def newlyMarked (s s' : RegistrySnapshot) : Nat :=
  (s.records.zip s'.records).countP fun p =>
    p.1.status ≠ .disconnected ∧ p.2.status = .disconnected

/-- **A call and the registry after it.** -/
structure CallFacts (s s' : RegistrySnapshot) (o : RegistryOp) (answer : RegistryAnswer) : Prop where
  /-- Only the entry of the worker named changes. -/
  frame : ∀ id, o.target = some id → ∀ id', id' ≠ id → s'.entryOf id' = s.entryOf id'
  /-- A call that returns false changes nothing. -/
  refused : answer = .ok false → s' = s
  /-- A call that returns true raises the version by one. -/
  granted : answer = .ok true → s'.snapshotVersion = s.snapshotVersion + 1
  /-- A sweep raises the version by one for each worker it newly marks. -/
  swept : ∀ out, answer = .dead out →
    s'.snapshotVersion = s.snapshotVersion + UInt64.ofNat (newlyMarked s s')

/-- Setting one entry leaves the others alone. -/
theorem WorkerMap.change_frame (m : WorkerMap) {id id' : CStr} (hne : id' ≠ id)
    (f : WorkerEntry → Option WorkerEntry) :
    (m.change id f).1.workers.lookup id' = m.workers.lookup id' := by
  unfold WorkerMap.change
  split
  · exact Finmap.lookup_insert_of_ne m.workers hne
  · rfl

theorem WorkerMap.join_frame (m : WorkerMap) {id id' : CStr} (hne : id' ≠ id) (transport : CStr)
    (caps : VomWorkerCapabilities) (nowMs : UInt64) :
    (m.join id transport caps nowMs).1.workers.lookup id' = m.workers.lookup id' := by
  unfold WorkerMap.join
  split
  · exact Finmap.lookup_insert_of_ne m.workers hne
  · split
    · exact Finmap.lookup_insert_of_ne m.workers hne
    · rfl

theorem mapMachine_frame (m : WorkerMap) {o : RegistryOp} {id id' : CStr} (ho : o.target = some id)
    (hne : id' ≠ id) : (mapMachine.next m o).workers.lookup id' = m.workers.lookup id' := by
  cases o with
  | join workerId transport caps nowMs =>
    cases ho
    exact m.join_frame hne transport caps nowMs
  | heartbeat => cases ho; exact m.change_frame hne _
  | leave => cases ho; exact m.change_frame hne _
  | track => cases ho; exact m.change_frame hne _
  | untrack => cases ho; exact m.change_frame hne _
  | sweep => cases ho

/-- A call directed at a worker returns false and changes nothing, or true and raises the version. -/
def Directed (s : RegistrySnapshot) (r : RegistrySnapshot × Bool) : Prop :=
  r = (s, false) ∨ r.2 = true ∧ r.1.snapshotVersion = s.snapshotVersion + 1

theorem updateKnown_directed (s : RegistrySnapshot) (id : CStr) (f : WorkerRecord → WorkerRecord) :
    Directed s (s.updateKnown id f) := by
  rcases updateKnown_cases s id f with ⟨r, -, heq⟩ | ⟨-, heq⟩
  · rw [heq]
    exact Or.inr ⟨rfl, rfl⟩
  · exact Or.inl heq

theorem join_directed (s : RegistrySnapshot) (id transport : CStr) (caps : VomWorkerCapabilities)
    (nowMs : UInt64) : Directed s (vomRegistryOnWorkerJoin s id transport caps nowMs) := by
  rcases join_cases s id transport caps nowMs with ⟨r, -, heq⟩ | ⟨-, -, heq⟩ |
    ⟨-, -, s', heq, -, hversion⟩
  · rw [heq]
    exact Or.inr ⟨rfl, rfl⟩
  · exact Or.inl heq
  · rw [heq]
    exact Or.inr ⟨rfl, hversion⟩

theorem track_directed (s : RegistrySnapshot) (id : CStr) (chunkId : UInt64) :
    Directed s (vomRegistryTrackChunk s id chunkId) := by
  rcases track_cases s id chunkId with ⟨-, heq⟩ | ⟨r, -, -, heq⟩
  · exact Or.inl heq
  · rw [heq]
    exact Or.inr ⟨rfl, rfl⟩

theorem untrack_directed (s : RegistrySnapshot) (id : CStr) (chunkId : UInt64) :
    Directed s (vomRegistryUntrackChunk s id chunkId) := by
  rcases untrack_cases s id chunkId with ⟨-, heq⟩ | ⟨-, heq⟩
  · rw [heq]
    exact Or.inr ⟨rfl, rfl⟩
  · exact Or.inl heq

/-- The two ways a directed call can end, as facts on its answer. -/
theorem Directed.facts {s : RegistrySnapshot} {r : RegistrySnapshot × Bool} {o : RegistryOp}
    (h : Directed s r)
    (hframe : ∀ id, o.target = some id → ∀ id', id' ≠ id → r.1.entryOf id' = s.entryOf id') :
    CallFacts s r.1 o (.ok r.2) := by
  rcases h with rfl | ⟨hok, hversion⟩
  · exact ⟨hframe, fun _ => rfl, nofun, nofun⟩
  · rw [hok]
    exact ⟨hframe, nofun, fun _ => hversion, nofun⟩

theorem newlyMarked_map {s s' : RegistrySnapshot} (g : WorkerRecord → WorkerRecord)
    (h : s'.records = s.records.map g) :
    newlyMarked s s' =
      s.records.countP fun r => r.status ≠ .disconnected ∧ (g r).status = .disconnected := by
  have hzip : s.records.zip (s.records.map g) = s.records.map fun r => (r, g r) := by
    simpa using List.zip_map' (f := id) (g := g) (l := s.records)
  unfold newlyMarked
  rw [h, hzip, List.countP_map]
  rfl

/-- A sweep newly marks the stale records. -/
theorem newlyMarked_sweep {s s' : RegistrySnapshot} (nowMs timeoutMs : UInt64)
    (h : s'.records = s.records.map (·.mark nowMs timeoutMs)) :
    newlyMarked s s' = s.records.countP (·.stale nowMs timeoutMs) := by
  rw [newlyMarked_map _ h]
  refine List.countP_congr fun r _ => ?_
  unfold WorkerRecord.mark
  split
  · rename_i hstale
    have hne : r.status ≠ .disconnected := (of_decide_eq_true hstale).1
    simp [hstale, hne, WorkerRecord.disconnect]
  · rename_i hstale
    simp [hstale]

theorem newlyMarked_self (s : RegistrySnapshot) : newlyMarked s s = 0 := by
  rw [newlyMarked_map id (List.map_id _).symm]
  exact List.countP_eq_zero.mpr fun r _ => by simp

/-- **What one call does.** -/
theorem registry_step {s : RegistrySnapshot} {m : WorkerMap} (h : Refines s m) (o : RegistryOp)
    (hfit : o.IdFits) :
    CallFacts s (registryMachine.next s o) o (registryMachine.answer s o) := by
  have hframe : ∀ id, o.target = some id → ∀ id', id' ≠ id →
      (registryMachine.next s o).entryOf id' = s.entryOf id' := by
    intro id ho id' hne
    have hnext := (refines_next s m o h hfit).1.lookup id'
    rw [mapMachine_frame m ho hne, h.lookup] at hnext
    exact hnext.symm
  cases o with
  | join workerId transport caps nowMs =>
    exact (join_directed s workerId transport caps nowMs).facts hframe
  | heartbeat workerId dynamicCaps nowMs =>
    exact (updateKnown_directed s workerId (·.heartbeat dynamicCaps nowMs)).facts hframe
  | leave workerId => exact (updateKnown_directed s workerId (·.disconnect)).facts hframe
  | track workerId chunkId => exact (track_directed s workerId chunkId).facts hframe
  | untrack workerId chunkId => exact (untrack_directed s workerId chunkId).facts hframe
  | sweep nowMs timeoutMs maxOut =>
    refine ⟨hframe, nofun, nofun, fun out _ => ?_⟩
    show (vomRegistrySweepStale s nowMs timeoutMs maxOut).1.snapshotVersion = s.snapshotVersion +
      UInt64.ofNat (newlyMarked s (vomRegistrySweepStale s nowMs timeoutMs maxOut).1)
    by_cases hmax : maxOut ≤ 0
    · rw [sweepStale_nonpos s nowMs timeoutMs hmax, newlyMarked_self]
      exact (UInt64.add_zero _).symm
    · rw [sweepStale_version s nowMs timeoutMs hmax,
        newlyMarked_sweep nowMs timeoutMs (sweepStale_records s nowMs timeoutMs hmax)]

/-! ## 5. Whole runs -/

theorem refines_create : Refines vomRegistryCreate WorkerMap.empty := ⟨Keyed.nil, rfl⟩

/-- Every run of the registry is a run of the map. -/
theorem registry_simulates (ops : List RegistryOp) (hfit : ∀ o ∈ ops, o.IdFits) :
    Refines (registryMachine.run vomRegistryCreate ops) (mapMachine.run WorkerMap.empty ops) ∧
      (registryMachine.answers vomRegistryCreate ops).map (·.returned) =
        mapMachine.answers WorkerMap.empty ops :=
  registryMachine.simulation Refines RegistryAnswer.returned refines_next ops refines_create hfit

/-- **The record array refines a finite map.** After every run from `vom_registry_create` in which
    the ids of joining workers have at most 63 bytes:
    * ids are distinct and at most 64, and the records hold the map the same operations build, with
      the same answers all along;
    * any further call leaves the entries of other workers alone, changes nothing when it returns
      false, and raises the version by one when it returns true, a sweep by one for each worker it
      newly marks. -/
theorem registry_refines_map (ops : List RegistryOp) (hfit : ∀ o ∈ ops, o.IdFits) :
    ((registryMachine.run vomRegistryCreate ops).records.map (·.key)).Nodup ∧
    (registryMachine.run vomRegistryCreate ops).records.length ≤ 64 ∧
    Refines (registryMachine.run vomRegistryCreate ops) (mapMachine.run WorkerMap.empty ops) ∧
    (registryMachine.answers vomRegistryCreate ops).map (·.returned) =
      mapMachine.answers WorkerMap.empty ops ∧
    ∀ o : RegistryOp, o.IdFits →
      CallFacts (registryMachine.run vomRegistryCreate ops)
        (registryMachine.next (registryMachine.run vomRegistryCreate ops) o) o
        (registryMachine.answer (registryMachine.run vomRegistryCreate ops) o) := by
  obtain ⟨hrun, hanswers⟩ := registry_simulates ops hfit
  exact ⟨hrun.workers.nodup, RegistrySnapshot.recordsFit _, hrun, hanswers,
    fun o ho => registry_step hrun o ho⟩

/-- Capabilities of a phone on its charger. -/
def sampleCapabilities : VomWorkerCapabilities where
  arch := .aarch64
  coresOnline := 4
  coresTotal := 8
  featureBitmap := 0
  ramTotalMb := 4096
  ramFreeMb := 2048
  batteryPercent := 80
  isCharging := true
  isAcOnline := true
  displayAttached := true
  displayWidth := 1080
  displayHeight := 2400
  touchSupported := true
  networkLinkType := .wifi
  networkBandwidthKbps := 100000

/-- A worker joins, is given two chunks, one of which is taken back, and falls silent. -/
def oneWorkerRun : List RegistryOp :=
  [.join (CStr.upTo [97]) (CStr.upTo [117]) sampleCapabilities 10, .track (CStr.upTo [97]) 5,
    .track (CStr.upTo [97]) 6, .untrack (CStr.upTo [97]) 5, .leave (CStr.upTo [98]),
    .sweep 500 100 1]

theorem registry_refines_map_oneWorkerRun :
    Refines (registryMachine.run vomRegistryCreate oneWorkerRun)
        (mapMachine.run WorkerMap.empty oneWorkerRun) ∧
      (registryMachine.answers vomRegistryCreate oneWorkerRun).map (·.returned) =
        mapMachine.answers WorkerMap.empty oneWorkerRun :=
  have h := registry_refines_map oneWorkerRun (by decide)
  ⟨h.2.2.1, h.2.2.2.1⟩

end VoidOsMerger
