/-
  File:      VoidOsMerger/Registry/Mirror.lean
  Subject:   THE TWO LIVENESS TRACKERS AGREE.

  The registry (master/src/registry.c) and the recovery engine (master/src/recovery.c) keep a table of
  workers each. `mirrorMachine` runs both: every join and heartbeat that the registry accepts is
  mirrored by a heartbeat of the recovery engine, every sweep by a sweep; chunks are tracked, leases
  injected and results processed on one side only. `vom_registry_on_worker_leave` is not among the
  operations.

  * `SameWorker` -- a record and an observation of one worker;
  * `mirrored_next` -- one operation keeps the tables in step;
  * **`trackers_agree`** -- over whole runs.
-/
import VoidOsMerger.Registry.Refinement
import VoidOsMerger.Recovery.ExactlyOnce

namespace VoidOsMerger

/-! ## 1. Both trackers -/

structure Trackers where
  registry : RegistrySnapshot
  recovery : RecoveryContext

def initialTrackers : Trackers := ⟨vomRegistryCreate, vomRecoveryInit⟩

inductive MirrorOp
  | join (workerId transport : CStr) (caps : VomWorkerCapabilities) (nowMs : UInt64)
  | heartbeat (workerId : CStr) (dynamicCaps : VomWorkerCapabilities) (nowMs : UInt64)
  | sweep (nowMs timeoutMs : UInt64) (maxOut : Int)
  | track (workerId : CStr) (chunkId : UInt64)
  | untrack (workerId : CStr) (chunkId : UInt64)
  | result (leaseId : UInt64) (workerId : CStr)
  | inject (leaseId chunkId : UInt64) (workerId : CStr) (expiresMs : UInt64)
      (policy : VomRetryAction)
  deriving DecidableEq

/-- The worker is heard by the recovery engine, if the registry has accepted it. -/
def Trackers.mirrorHeard (recovery : RecoveryContext) (r : RegistrySnapshot × Bool) (workerId : CStr)
    (nowMs : UInt64) : Trackers :=
  ⟨r.1, if r.2 then vomRecoveryRegisterWorkerHeartbeat recovery workerId nowMs else recovery⟩

def mirrorNext (t : Trackers) : MirrorOp → Trackers
  | .join workerId transport caps nowMs =>
    Trackers.mirrorHeard t.recovery
      (vomRegistryOnWorkerJoin t.registry workerId transport caps nowMs) workerId nowMs
  | .heartbeat workerId dynamicCaps nowMs =>
    Trackers.mirrorHeard t.recovery
      (vomRegistryOnWorkerHeartbeat t.registry workerId dynamicCaps nowMs) workerId nowMs
  | .sweep nowMs timeoutMs maxOut =>
    ⟨(vomRegistrySweepStale t.registry nowMs timeoutMs maxOut).1,
      vomRecoverySweepTimeouts t.recovery nowMs timeoutMs⟩
  | .track workerId chunkId => { t with registry := (vomRegistryTrackChunk t.registry workerId chunkId).1 }
  | .untrack workerId chunkId =>
    { t with registry := (vomRegistryUntrackChunk t.registry workerId chunkId).1 }
  | .result leaseId workerId =>
    { t with recovery := (vomRecoveryProcessIncomingResult t.recovery leaseId workerId).1 }
  | .inject leaseId chunkId workerId expiresMs policy =>
    { t with
      recovery := vomRecoveryInjectTestLease t.recovery leaseId chunkId workerId expiresMs policy }

def mirrorMachine : Machine Trackers MirrorOp Unit where
  step t o := (mirrorNext t o, ())

/-- The ids of joining workers have at most 63 bytes, and sweeps are given rows to report in. -/
def MirrorOp.Fits : MirrorOp → Prop
  | .join workerId _ _ _ => workerId.strlen ≤ 63
  | .sweep _ _ maxOut => 0 < maxOut
  | _ => True

instance (o : MirrorOp) : Decidable o.Fits := by
  cases o <;> unfold MirrorOp.Fits <;> infer_instance

/-! ## 2. Records and observations in step -/

/-- A record of the registry and an observation of the recovery engine, of one worker. -/
structure SameWorker (r : WorkerRecord) (w : RecWorkerObs) : Prop where
  id : r.workerId.str = w.workerId.str
  seen : r.lastSeenMs = w.lastHeartbeatMs
  lost : r.status = .disconnected ↔ w.isHealthy = false

/-- The two tables of workers are in step. -/
def InStep (t : Trackers) : Prop :=
  List.Forall₂ SameWorker t.registry.records t.recovery.workers

/-- Both searches by id stop at the same worker. -/
theorem SameWorker.search {r : WorkerRecord} {w : RecWorkerObs} (h : SameWorker r w)
    (workerId : CStr) : r.hasId workerId = decide (strcmp w.workerId.str workerId = 0) := by
  unfold WorkerRecord.hasId
  rw [h.id]

/-- Both sweeps take the same worker for lost. -/
theorem SameWorker.mark {r : WorkerRecord} {w : RecWorkerObs} (h : SameWorker r w)
    (nowMs timeoutMs : UInt64) : SameWorker (r.mark nowMs timeoutMs) (w.mark nowMs timeoutMs) := by
  have hstale : r.stale nowMs timeoutMs = true ↔
      w.isHealthy = true ∧ nowMs - w.lastHeartbeatMs > timeoutMs := by
    unfold WorkerRecord.stale
    rw [decide_eq_true_iff, h.seen, ne_eq, h.lost, Bool.not_eq_false]
  unfold WorkerRecord.mark RecWorkerObs.mark
  by_cases hmark : r.stale nowMs timeoutMs = true
  · rw [if_pos hmark, if_pos (hstale.mp hmark)]
    exact ⟨h.id, h.seen, iff_of_true rfl rfl⟩
  · rw [if_neg hmark, if_neg (mt hstale.mpr hmark)]
    exact h

/-- A worker heard by both. -/
theorem SameWorker.heard {r r' : WorkerRecord} {w : RecWorkerObs} (h : SameWorker r w)
    {nowMs : UInt64} (hid : r'.workerId = r.workerId) (hseen : r'.lastSeenMs = nowMs)
    (hst : r'.status ≠ .disconnected) :
    SameWorker r' { w with lastHeartbeatMs := nowMs, isHealthy := true } where
  id := hid ▸ h.id
  seen := hseen
  lost := iff_of_false hst nofun

/-! ## 3. One operation -/

/-- A known worker heard by both. -/
theorem inStep_known {s : RegistrySnapshot} {ctx : RecoveryContext}
    (h : List.Forall₂ SameWorker s.records ctx.workers) {workerId : CStr} {nowMs : UInt64}
    {r : WorkerRecord} (hknown : s.records.find? (·.hasId workerId) = some r) {f : WorkerRecord → WorkerRecord}
    (hid : ∀ r, (f r).workerId = r.workerId) (hseen : ∀ r, (f r).lastSeenMs = nowMs)
    (hst : ∀ r, (f r).status ≠ .disconnected) :
    List.Forall₂ SameWorker (s.update (·.hasId workerId) f).records
      (vomRecoveryRegisterWorkerHeartbeat ctx workerId nowMs).workers := by
  have hsearch := fun r w (hrw : SameWorker r w) => hrw.search workerId
  have hany : s.records.any (·.hasId workerId) = true := by
    rw [← List.isSome_find?, hknown]
    rfl
  rw [forall₂_any h hsearch] at hany
  unfold vomRecoveryRegisterWorkerHeartbeat
  rw [if_pos hany]
  exact forall₂_modifyFirst_both h hsearch fun r w hrw _ => hrw.heard (hid r) (hseen r) (hst r)

theorem inStep_join {t : Trackers} (h : InStep t) (workerId transport : CStr)
    (caps : VomWorkerCapabilities) (nowMs : UInt64) :
    InStep (mirrorNext t (.join workerId transport caps nowMs)) := by
  show InStep (Trackers.mirrorHeard t.recovery
    (vomRegistryOnWorkerJoin t.registry workerId transport caps nowMs) workerId nowMs)
  rcases join_cases t.registry workerId transport caps nowMs with ⟨r, hfind, heq⟩ | ⟨-, -, heq⟩ |
    ⟨hfind, hroom, s, heq, hrecords, -⟩
  · rw [heq]
    exact inStep_known h hfind (fun _ => rfl) (fun _ => rfl) fun _ => nofun
  · rw [heq]
    exact h
  · -- unknown to both, and both have room
    have hsearch := fun r w (hrw : SameWorker r w) => hrw.search workerId
    have hany := forall₂_any h hsearch
    rw [← List.isSome_find?, hfind] at hany
    have hroom' : t.recovery.workers.length < recMaxWorkers := h.length_eq ▸ hroom
    rw [heq]
    show List.Forall₂ SameWorker s.records
      (vomRecoveryRegisterWorkerHeartbeat t.recovery workerId nowMs).workers
    rw [hrecords, vomRecoveryRegisterWorkerHeartbeat, if_neg (by rw [← hany]; exact nofun),
      if_pos hroom']
    refine List.rel_append h (List.Forall₂.cons ⟨rfl, rfl, ?_⟩ List.Forall₂.nil)
    exact iff_of_false nofun nofun

theorem WorkerRegStatus.heard_ne (status : WorkerRegStatus) : status.heard ≠ .disconnected := by
  cases status <;> decide

theorem inStep_heartbeat {t : Trackers} (h : InStep t) (workerId : CStr)
    (dynamicCaps : VomWorkerCapabilities) (nowMs : UInt64) :
    InStep (mirrorNext t (.heartbeat workerId dynamicCaps nowMs)) := by
  show InStep (Trackers.mirrorHeard t.recovery
    (vomRegistryOnWorkerHeartbeat t.registry workerId dynamicCaps nowMs) workerId nowMs)
  rcases updateKnown_cases t.registry workerId (·.heartbeat dynamicCaps nowMs) with
    ⟨r, hfind, heq⟩ | ⟨-, heq⟩
  · rw [vomRegistryOnWorkerHeartbeat, heq]
    exact inStep_known h hfind (fun _ => rfl) (fun _ => rfl) fun r => r.status.heard_ne
  · rw [vomRegistryOnWorkerHeartbeat, heq]
    exact h

theorem inStep_sweep {t : Trackers} (h : InStep t) (nowMs timeoutMs : UInt64) {maxOut : Int}
    (hmax : 0 < maxOut) : InStep (mirrorNext t (.sweep nowMs timeoutMs maxOut)) := by
  show List.Forall₂ SameWorker (vomRegistrySweepStale t.registry nowMs timeoutMs maxOut).1.records
    (vomRecoverySweepTimeouts t.recovery nowMs timeoutMs).workers
  rw [sweepStale_records t.registry nowMs timeoutMs (Int.not_le.mpr hmax), sweep_workers,
    List.forall₂_map_left_iff, List.forall₂_map_right_iff]
  exact h.imp fun _ _ hrw => hrw.mark nowMs timeoutMs

/-- Chunks are no concern of the recovery engine. -/
theorem inStep_chunks {t : Trackers} (h : InStep t) (p : WorkerRecord → Bool)
    {f : WorkerRecord → WorkerRecord} (hf : ∀ r : WorkerRecord, (f r).workerId = r.workerId ∧
      (f r).lastSeenMs = r.lastSeenMs ∧ (f r).status = r.status) :
    InStep { t with registry := t.registry.update p f } := by
  refine forall₂_modifyFirst_left h fun r w hrw => ?_
  obtain ⟨hid, hseen, hst⟩ := hf r
  exact ⟨hid ▸ hrw.id, hseen ▸ hrw.seen, hst ▸ hrw.lost⟩

theorem inStep_track {t : Trackers} (h : InStep t) (workerId : CStr) (chunkId : UInt64) :
    InStep (mirrorNext t (.track workerId chunkId)) := by
  show InStep { t with registry := (vomRegistryTrackChunk t.registry workerId chunkId).1 }
  rcases track_cases t.registry workerId chunkId with ⟨-, heq⟩ | ⟨r, -, -, heq⟩
  · rwa [heq]
  · rw [heq]
    exact inStep_chunks h _ fun r => r.track_keeps chunkId

theorem inStep_untrack {t : Trackers} (h : InStep t) (workerId : CStr) (chunkId : UInt64) :
    InStep (mirrorNext t (.untrack workerId chunkId)) := by
  show InStep { t with registry := (vomRegistryUntrackChunk t.registry workerId chunkId).1 }
  rcases untrack_cases t.registry workerId chunkId with ⟨-, heq⟩ | ⟨-, heq⟩
  · rw [heq]
    exact inStep_chunks h _ fun _ => ⟨rfl, rfl, rfl⟩
  · rwa [heq]

/-- Leases are no concern of the registry, nor do they change the workers. -/
theorem inStep_recovery {t : Trackers} (h : InStep t) {ctx : RecoveryContext}
    (hctx : ctx.workers = t.recovery.workers) : InStep { t with recovery := ctx } := by
  show List.Forall₂ SameWorker t.registry.records ctx.workers
  rwa [hctx]

/-- **One operation keeps the tables in step.** -/
theorem inStep_next {t : Trackers} (h : InStep t) {o : MirrorOp} (hfit : o.Fits) :
    InStep (mirrorNext t o) := by
  cases o with
  | join workerId transport caps nowMs => exact inStep_join h workerId transport caps nowMs
  | heartbeat workerId dynamicCaps nowMs => exact inStep_heartbeat h workerId dynamicCaps nowMs
  | sweep nowMs timeoutMs maxOut => exact inStep_sweep h nowMs timeoutMs hfit
  | track workerId chunkId => exact inStep_track h workerId chunkId
  | untrack workerId chunkId => exact inStep_untrack h workerId chunkId
  | result leaseId workerId => exact inStep_recovery h (result_workers _ leaseId workerId)
  | inject leaseId chunkId workerId expiresMs policy =>
    exact inStep_recovery h (inject_workers _ leaseId chunkId workerId expiresMs policy)

/-! ## 4. Whole runs -/

/-- What the registry is asked. -/
def MirrorOp.registryOp : MirrorOp → Option RegistryOp
  | .join workerId transport caps nowMs => some (.join workerId transport caps nowMs)
  | .heartbeat workerId dynamicCaps nowMs => some (.heartbeat workerId dynamicCaps nowMs)
  | .sweep nowMs timeoutMs maxOut => some (.sweep nowMs timeoutMs maxOut)
  | .track workerId chunkId => some (.track workerId chunkId)
  | .untrack workerId chunkId => some (.untrack workerId chunkId)
  | .result _ _ => none
  | .inject _ _ _ _ _ => none

theorem mirrorNext_registry (t : Trackers) (o : MirrorOp) :
    (mirrorNext t o).registry = o.registryOp.elim t.registry (registryMachine.next t.registry) := by
  cases o <;> rfl

theorem MirrorOp.Fits.registryOp {o : MirrorOp} (h : o.Fits) {o' : RegistryOp}
    (ho : o.registryOp = some o') : o'.IdFits := by
  cases o with
  | join => cases ho; exact h
  | result => cases ho
  | inject => cases ho
  | _ => cases ho; trivial

/-- The registry holds a finite map, and the tables are in step. -/
structure Mirrored (t : Trackers) : Prop where
  map : ∃ m, Refines t.registry m
  inStep : InStep t

theorem mirrored_next (t : Trackers) (o : MirrorOp) (h : Mirrored t) (hfit : o.Fits) :
    Mirrored (mirrorNext t o) := by
  refine ⟨?_, inStep_next h.inStep hfit⟩
  obtain ⟨m, hm⟩ := h.map
  rw [mirrorNext_registry]
  cases ho : o.registryOp with
  | none => exact ⟨m, hm⟩
  | some o' => exact ⟨_, (refines_next _ m o' hm (hfit.registryOp ho)).1⟩

/-- **The two liveness trackers agree.** After every mirrored run in which the ids of joining workers
    have at most 63 bytes and `max_out` is positive, both tables hold the same worker ids, in the same
    order and each once, and a worker's status is `REG_STATUS_DISCONNECTED` exactly when its
    observation has `is_healthy` false. -/
theorem trackers_agree (ops : List MirrorOp) (hfit : ∀ o ∈ ops, o.Fits) :
    ((mirrorMachine.run initialTrackers ops).registry.records.map (·.workerId.str)) =
      (mirrorMachine.run initialTrackers ops).recovery.workers.map (·.workerId.str) ∧
    ((mirrorMachine.run initialTrackers ops).registry.records.map (·.workerId.str)).Nodup ∧
    ∀ r ∈ (mirrorMachine.run initialTrackers ops).registry.records,
      ∀ w ∈ (mirrorMachine.run initialTrackers ops).recovery.workers,
        r.workerId.str = w.workerId.str → (r.status = .disconnected ↔ w.isHealthy = false) := by
  have hrun : Mirrored (mirrorMachine.run initialTrackers ops) := by
    refine mirrorMachine.invariant Mirrored (fun t o h ho => mirrored_next t o h ho)
      ⟨⟨WorkerMap.empty, refines_create⟩, List.Forall₂.nil⟩
      (mirrorMachine.legal_of_forall _ hfit)
  obtain ⟨⟨m, hm⟩, hstep⟩ := hrun
  have hids : (mirrorMachine.run initialTrackers ops).registry.records.map (·.workerId.str) =
      (mirrorMachine.run initialTrackers ops).recovery.workers.map (·.workerId.str) := by
    rw [← List.forall₂_eq_eq_eq, List.forall₂_map_left_iff, List.forall₂_map_right_iff]
    exact hstep.imp fun _ _ hrw => hrw.id
  refine ⟨hids, hm.workers.nodup, fun r hr w hw hid => ?_⟩
  -- the record in step with the observation is the one with its id
  obtain ⟨r₁, hr₁, hsame⟩ := forall₂_exists_left hstep hw
  obtain rfl := List.inj_on_of_nodup_map hm.workers.nodup hr hr₁ (hid.trans hsame.id.symm)
  exact hsame.lost

/-- Two workers join, one is given a chunk, both fall silent, and one comes back. -/
def lostAndFound : List MirrorOp :=
  [.join (CStr.upTo [97]) (CStr.upTo [117]) sampleCapabilities 10, .track (CStr.upTo [97]) 5,
    .inject 1 5 (CStr.upTo [97]) 900 .immediate,
    .join (CStr.upTo [98]) (CStr.upTo [117]) sampleCapabilities 20, .sweep 500 100 1,
    .heartbeat (CStr.upTo [97]) sampleCapabilities 510]

theorem trackers_agree_lostAndFound :
    (mirrorMachine.run initialTrackers lostAndFound).registry.records.map (·.status) =
        [.healthy, .disconnected] ∧
      (mirrorMachine.run initialTrackers lostAndFound).registry.records.map (·.workerId.str) =
        (mirrorMachine.run initialTrackers lostAndFound).recovery.workers.map (·.workerId.str) :=
  ⟨by decide +kernel, (trackers_agree lostAndFound (by decide)).1⟩

end VoidOsMerger
