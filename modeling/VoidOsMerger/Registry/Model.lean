/-
  File:      VoidOsMerger/Registry/Model.lean
  Subject:   THE WORKER REGISTRY (master/src/registry.c).

  Records are found by a linear search for the worker id and never removed; every change raises the
  version. The record array and the chunk array of a record are lists with their capacity as a field.
  `sweepRecords` is the loop of `vom_registry_sweep_stale` with its two results: marking is bounded by
  nothing, reporting by `max_out`.

  The caller's rows of `out_dead_workers` are taken to be zero-filled.
-/
import VoidOsMerger.Base.CText
import VoidOsMerger.Base.Run
import VoidOsMerger.Base.Table

namespace VoidOsMerger

/-! ## 1. Records -/

/-- `REG_MAX_WORKERS` -/
def regMaxWorkers : Nat := 64

/-- `REG_MAX_CHUNKS` -/
def regMaxChunks : Nat := 32

inductive VomCpuArch
  | x86_64 | aarch64 | armv7 | unknown
  deriving DecidableEq, Repr

inductive VomLinkType
  | eth | wifi | cellular | unknown
  deriving DecidableEq, Repr

structure VomWorkerCapabilities where
  arch : VomCpuArch
  coresOnline : UInt32
  coresTotal : UInt32
  featureBitmap : UInt32
  ramTotalMb : UInt64
  ramFreeMb : UInt64
  batteryPercent : Int32
  isCharging : Bool
  isAcOnline : Bool
  displayAttached : Bool
  displayWidth : UInt32
  displayHeight : UInt32
  touchSupported : Bool
  networkLinkType : VomLinkType
  networkBandwidthKbps : UInt64
  deriving DecidableEq

inductive WorkerRegStatus
  | approved | healthy | draining | disconnected
  deriving DecidableEq, Repr

structure WorkerRecord where
  workerId : NulBuf 64
  transportEndpoint : NulBuf 64
  status : WorkerRegStatus
  lastSeenMs : UInt64
  capabilities : VomWorkerCapabilities
  activeChunkIds : List UInt64
  chunksFit : activeChunkIds.length ≤ regMaxChunks
  deriving DecidableEq

structure RegistrySnapshot where
  records : List WorkerRecord
  recordsFit : records.length ≤ regMaxWorkers
  snapshotVersion : UInt64
  deriving DecidableEq

/-- `vom_registry_create` -/
def vomRegistryCreate : RegistrySnapshot where
  records := []
  recordsFit := Nat.zero_le _
  snapshotVersion := 1

/-! ## 2. Operations directed at a worker -/

/-- `strcmp(records[i].worker_id, worker_id) == 0` -/
def WorkerRecord.hasId (workerId : CStr) (r : WorkerRecord) : Bool :=
  strcmp r.workerId.str workerId = 0

/-- The first record with `p` is changed and the version raised. -/
def RegistrySnapshot.update (ctx : RegistrySnapshot) (p : WorkerRecord → Bool)
    (f : WorkerRecord → WorkerRecord) : RegistrySnapshot where
  records := modifyFirst p f ctx.records
  recordsFit := (length_modifyFirst p f ctx.records).trans_le ctx.recordsFit
  snapshotVersion := ctx.snapshotVersion + 1

/-- The calls that only change the record of a known worker. -/
def RegistrySnapshot.updateKnown (ctx : RegistrySnapshot) (workerId : CStr)
    (f : WorkerRecord → WorkerRecord) : RegistrySnapshot × Bool :=
  if ctx.records.any (·.hasId workerId) then (ctx.update (·.hasId workerId) f, true)
  else (ctx, false)

/-- What a join writes to a known worker's record; the endpoint and the chunks stay. -/
def WorkerRecord.rejoin (caps : VomWorkerCapabilities) (nowMs : UInt64) (r : WorkerRecord) :
    WorkerRecord :=
  { r with status := .approved, lastSeenMs := nowMs, capabilities := caps }

/-- The record of a worker that was not known. -/
def WorkerRecord.fresh (workerId transport : CStr) (caps : VomWorkerCapabilities) (nowMs : UInt64) :
    WorkerRecord where
  workerId := NulBuf.copy 63 workerId
  transportEndpoint := NulBuf.copy 63 transport
  status := .approved
  lastSeenMs := nowMs
  capabilities := caps
  activeChunkIds := []
  chunksFit := Nat.zero_le _

/-- `vom_registry_on_worker_join` -/
def vomRegistryOnWorkerJoin (ctx : RegistrySnapshot) (workerId transport : CStr)
    (caps : VomWorkerCapabilities) (nowMs : UInt64) : RegistrySnapshot × Bool :=
  if ctx.records.any (·.hasId workerId) then
    (ctx.update (·.hasId workerId) (·.rejoin caps nowMs), true)
  else if hfull : ctx.records.length ≥ regMaxWorkers then (ctx, false)
  else
    ({ records := ctx.records ++ [WorkerRecord.fresh workerId transport caps nowMs]
       recordsFit := by
         rw [List.length_append]
         exact Nat.lt_of_not_le hfull
       snapshotVersion := ctx.snapshotVersion + 1 }, true)

/-- The capabilities a heartbeat refreshes. -/
def VomWorkerCapabilities.refresh (caps dynamicCaps : VomWorkerCapabilities) :
    VomWorkerCapabilities :=
  { caps with
    ramFreeMb := dynamicCaps.ramFreeMb
    coresOnline := dynamicCaps.coresOnline
    batteryPercent := dynamicCaps.batteryPercent
    isCharging := dynamicCaps.isCharging
    isAcOnline := dynamicCaps.isAcOnline }

/-- A heartbeat brings a disconnected worker back and leaves any other status alone. -/
def WorkerRegStatus.heard (status : WorkerRegStatus) : WorkerRegStatus :=
  if status = .disconnected then .healthy else status

def WorkerRecord.heartbeat (dynamicCaps : VomWorkerCapabilities) (nowMs : UInt64)
    (r : WorkerRecord) : WorkerRecord :=
  { r with
    lastSeenMs := nowMs
    capabilities := r.capabilities.refresh dynamicCaps
    status := r.status.heard }

/-- `vom_registry_on_worker_heartbeat` -/
def vomRegistryOnWorkerHeartbeat (ctx : RegistrySnapshot) (workerId : CStr)
    (dynamicCaps : VomWorkerCapabilities) (nowMs : UInt64) : RegistrySnapshot × Bool :=
  ctx.updateKnown workerId (·.heartbeat dynamicCaps nowMs)

def WorkerRecord.disconnect (r : WorkerRecord) : WorkerRecord := { r with status := .disconnected }

/-- `vom_registry_on_worker_leave` -/
def vomRegistryOnWorkerLeave (ctx : RegistrySnapshot) (workerId : CStr) : RegistrySnapshot × Bool :=
  ctx.updateKnown workerId (·.disconnect)

/-- `r->active_chunk_ids[r->active_chunk_count++] = chunk_id`, behind its guard. -/
def WorkerRecord.track (chunkId : UInt64) (r : WorkerRecord) : WorkerRecord :=
  if hroom : r.activeChunkIds.length < regMaxChunks then
    { r with
      activeChunkIds := r.activeChunkIds ++ [chunkId]
      chunksFit := by
        rw [List.length_append]
        exact hroom }
  else r

/-- `vom_registry_track_chunk` -/
def vomRegistryTrackChunk (ctx : RegistrySnapshot) (workerId : CStr) (chunkId : UInt64) :
    RegistrySnapshot × Bool :=
  match ctx.records.find? (·.hasId workerId) with
  | none => (ctx, false)
  | some r =>
    if r.activeChunkIds.length ≥ regMaxChunks then (ctx, false)
    else (ctx.update (·.hasId workerId) (·.track chunkId), true)

/-- The `memmove` over the first occurrence of the chunk. -/
def WorkerRecord.untrack (chunkId : UInt64) (r : WorkerRecord) : WorkerRecord :=
  { r with
    activeChunkIds := r.activeChunkIds.erase chunkId
    chunksFit := List.length_erase_le.trans r.chunksFit }

/-- The record the two loops stop at: a record with the id but without the chunk is passed over. -/
def WorkerRecord.tracks (workerId : CStr) (chunkId : UInt64) (r : WorkerRecord) : Bool :=
  r.hasId workerId && r.activeChunkIds.contains chunkId

/-- `vom_registry_untrack_chunk` -/
def vomRegistryUntrackChunk (ctx : RegistrySnapshot) (workerId : CStr) (chunkId : UInt64) :
    RegistrySnapshot × Bool :=
  if ctx.records.any (·.tracks workerId chunkId) then
    (ctx.update (·.tracks workerId chunkId) (·.untrack chunkId), true)
  else (ctx, false)

/-! What these calls can end in. -/

section Cases

variable (ctx : RegistrySnapshot) (workerId : CStr)

theorem updateKnown_cases (f : WorkerRecord → WorkerRecord) :
    (∃ r, ctx.records.find? (·.hasId workerId) = some r ∧
      ctx.updateKnown workerId f = (ctx.update (·.hasId workerId) f, true)) ∨
    (ctx.records.find? (·.hasId workerId) = none ∧ ctx.updateKnown workerId f = (ctx, false)) := by
  unfold RegistrySnapshot.updateKnown
  rw [← List.isSome_find?]
  cases ctx.records.find? (·.hasId workerId) with
  | some r => exact Or.inl ⟨r, rfl, rfl⟩
  | none => exact Or.inr ⟨rfl, rfl⟩

/-- A join finds the worker, or finds no room, or adds a record. -/
theorem join_cases (transport : CStr) (caps : VomWorkerCapabilities) (nowMs : UInt64) :
    (∃ r, ctx.records.find? (·.hasId workerId) = some r ∧
      vomRegistryOnWorkerJoin ctx workerId transport caps nowMs =
        (ctx.update (·.hasId workerId) (·.rejoin caps nowMs), true)) ∨
    (ctx.records.find? (·.hasId workerId) = none ∧ regMaxWorkers ≤ ctx.records.length ∧
      vomRegistryOnWorkerJoin ctx workerId transport caps nowMs = (ctx, false)) ∨
    (ctx.records.find? (·.hasId workerId) = none ∧ ctx.records.length < regMaxWorkers ∧
      ∃ ctx', vomRegistryOnWorkerJoin ctx workerId transport caps nowMs = (ctx', true) ∧
        ctx'.records = ctx.records ++ [WorkerRecord.fresh workerId transport caps nowMs] ∧
        ctx'.snapshotVersion = ctx.snapshotVersion + 1) := by
  unfold vomRegistryOnWorkerJoin
  rw [← List.isSome_find?]
  cases ctx.records.find? (·.hasId workerId) with
  | some r => exact Or.inl ⟨r, rfl, rfl⟩
  | none =>
    right
    by_cases hfull : ctx.records.length ≥ regMaxWorkers
    · exact Or.inl ⟨rfl, hfull, dif_pos hfull⟩
    · exact Or.inr ⟨rfl, Nat.lt_of_not_le hfull, _, dif_neg hfull, rfl, rfl⟩

theorem track_cases (chunkId : UInt64) :
    ((ctx.records.find? (·.hasId workerId) = none ∨
        ∃ r, ctx.records.find? (·.hasId workerId) = some r ∧ regMaxChunks ≤ r.activeChunkIds.length) ∧
      vomRegistryTrackChunk ctx workerId chunkId = (ctx, false)) ∨
    (∃ r, ctx.records.find? (·.hasId workerId) = some r ∧ r.activeChunkIds.length < regMaxChunks ∧
      vomRegistryTrackChunk ctx workerId chunkId =
        (ctx.update (·.hasId workerId) (·.track chunkId), true)) := by
  unfold vomRegistryTrackChunk
  cases hfind : ctx.records.find? (·.hasId workerId) with
  | none => exact Or.inl ⟨Or.inl rfl, rfl⟩
  | some r =>
    by_cases hfull : r.activeChunkIds.length ≥ regMaxChunks
    · exact Or.inl ⟨Or.inr ⟨r, rfl, hfull⟩, if_pos hfull⟩
    · exact Or.inr ⟨r, rfl, Nat.lt_of_not_le hfull, if_neg hfull⟩

theorem untrack_cases (chunkId : UInt64) :
    (ctx.records.any (·.tracks workerId chunkId) = true ∧
      vomRegistryUntrackChunk ctx workerId chunkId =
        (ctx.update (·.tracks workerId chunkId) (·.untrack chunkId), true)) ∨
    (ctx.records.any (·.tracks workerId chunkId) = false ∧
      vomRegistryUntrackChunk ctx workerId chunkId = (ctx, false)) := by
  unfold vomRegistryUntrackChunk
  cases htracks : ctx.records.any (·.tracks workerId chunkId) with
  | true => exact Or.inl ⟨rfl, rfl⟩
  | false => exact Or.inr ⟨rfl, rfl⟩

/-- Tracking changes the chunks of a record only. -/
theorem WorkerRecord.track_keeps (chunkId : UInt64) (r : WorkerRecord) :
    (r.track chunkId).workerId = r.workerId ∧ (r.track chunkId).lastSeenMs = r.lastSeenMs ∧
      (r.track chunkId).status = r.status := by
  unfold WorkerRecord.track
  split <;> exact ⟨rfl, rfl, rfl⟩

end Cases

/-! ## 3. The sweep -/

/-- `r->status != REG_STATUS_DISCONNECTED && (now_ms - r->last_seen_ms) > timeout_ms` -/
def WorkerRecord.stale (nowMs timeoutMs : UInt64) (r : WorkerRecord) : Bool :=
  r.status ≠ .disconnected ∧ nowMs - r.lastSeenMs > timeoutMs

/-- The loop of the sweep; `out` are the rows written so far. -/
def sweepRecords (nowMs timeoutMs : UInt64) (maxOut : Int) :
    List WorkerRecord → List (NulBuf 64) → UInt64 → List WorkerRecord × List (NulBuf 64) × UInt64
  | [], out, version => ([], out, version)
  | r :: rs, out, version =>
    if r.stale nowMs timeoutMs then
      let out' := if out.length < maxOut then out ++ [NulBuf.copy 63 r.workerId.str] else out
      let rest := sweepRecords nowMs timeoutMs maxOut rs out' (version + 1)
      (r.disconnect :: rest.1, rest.2)
    else
      let rest := sweepRecords nowMs timeoutMs maxOut rs out version
      (r :: rest.1, rest.2)

theorem length_sweepRecords (nowMs timeoutMs : UInt64) (maxOut : Int) :
    ∀ (rs : List WorkerRecord) (out : List (NulBuf 64)) (version : UInt64),
      (sweepRecords nowMs timeoutMs maxOut rs out version).1.length = rs.length
  | [], _, _ => rfl
  | r :: rs, out, version => by
      unfold sweepRecords
      split
      · exact congrArg Nat.succ (length_sweepRecords nowMs timeoutMs maxOut rs _ _)
      · exact congrArg Nat.succ (length_sweepRecords nowMs timeoutMs maxOut rs _ _)

/-- What a sweep makes of one record. -/
def WorkerRecord.mark (nowMs timeoutMs : UInt64) (r : WorkerRecord) : WorkerRecord :=
  if r.stale nowMs timeoutMs then r.disconnect else r

/-- The row a sweep writes for a record. -/
def WorkerRecord.notice (r : WorkerRecord) : NulBuf 64 := NulBuf.copy 63 r.workerId.str

/-- **What the loop computes**: every stale record is marked and raises the version, the first ones
    are reported as far as there are rows left. -/
theorem sweepRecords_eq (nowMs timeoutMs : UInt64) (maxOut : Int) :
    ∀ (rs : List WorkerRecord) (out : List (NulBuf 64)) (version : UInt64),
      sweepRecords nowMs timeoutMs maxOut rs out version =
        (rs.map (·.mark nowMs timeoutMs),
          out ++ ((rs.filter (·.stale nowMs timeoutMs)).take (maxOut - out.length).toNat).map
            (·.notice),
          version + UInt64.ofNat (rs.countP (·.stale nowMs timeoutMs)))
  | [], out, version => by simp [sweepRecords]
  | r :: rs, out, version => by
      unfold sweepRecords
      by_cases hstale : r.stale nowMs timeoutMs = true
      · have hmark : r.mark nowMs timeoutMs = r.disconnect := if_pos hstale
        have hversion : version + 1 + UInt64.ofNat (rs.countP (·.stale nowMs timeoutMs)) =
            version + UInt64.ofNat ((r :: rs).countP (·.stale nowMs timeoutMs)) := by
          rw [List.countP_cons_of_pos hstale, UInt64.ofNat_add, UInt64.add_assoc, UInt64.add_comm 1]
          rfl
        rw [if_pos hstale]
        simp only [sweepRecords_eq nowMs timeoutMs maxOut rs]
        rw [hversion, List.map_cons, hmark, List.filter_cons_of_pos hstale]
        by_cases hroom : (out.length : Int) < maxOut
        · -- a row is left: it goes to this record, and one row less to the rest
          have hrows : (maxOut - out.length).toNat =
              (maxOut - (out ++ [r.notice]).length).toNat + 1 := by
            rw [List.length_append, List.length_singleton]
            omega
          rw [if_pos hroom, hrows, List.take_succ_cons, List.map_cons, List.append_assoc]
          rfl
        · have hrows : (maxOut - out.length).toNat = 0 := by omega
          rw [if_neg hroom, hrows, List.take_zero, List.take_zero]
      · have hmark : r.mark nowMs timeoutMs = r := if_neg hstale
        rw [if_neg hstale]
        simp only [sweepRecords_eq nowMs timeoutMs maxOut rs]
        rw [List.map_cons, hmark, List.filter_cons_of_neg hstale, List.countP_cons_of_neg hstale]

/-- `vom_registry_sweep_stale`: the registry, and the rows of `out_dead_workers` that were written;
    the returned `dead_count` is their number. -/
def vomRegistrySweepStale (ctx : RegistrySnapshot) (nowMs timeoutMs : UInt64) (maxOut : Int) :
    RegistrySnapshot × List (NulBuf 64) :=
  if maxOut ≤ 0 then (ctx, [])
  else
    let swept := sweepRecords nowMs timeoutMs maxOut ctx.records [] ctx.snapshotVersion
    ({ records := swept.1
       recordsFit := (length_sweepRecords nowMs timeoutMs maxOut ctx.records _ _).trans_le
         ctx.recordsFit
       snapshotVersion := swept.2.2 }, swept.2.1)

section SweepStale

variable (ctx : RegistrySnapshot) (nowMs timeoutMs : UInt64) {maxOut : Int}

theorem sweepStale_nonpos (hmax : maxOut ≤ 0) :
    vomRegistrySweepStale ctx nowMs timeoutMs maxOut = (ctx, []) :=
  if_pos hmax

theorem sweepStale_records (hmax : ¬ maxOut ≤ 0) :
    (vomRegistrySweepStale ctx nowMs timeoutMs maxOut).1.records =
      ctx.records.map (·.mark nowMs timeoutMs) := by
  rw [vomRegistrySweepStale, if_neg hmax]
  exact congrArg Prod.fst (sweepRecords_eq nowMs timeoutMs maxOut ctx.records [] ctx.snapshotVersion)

theorem sweepStale_version (hmax : ¬ maxOut ≤ 0) :
    (vomRegistrySweepStale ctx nowMs timeoutMs maxOut).1.snapshotVersion =
      ctx.snapshotVersion + UInt64.ofNat (ctx.records.countP (·.stale nowMs timeoutMs)) := by
  rw [vomRegistrySweepStale, if_neg hmax]
  exact congrArg (·.2.2) (sweepRecords_eq nowMs timeoutMs maxOut ctx.records [] ctx.snapshotVersion)

theorem sweepStale_out (hmax : ¬ maxOut ≤ 0) :
    (vomRegistrySweepStale ctx nowMs timeoutMs maxOut).2 =
      ((ctx.records.filter (·.stale nowMs timeoutMs)).take maxOut.toNat).map (·.notice) := by
  have hout := congrArg (·.2.1)
    (sweepRecords_eq nowMs timeoutMs maxOut ctx.records [] ctx.snapshotVersion)
  rw [List.length_nil, Int.natCast_zero, Int.sub_zero] at hout
  rw [vomRegistrySweepStale, if_neg hmax]
  exact hout

end SweepStale

/-! ## 4. The registry as a machine -/

inductive RegistryOp
  | join (workerId transport : CStr) (caps : VomWorkerCapabilities) (nowMs : UInt64)
  | heartbeat (workerId : CStr) (dynamicCaps : VomWorkerCapabilities) (nowMs : UInt64)
  | leave (workerId : CStr)
  | track (workerId : CStr) (chunkId : UInt64)
  | untrack (workerId : CStr) (chunkId : UInt64)
  | sweep (nowMs timeoutMs : UInt64) (maxOut : Int)
  deriving DecidableEq

inductive RegistryAnswer
  | ok (b : Bool)
  | dead (out : List (NulBuf 64))
  deriving DecidableEq

def registryMachine : Machine RegistrySnapshot RegistryOp RegistryAnswer where
  step ctx
    | .join workerId transport caps nowMs =>
      let r := vomRegistryOnWorkerJoin ctx workerId transport caps nowMs
      (r.1, .ok r.2)
    | .heartbeat workerId dynamicCaps nowMs =>
      let r := vomRegistryOnWorkerHeartbeat ctx workerId dynamicCaps nowMs
      (r.1, .ok r.2)
    | .leave workerId =>
      let r := vomRegistryOnWorkerLeave ctx workerId
      (r.1, .ok r.2)
    | .track workerId chunkId =>
      let r := vomRegistryTrackChunk ctx workerId chunkId
      (r.1, .ok r.2)
    | .untrack workerId chunkId =>
      let r := vomRegistryUntrackChunk ctx workerId chunkId
      (r.1, .ok r.2)
    | .sweep nowMs timeoutMs maxOut =>
      let r := vomRegistrySweepStale ctx nowMs timeoutMs maxOut
      (r.1, .dead r.2)

end VoidOsMerger
