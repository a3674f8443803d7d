/-
  File:      VoidOsMerger/Webui/Roundtrip.lean
  Subject:   THE DASHBOARD SHOWS WHAT THE MASTER WROTE.

  Every offset and stride of the reader is the place of a field in the image of the state
  (`Codec.At`), so that each `unpack_from` answers the field. The reader keeps the entries with
  non-zero ids and cuts the lists at the counts; in a reachable state the slots not in use have id 0,
  also when nothing is in use and the reader does not cut.

  * `shown` -- what the dashboard should show of a state;
  * `parseWorker_at`, `parseLease_at`, `parseMetrics_at`, `parseArray_at` -- the parts of the reader;
  * **`dashboard_shows_persisted`** -- `parse_wal` inverts `cluster_state_persist_to_wal`.
-/
import VoidOsMerger.Webui.Model
import VoidOsMerger.ClusterState.Invariant

namespace VoidOsMerger

/-! ## 1. What there is to show -/

/-- The name of an enumeration field, by its code where it has none. -/
def enumText {E : Type} {n : Nat} (name : E → String) : CEnum E n → String
  | .value e => name e
  | .other c => "UNKNOWN(" ++ toString c.1.toInt32.toInt ++ ")"

def ClusterStatus.text : ClusterStatus → String
  | .boostrap => "BOOTSTRAP"
  | .operational => "OPERATIONAL"
  | .degraded => "DEGRADED"

def WorkerHealth.text : WorkerHealth → String
  | .online => "ONLINE"
  | .draining => "DRAINING"
  | .offline => "OFFLINE"

def LeaseStatus.text : LeaseStatus → String
  | .running => "RUNNING"
  | .completed => "COMPLETED"
  | .failed => "FAILED"
  | .timedOut => "TIMED_OUT"

section

variable {F : Type} [PyNumber F]

def WorkerMember.shown (w : WorkerMember) : DashboardWorker F where
  id := w.workerId
  health := enumText WorkerHealth.text w.health
  lastSeenMs := w.lastSeenTimestampMs
  totalMemoryGb := gigabytes w.resources.totalMemoryBytes
  reservedMemoryGb := gigabytes w.resources.reservedMemoryBytes
  totalCores := w.resources.totalCores
  reservedCores := w.resources.reservedCores

def ChunkLease.shown (l : ChunkLease) : DashboardLease F where
  chunkId := l.chunkId
  status := enumText LeaseStatus.text l.status
  progress := PyNumber.round1 (PyNumber.mulInt (PyNumber.ofFloat32 l.progressPercentage) 100)
  retryCount := l.failureRetryCount

def ClusterMetrics.shown (m : ClusterMetrics) : DashboardMetrics F where
  aggregateMemoryGb := gigabytes m.clusterAggregateMemoryBytes
  allocatedMemoryGb := gigabytes m.clusterAllocatedMemoryBytes
  aggregateCores := m.clusterAggregateCores
  allocatedCores := m.clusterAllocatedCores
  activeWorkers := m.activeWorkerCount

/-- What the dashboard should show of a state: its fields, the registered workers and the leases in
    order. -/
def ClusterStateSnapshot.shown (readTime : F) (s : ClusterStateSnapshot) : DashboardState F where
  clusterUuid := asciiText (CStr.upTo s.clusterUuid.toList).bytes
  masterEpoch := s.masterEpoch
  stateGeneration := s.stateGenerationVersion
  globalStatus := enumText ClusterStatus.text s.globalStatus
  workers := s.workers.map (·.shown)
  totalWorkers := s.totalRegisteredWorkers.toInt
  leases := s.leases.map (·.shown)
  totalLeases := s.totalActiveLeases.toInt
  metrics := s.metrics.shown
  readTime := readTime

/-! ## 2. Fields -/

theorem unpackFrom_at {α : Type} {c : Codec α} {data : List UInt8} {off : Nat} {a : α}
    (h : c.At data off a) : unpackFrom c data off = .ok a := by
  rw [unpackFrom, if_pos h.fits, h.dec]

/-- A table with the names of an enumeration under their codes and nothing else. -/
theorem nameOf_word {E : Type} {n : Nat} {names : List (Int × String)} {code : E → UInt32}
    {name : E → String} (hvalue : ∀ e, names.lookup (code e).toInt32.toInt = some (name e))
    (hkeys : ∀ p ∈ names, 0 ≤ p.1 ∧ p.1 < n) (hn : n ≤ 2 ^ 31) (x : CEnum E n) :
    nameOf names (x.word code).toInt32.toInt = enumText name x := by
  cases x with
  | value e =>
    show (names.lookup (code e).toInt32.toInt).getD _ = name e
    rw [hvalue e]
    rfl
  | other c =>
    have hnone : names.lookup c.1.toInt32.toInt = none := by
      rw [List.lookup_eq_none_iff]
      intro p hp
      rw [bne_iff_ne]
      intro e
      exact word_outside c.2 hn (e ▸ hkeys p hp)
    show (names.lookup c.1.toInt32.toInt).getD _ = _
    rw [hnone]
    rfl

theorem statusNames_word (x : CEnum ClusterStatus 3) :
    nameOf statusNames (x.word ClusterStatus.code).toInt32.toInt = enumText ClusterStatus.text x :=
  nameOf_word (fun e => by cases e <;> rfl) (by decide) (by decide) x

theorem healthNames_word (x : CEnum WorkerHealth 3) :
    nameOf healthNames (x.word WorkerHealth.code).toInt32.toInt = enumText WorkerHealth.text x :=
  nameOf_word (fun e => by cases e <;> rfl) (by decide) (by decide) x

theorem leaseNames_word (x : CEnum LeaseStatus 4) :
    nameOf leaseNames (x.word LeaseStatus.code).toInt32.toInt = enumText LeaseStatus.text x :=
  nameOf_word (fun e => by cases e <;> rfl) (by decide) (by decide) x

theorem parseWorker_at {data : List UInt8} {woff : Nat} {w : WorkerMember}
    (h : workerMemberCodec.At data woff w) :
    parseWorker (F := F) data woff = .ok (if w.workerId ≠ 0 then some w.shown else none) := by
  have hid : Codec.u32.At data woff w.workerId := h.unmap.head
  have hhealth : Codec.int32.At data (woff + 4) (w.health.word WorkerHealth.code).toInt32 :=
    h.unmap.tail.head.enumWord
  have hseen : Codec.u64.At data (woff + 8) w.lastSeenTimestampMs := h.unmap.tail.tail.head
  have hres : workerResourcesCodec.At data (woff + 16) w.resources := h.unmap.tail.tail.tail
  have htotalMem : Codec.u64.At data (woff + 16) w.resources.totalMemoryBytes := hres.unmap.head
  have hreservedMem : Codec.u64.At data (woff + 24) w.resources.reservedMemoryBytes :=
    hres.unmap.tail.head
  have htotalCores : Codec.u32.At data (woff + 32) w.resources.totalCores :=
    hres.unmap.tail.tail.head
  have hreservedCores : Codec.u32.At data (woff + 36) w.resources.reservedCores :=
    hres.unmap.tail.tail.tail
  unfold parseWorker
  rw [unpackFrom_at hid, unpackFrom_at hhealth, unpackFrom_at hseen, unpackFrom_at htotalMem,
    unpackFrom_at hreservedMem, unpackFrom_at htotalCores, unpackFrom_at hreservedCores]
  dsimp only [bind, Except.bind, pure, Except.pure]
  rw [healthNames_word]
  rfl

theorem parseLease_at {data : List UInt8} {loff : Nat} {l : ChunkLease}
    (h : chunkLeaseCodec.At data loff l) :
    parseLease (F := F) data loff = .ok (if l.chunkId ≠ 0 then some l.shown else none) := by
  have hf := h.unpad.unmap
  have hid : Codec.u64.At data loff l.chunkId := hf.head
  have hstatus : Codec.int32.At data (loff + 8) (l.status.word LeaseStatus.code).toInt32 :=
    hf.tail.head.enumWord
  have hprogress : Codec.u32.At data (loff + 12) l.progressPercentage := hf.tail.tail.head
  have hretry : Codec.u32.At data (loff + 16) l.failureRetryCount := hf.tail.tail.tail
  unfold parseLease
  rw [unpackFrom_at hid, unpackFrom_at hstatus, unpackFrom_at hprogress, unpackFrom_at hretry]
  dsimp only [bind, Except.bind, pure, Except.pure]
  rw [leaseNames_word]
  rfl

end

theorem parseTotal_at {data : List UInt8} {off : Nat} {n : Int32}
    (h : (Codec.int32.pad 4).At data off n) : parseTotal data off = .ok n.toInt := by
  have hfits : off + 8 ≤ data.length := h.fits
  unfold parseTotal
  rw [if_neg (Nat.not_lt.mpr hfits), unpackFrom_at h.unpad]
  rfl

theorem parseMetrics_at {data : List UInt8} {off : Nat} {m : ClusterMetrics}
    (h : clusterMetricsCodec.At data off m) : parseMetrics data off = .ok m := by
  have hfits : off + sizeofClusterMetrics ≤ data.length := h.fits
  have hf := h.unpad.unmap
  have haggMem : Codec.u64.At data off m.clusterAggregateMemoryBytes := hf.head
  have hallocMem : Codec.u64.At data (off + 8) m.clusterAllocatedMemoryBytes := hf.tail.head
  have haggCores : Codec.u32.At data (off + 16) m.clusterAggregateCores := hf.tail.tail.head
  have hallocCores : Codec.u32.At data (off + 20) m.clusterAllocatedCores := hf.tail.tail.tail.head
  have hactive : Codec.u32.At data (off + 24) m.activeWorkerCount := hf.tail.tail.tail.tail
  unfold parseMetrics
  rw [if_pos hfits, unpackFrom_at haggMem, unpackFrom_at hallocMem, unpackFrom_at haggCores,
    unpackFrom_at hallocCores, unpackFrom_at hactive]
  rfl

/-! ## 3. Arrays -/

/-- The loop over an array that lies in the data: one entry after another. -/
theorem parseArray_at {α β : Type} {data : List UInt8} {off size : Nat}
    {parse : Nat → Except PyError (Option β)} {f : α → Option β} :
    ∀ (as : List α) {i : Nat},
      (∀ k a, as[k]? = some a → parse (off + (i + k) * size) = .ok (f a)) →
      off + (i + as.length) * size ≤ data.length →
      parseArray data off size parse i as.length = .ok (as.filterMap f)
  | [], _, _, _ => rfl
  | a :: as, i, hparse, hfits => by
      have hhead : parse (off + i * size) = .ok (f a) := hparse 0 a rfl
      have hlast : off + i * size + size ≤ data.length := by
        rw [List.length_cons, Nat.add_mul, Nat.add_mul, Nat.one_mul] at hfits
        omega
      have htail : parseArray data off size parse (i + 1) as.length = .ok (as.filterMap f) := by
        refine parseArray_at as (fun k b hk => ?_) ?_
        · have h := hparse (k + 1) b hk
          rwa [show i + (k + 1) = i + 1 + k by omega] at h
        · rwa [List.length_cons, show i + (as.length + 1) = i + 1 + as.length by omega] at hfits
      rw [List.length_cons, parseArray, if_neg (Nat.not_lt.mpr hlast), hhead, htail]
      show Except.ok ((f a).toList ++ as.filterMap f) = _
      rw [filterMap_cons_toList]

/-- The entries in use, when the others have none. -/
theorem filterMap_used {α β : Type} {n : Nat} {v : Vector α n} {count : Int} {f : α → Option β}
    {g : α → β} (hused : ∀ a ∈ used v count, f a = some (g a))
    (hspare : ∀ a ∈ spare v count, f a = none) :
    v.toList.filterMap f = (used v count).map g := by
  have hsplit : v.toList = used v count ++ spare v count := (List.take_append_drop _ _).symm
  rw [hsplit, List.filterMap_append, List.filterMap_eq_nil_iff.mpr hspare, List.append_nil,
    List.filterMap_congr hused, List.filterMap_eq_map']

/-- An array of which the entries not in use are skipped. -/
theorem parseArray_used {α β : Type} {data : List UInt8} {off n : Nat} {c : Codec α}
    {v : Vector α n} {count : Int} {parse : Nat → Except PyError (Option β)} {f : α → Option β}
    {g : α → β} (h : (c.vec n).At data off v)
    (hparse : ∀ o a, c.At data o a → parse o = .ok (f a))
    (hused : ∀ a ∈ used v count, f a = some (g a)) (hspare : ∀ a ∈ spare v count, f a = none) :
    parseArray data off c.size parse 0 n = .ok ((used v count).map g) := by
  have hlen : v.toList.length = n := Vector.length_toList
  have hfits : off + n * c.size ≤ data.length := h.fits
  have hloop : parseArray data off c.size parse 0 v.toList.length = .ok (v.toList.filterMap f) := by
    refine parseArray_at v.toList (fun k a hk => ?_) ?_
    · rw [Nat.zero_add]
      exact hparse _ a (h.entry hk)
    · rwa [Nat.zero_add, hlen]
  rw [← filterMap_used hused hspare, ← hloop, hlen]

/-- Cutting at the count changes nothing. -/
theorem sliced_used {α β : Type} {n : Nat} {v : Vector α n} {count : Int} (hn : count ≤ n)
    (g : α → β) : sliced count ((used v count).map g) = (used v count).map g := by
  unfold sliced
  split
  · exact List.take_of_length_le (by rw [List.length_map, length_used hn])
  · rfl

/-! ## 4. The image of a state -/

theorem flatMap_u8 (l : List UInt8) : l.flatMap Codec.u8.enc = l := by
  have hbyte : ∀ b : UInt8, Codec.u8.enc b = [b] := fun b => congrArg (· :: []) UInt8.ofNat_toNat
  rw [funext hbyte]
  exact List.flatMap_singleton' l

section Image

variable {F : Type} [PyNumber F]

/-- **The reader on the image of a state** whose ids in use are non-zero and whose spare ids are 0. -/
theorem parseImage_enc (readTime : F) {s : ClusterStateSnapshot} (hcounts : CountsInRange s)
    (hspare : SpareZero s) (hworkers : ∀ w ∈ s.workers, w.workerId ≠ 0)
    (hleases : ∀ l ∈ s.leases, l.chunkId ≠ 0)
    (hascii : ∀ b ∈ (CStr.upTo s.clusterUuid.toList).bytes, b < 0x80) :
    parseImage readTime (snapshotCodec.enc s) = .ok (s.shown readTime) := by
  have h := (snapshotCodec.at_enc s).unmap
  generalize snapshotCodec.enc s = data at h
  have hbytes : data.take uuidStrMax = s.clusterUuid.toList := by
    have htake := h.head.take
    rw [List.drop_zero] at htake
    exact htake.trans (flatMap_u8 _)
  have huuid : utf8DecodeReplace ((data.take uuidStrMax).takeWhile (· ≠ 0)) =
      asciiText (CStr.upTo s.clusterUuid.toList).bytes := by
    rw [hbytes]
    exact utf8DecodeReplace_ascii hascii
  have hepoch : Codec.u64.At data uuidStrMax s.masterEpoch := h.tail.head
  have hgen : Codec.u64.At data (uuidStrMax + 8) s.stateGenerationVersion := h.tail.tail.head
  have hstatus : Codec.int32.At data (uuidStrMax + 8 + 8)
      (s.globalStatus.word ClusterStatus.code).toInt32 := h.tail.tail.tail.head.unpad.enumWord
  have hworkersAt : (workerMemberCodec.vec clusterMaxWorkers).At data (uuidStrMax + 8 + 8 + 4 + 4)
      s.activeWorkers := h.tail.tail.tail.tail.head
  have htotalWorkers : (Codec.int32.pad 4).At data
      (uuidStrMax + 8 + 8 + 4 + 4 + clusterMaxWorkers * sizeofWorkerMember)
      s.totalRegisteredWorkers := h.tail.tail.tail.tail.tail.head
  have hleasesAt : (chunkLeaseCodec.vec clusterMaxActiveLeases).At data
      (uuidStrMax + 8 + 8 + 4 + 4 + clusterMaxWorkers * sizeofWorkerMember + 8) s.activeLeases :=
    h.tail.tail.tail.tail.tail.tail.head
  have htotalLeases : (Codec.int32.pad 4).At data
      (uuidStrMax + 8 + 8 + 4 + 4 + clusterMaxWorkers * sizeofWorkerMember + 8 +
        clusterMaxActiveLeases * sizeofChunkLease) s.totalActiveLeases :=
    h.tail.tail.tail.tail.tail.tail.tail.head
  have hmetrics : clusterMetricsCodec.At data
      (uuidStrMax + 8 + 8 + 4 + 4 + clusterMaxWorkers * sizeofWorkerMember + 8 +
        clusterMaxActiveLeases * sizeofChunkLease + 8) s.metrics :=
    h.tail.tail.tail.tail.tail.tail.tail.tail
  have hparseWorkers : parseArray data (uuidStrMax + 8 + 8 + 4 + 4) sizeofWorkerMember
      (parseWorker (F := F) data) 0 clusterMaxWorkers = .ok (s.workers.map (·.shown)) :=
    parseArray_used hworkersAt (fun _ _ => parseWorker_at) (fun w hw => if_pos (hworkers w hw))
      fun w hw => if_neg (not_not.mpr (hspare.workers w hw))
  have hparseLeases : parseArray data
      (uuidStrMax + 8 + 8 + 4 + 4 + clusterMaxWorkers * sizeofWorkerMember + 8) sizeofChunkLease
      (parseLease (F := F) data) 0 clusterMaxActiveLeases = .ok (s.leases.map (·.shown)) :=
    parseArray_used hleasesAt (fun _ _ => parseLease_at) (fun l hl => if_pos (hleases l hl))
      fun l hl => if_neg (not_not.mpr (hspare.leases l hl))
  unfold parseImage
  dsimp only
  rw [huuid, unpackFrom_at hepoch, unpackFrom_at hgen, unpackFrom_at hstatus, hparseWorkers,
    parseTotal_at htotalWorkers, hparseLeases, parseTotal_at htotalLeases, parseMetrics_at hmetrics]
  dsimp only [bind, Except.bind, pure, Except.pure]
  have hcutWorkers : sliced s.totalRegisteredWorkers.toInt (s.workers.map (·.shown)) =
      s.workers.map (WorkerMember.shown (F := F)) := sliced_used hcounts.workersFit _
  have hcutLeases : sliced s.totalActiveLeases.toInt (s.leases.map (·.shown)) =
      s.leases.map (ChunkLease.shown (F := F)) := sliced_used hcounts.leasesFit _
  rw [statusNames_word, hcutWorkers, hcutLeases]
  rfl

/-- **The dashboard shows what was persisted.** In every reachable state whose registered worker ids
    and lease chunk ids are non-zero and whose uuid is ASCII, what `parse_wal` makes of the file after
    a complete persist is the state: uuid, epoch, generation and status, the registered workers and
    the leases in order, and the metrics. -/
theorem dashboard_shows_persisted (readTime : F) (ops : List ClusterOp)
    (ctx : ClusterStateContext) (hctx : ctx ∈ (clusterMachine.run emptyWorld ops).contexts)
    (hworkers : ∀ w ∈ ctx.masterState.workers, w.workerId ≠ 0)
    (hleases : ∀ l ∈ ctx.masterState.leases, l.chunkId ≠ 0)
    (hascii : ∀ b ∈ (CStr.upTo ctx.masterState.clusterUuid.toList).bytes, b < 0x80)
    (outcome : WriteOutcome) (path : CStr) (files : Files)
    (hpersist : (clusterStatePersistToWal outcome path ctx.masterState files).1 = true) :
    parseWal readTime ((clusterStatePersistToWal outcome path ctx.masterState files).2 path) =
      .ok (some (ctx.masterState.shown readTime)) := by
  obtain ⟨hwell, hspare⟩ := (worldInv_run spareZero_rule ops).contexts ctx hctx
  have hlen : ¬ (snapshotCodec.enc ctx.masterState).length < 84 := by
    rw [snapshotCodec.length_enc]
    decide
  rw [persist_whole hpersist]
  unfold parseWal
  dsimp only
  rw [if_neg hlen, parseImage_enc readTime hwell.countsInRange hspare hworkers hleases hascii]
  rfl

end Image

/-- A master that has registered worker 7 and leased chunk 9. -/
def busyRun : List ClusterOp :=
  [.create (CStr.upTo [118, 111, 109]) 1,
   .registerWorker 0 ⟨7, .value .online, 500, ⟨4294967296, 0, 4, 1⟩⟩,
   .updateLease 0 9 .running 1056964608]

/-- Its context. -/
def busyContext : ClusterStateContext :=
  ⟨((clusterStateCreate (CStr.upTo [118, 111, 109]) 1).masterState.registered
    ⟨7, .value .online, 500, ⟨4294967296, 0, 4, 1⟩⟩).leaseAdded
      ((zeroLease 9).update .running 1056964608)⟩

theorem busyContext_mem : busyContext ∈ (clusterMachine.run emptyWorld busyRun).contexts := by
  decide +kernel

theorem dashboard_shows_persisted_busyContext :
    busyContext.masterState.workers.length = 1 ∧ busyContext.masterState.leases.length = 1 ∧
    parseWal (PyExpr.ofInt 0)
      ((clusterStatePersistToWal (.written 4488) (CStr.upTo [119]) busyContext.masterState
        fun _ => none).2 (CStr.upTo [119])) =
      .ok (some (busyContext.masterState.shown (PyExpr.ofInt 0))) :=
  ⟨by decide +kernel, by decide +kernel,
    dashboard_shows_persisted (PyExpr.ofInt 0) busyRun busyContext busyContext_mem
      (by decide +kernel) (by decide +kernel) (by decide +kernel) (.written 4488) (CStr.upTo [119])
      (fun _ => none) (by decide +kernel)⟩

end VoidOsMerger
