/-
  File:      VoidOsMerger/Webui/AnyFile.lean
  Subject:   `parse_wal` ON ARBITRARY BYTES (webui/server.py): torn, cut off, too long or random files.

  `unpackFrom` answers with an exception where the field does not lie in the data, so that an answer
  without one says that no read was attempted past the end.

  * `unpackFrom_inside` -- a field that lies in the data is read;
  * `parseWorker_inside`, `parseLease_inside`, `parseMetrics_any`, `parseTotal_any`, `parseArray_any`
    -- the parts of the reader behind their own checks of the length;
  * **`parse_wal_survives_any_file`** -- every file gives a state, with lists within the capacities and
    within the counts.
-/
import VoidOsMerger.Webui.Model

namespace VoidOsMerger

variable {F : Type} [PyNumber F] {data : List UInt8}

/-- The count whose four bytes stand at `off`; 0 where the file ends before them. -/
def recordedCount (data : List UInt8) (off : Nat) : Int :=
  if off + 4 ≤ data.length then (Codec.int32.dec ((data.drop off).take 4)).toInt else 0

/-- The count `parse_wal` takes: it passes over one whose four bytes of padding are cut off. -/
def takenTotal (data : List UInt8) (off : Nat) : Int :=
  if off + 8 ≤ data.length then recordedCount data off else 0

/-! ## 1. Fields behind a check of the length -/

theorem unpackFrom_inside {α : Type} (c : Codec α) {off : Nat} (h : off + c.size ≤ data.length) :
    unpackFrom c data off = .ok (c.dec ((data.drop off).take c.size)) :=
  if_pos h

theorem unpack_u32 (data : List UInt8) (off : Nat) (h : off + 4 ≤ data.length) :
    ∃ n, unpackFrom Codec.u32 data off = .ok n := ⟨_, unpackFrom_inside Codec.u32 h⟩

theorem unpack_int32 (data : List UInt8) (off : Nat) (h : off + 4 ≤ data.length) :
    ∃ n, unpackFrom Codec.int32 data off = .ok n := ⟨_, unpackFrom_inside Codec.int32 h⟩

theorem unpack_u64 (data : List UInt8) (off : Nat) (h : off + 8 ≤ data.length) :
    ∃ n, unpackFrom Codec.u64 data off = .ok n := ⟨_, unpackFrom_inside Codec.u64 h⟩

theorem parseWorker_inside {woff : Nat} (h : woff + sizeofWorkerMember ≤ data.length) :
    ∃ entry, parseWorker (F := F) data woff = .ok entry := by
  unfold sizeofWorkerMember at h
  obtain ⟨workerId, hid⟩ := unpack_u32 data woff (by omega)
  obtain ⟨health, hhealth⟩ := unpack_int32 data (woff + 4) (by omega)
  obtain ⟨lastSeen, hseen⟩ := unpack_u64 data (woff + 8) (by omega)
  obtain ⟨totalMem, htotalMem⟩ := unpack_u64 data (woff + 16) (by omega)
  obtain ⟨reservedMem, hreservedMem⟩ := unpack_u64 data (woff + 24) (by omega)
  obtain ⟨totalCores, htotalCores⟩ := unpack_u32 data (woff + 32) (by omega)
  obtain ⟨reservedCores, hreservedCores⟩ := unpack_u32 data (woff + 36) (by omega)
  unfold parseWorker
  rw [hid, hhealth, hseen, htotalMem, hreservedMem, htotalCores, hreservedCores]
  exact ⟨_, rfl⟩

theorem parseLease_inside {loff : Nat} (h : loff + sizeofChunkLease ≤ data.length) :
    ∃ entry, parseLease (F := F) data loff = .ok entry := by
  unfold sizeofChunkLease at h
  obtain ⟨chunkId, hid⟩ := unpack_u64 data loff (by omega)
  obtain ⟨leaseStatus, hstatus⟩ := unpack_int32 data (loff + 8) (by omega)
  obtain ⟨progress, hprogress⟩ := unpack_u32 data (loff + 12) (by omega)
  obtain ⟨retryCount, hretry⟩ := unpack_u32 data (loff + 16) (by omega)
  unfold parseLease
  rw [hid, hstatus, hprogress, hretry]
  exact ⟨_, rfl⟩

variable (data)

theorem parseMetrics_any (off : Nat) : ∃ metrics, parseMetrics data off = .ok metrics := by
  unfold parseMetrics
  split
  · rename_i h
    unfold sizeofClusterMetrics at h
    obtain ⟨aggMem, haggMem⟩ := unpack_u64 data off (by omega)
    obtain ⟨allocMem, hallocMem⟩ := unpack_u64 data (off + 8) (by omega)
    obtain ⟨aggCores, haggCores⟩ := unpack_u32 data (off + 16) (by omega)
    obtain ⟨allocCores, hallocCores⟩ := unpack_u32 data (off + 20) (by omega)
    obtain ⟨active, hactive⟩ := unpack_u32 data (off + 24) (by omega)
    rw [haggMem, hallocMem, haggCores, hallocCores, hactive]
    exact ⟨_, rfl⟩
  · exact ⟨_, rfl⟩

theorem parseTotal_any (off : Nat) : parseTotal data off = .ok (takenTotal data off) := by
  unfold parseTotal takenTotal recordedCount
  by_cases h : off + 8 ≤ data.length
  · have hcount : off + 4 ≤ data.length := by omega
    rw [if_neg (Nat.not_lt.mpr h), if_pos h, if_pos hcount, unpackFrom_inside Codec.int32 hcount]
    rfl
  · rw [if_pos (Nat.not_le.mp h), if_neg h]

/-! ## 2. Arrays -/

/-- **The loop over an array** reads an entry only where all of it lies in the data. -/
theorem parseArray_any {β : Type} (off : Nat) {size : Nat} {parse : Nat → Except PyError (Option β)}
    (hparse : ∀ o, o + size ≤ data.length → ∃ entry, parse o = .ok entry) : ∀ n i : Nat,
    ∃ entries, parseArray data off size parse i n = .ok entries ∧ entries.length ≤ n
  | 0, _ => ⟨[], rfl, Nat.le_refl 0⟩
  | n + 1, i => by
      unfold parseArray
      split
      · exact ⟨[], rfl, Nat.zero_le _⟩
      · rename_i hinside
        obtain ⟨entry, hentry⟩ := hparse (off + i * size) (Nat.not_lt.mp hinside)
        obtain ⟨entries, hentries, hlen⟩ := parseArray_any off hparse n (i + 1)
        refine ⟨entry.toList ++ entries, by rw [hentry, hentries]; rfl, ?_⟩
        have hone : entry.toList.length ≤ 1 := by cases entry <;> simp
        rw [List.length_append]
        omega

theorem length_sliced {β : Type} (total : Int) (xs : List β) :
    (sliced total xs).length ≤ xs.length ∧ (0 < total → ((sliced total xs).length : Int) ≤ total) := by
  unfold sliced
  split
  · simp
    omega
  · rename_i hneg
    exact ⟨Nat.le_refl _, fun hpos => absurd hpos hneg⟩

/-! ## 3. Any file -/

/-- What every state shown has: lists within the capacities, within positive counts, and the counts
    that are taken from the file. -/
structure DashboardState.Bounded (data : List UInt8) (st : DashboardState F) : Prop where
  workersFit : st.workers.length ≤ clusterMaxWorkers
  leasesFit : st.leases.length ≤ clusterMaxActiveLeases
  totalWorkers : st.totalWorkers = takenTotal data 1368
  totalLeases : st.totalLeases = takenTotal data 4448
  workersCounted : 0 < st.totalWorkers → (st.workers.length : Int) ≤ st.totalWorkers
  leasesCounted : 0 < st.totalLeases → (st.leases.length : Int) ≤ st.totalLeases

theorem emptyState_bounded (readTime : F) (h : data.length < 84) :
    (emptyState readTime).Bounded data := by
  have hcut : ∀ off, 84 ≤ off → takenTotal data off = 0 := fun off hoff => if_neg (by omega)
  exact ⟨Nat.zero_le _, Nat.zero_le _, (hcut 1368 (by decide)).symm, (hcut 4448 (by decide)).symm,
    fun h => absurd h (by simp [emptyState]), fun h => absurd h (by simp [emptyState])⟩

theorem parseImage_any (readTime : F) (h : 84 ≤ data.length) :
    ∃ st, parseImage readTime data = .ok st ∧ st.Bounded data := by
  obtain ⟨masterEpoch, hepoch⟩ := unpack_u64 data uuidStrMax
    (by simp [uuidStrMax]; omega)
  obtain ⟨stateGen, hgen⟩ := unpack_u64 data (uuidStrMax + 8)
    (by simp [uuidStrMax]; omega)
  obtain ⟨globalStatus, hstatus⟩ := unpack_int32 data (uuidStrMax + 8 + 8)
    (by simp [uuidStrMax]; omega)
  obtain ⟨workers, hworkers, hworkersFit⟩ := parseArray_any data (uuidStrMax + 8 + 8 + 4 + 4)
    (fun _ => parseWorker_inside (F := F)) clusterMaxWorkers 0
  obtain ⟨leases, hleases, hleasesFit⟩ := parseArray_any data
    (uuidStrMax + 8 + 8 + 4 + 4 + clusterMaxWorkers * sizeofWorkerMember + 8)
    (fun _ => parseLease_inside (F := F)) clusterMaxActiveLeases 0
  obtain ⟨metrics, hmetrics⟩ := parseMetrics_any data
    (uuidStrMax + 8 + 8 + 4 + 4 + clusterMaxWorkers * sizeofWorkerMember + 8 +
      clusterMaxActiveLeases * sizeofChunkLease + 8)
  unfold parseImage
  dsimp only
  rw [hepoch, hgen, hstatus, hworkers, parseTotal_any, hleases, parseTotal_any, hmetrics]
  refine ⟨_, rfl, ?_⟩
  obtain ⟨hworkersCut, hworkersCounted⟩ := length_sliced (takenTotal data 1368) workers
  obtain ⟨hleasesCut, hleasesCounted⟩ := length_sliced (takenTotal data 4448) leases
  exact ⟨hworkersCut.trans hworkersFit, hleasesCut.trans hleasesFit, rfl, rfl, hworkersCounted,
    hleasesCounted⟩

theorem parseWal_any (readTime : F) :
    ∃ st, parseWal readTime (some data) = .ok (some st) ∧ st.Bounded data := by
  unfold parseWal
  dsimp only
  by_cases hlen : data.length < 84
  · exact ⟨_, if_pos hlen, emptyState_bounded data readTime hlen⟩
  · obtain ⟨st, hst, hbounded⟩ := parseImage_any data readTime (Nat.not_lt.mp hlen)
    rw [if_neg hlen, hst]
    exact ⟨st, rfl, hbounded⟩

/-- **`parse_wal` survives any file.** Whatever bytes the file holds, `parse_wal` raises no exception,
    so that no field is read past the end of the data, and returns a state: at most 32 workers and at
    most 128 leases, and at most as many as a positive count of the file, where the eight bytes of the
    count and its padding lie in the data. -/
theorem parse_wal_survives_any_file (readTime : F) (data : List UInt8) :
    ∃ st, parseWal readTime (some data) = .ok (some st) ∧
      st.workers.length ≤ 32 ∧ st.leases.length ≤ 128 ∧
      (1368 + 8 ≤ data.length → 0 < recordedCount data 1368 →
        (st.workers.length : Int) ≤ recordedCount data 1368) ∧
      (4448 + 8 ≤ data.length → 0 < recordedCount data 4448 →
        (st.leases.length : Int) ≤ recordedCount data 4448) := by
  obtain ⟨st, hst, h⟩ := parseWal_any data readTime
  have htaken : ∀ {off : Nat}, off + 8 ≤ data.length → takenTotal data off = recordedCount data off :=
    fun hoff => if_pos hoff
  refine ⟨st, hst, h.workersFit, h.leasesFit, fun hoff => ?_, fun hoff => ?_⟩
  · rw [← htaken hoff, ← h.totalWorkers]
    exact h.workersCounted
  · rw [← htaken hoff, ← h.totalLeases]
    exact h.leasesCounted

/-- A file that is torn behind the count of its workers: 32 of them, none with number 0, and the
    count 1. -/
def tornFile : List UInt8 := List.replicate 1368 1 ++ [1, 0, 0, 0]

/-- **A count without its padding is passed over**: the file records one worker, and 32 are shown. -/
theorem torn_count_passed_over : ¬ ∀ (data : List UInt8) (st : DashboardState PyExpr),
    parseWal (PyExpr.ofInt 0) (some data) = .ok (some st) → 0 < recordedCount data 1368 →
      (st.workers.length : Int) ≤ recordedCount data 1368 := by
  intro h
  obtain ⟨st, hst, -⟩ := parseWal_any tornFile (PyExpr.ofInt 0)
  have hcount : recordedCount tornFile 1368 = 1 := by decide +kernel
  have hshown : (parseWal (PyExpr.ofInt 0) (some tornFile)).map
      (fun st => st.map fun st => st.workers.length) = .ok (some 32) := by decide +kernel
  have hfew := h tornFile st hst (by rw [hcount]; decide)
  rw [hst] at hshown
  have hmany : st.workers.length = 32 := Option.some.inj (Except.ok.inj hshown)
  rw [hcount, hmany] at hfew
  exact absurd hfew (by decide)

end VoidOsMerger
