/-
  File:      VoidOsMerger/Scheduler/Leases.lean
  Subject:   LEASES AND CHUNKS OF THE SCHEDULER, over every run.

  `dispatch` has a branch nothing guards: the reservation is taken and no lease slot exists. It is
  dead because the active leases inject into the chunk table, whose size is the lease table's:

  * `LeaseInv` -- the chunk table is duplicate-free and bounded, the lease table is bounded, active
    leases have pairwise distinct chunk ids, each in the chunk table; `leaseInv_run`: on every run;
  * `Expires`, `Assigns` -- the two things an iteration of the tick can do; `tickChunk_cases` says an
    iteration is at most an expiry followed by at most an assignment, and every invariant of this
    directory goes through it;
  * `place_lease`: a chunk of the table without an active lease always finds a slot;
  * `tickVisits` -- the iterations the tick's loop runs, with the state each starts in; the theorems
    about a whole tick are inductions along it.
-/
import VoidOsMerger.Scheduler.Model

namespace VoidOsMerger

variable {F : Type}

/-! ## 1. Active leases -/

/-- The active entries of a lease table. -/
def activeLeases (ls : List VomAssignmentLease) : List VomAssignmentLease :=
  ls.filter (·.isActive)

@[simp] theorem mem_activeLeases {ls : List VomAssignmentLease} {l : VomAssignmentLease} :
    l ∈ activeLeases ls ↔ l ∈ ls ∧ l.isActive = true := List.mem_filter

@[simp] theorem leaseOf_iff {id : UInt64} {l : VomAssignmentLease} :
    leaseOf id l = true ↔ l.chunkId = id ∧ l.isActive = true := by
  simp [leaseOf]

@[simp] theorem sameChunk_iff {id : UInt64} {c : VomChunkPlan} :
    sameChunk id c = true ↔ c.chunkId = id := by
  simp [sameChunk]

@[simp] theorem sameWorker_iff {id : CStr} {w : VomWorkerView F} :
    sameWorker id w = true ↔ w.id = id := by
  simp [sameWorker]

/-- The search for an active lease of `id` fails exactly when there is none. -/
theorem find_leaseOf_none {ls : List VomAssignmentLease} {id : UInt64} :
    ls.find? (leaseOf id) = none ↔ id ∉ (activeLeases ls).map (·.chunkId) := by
  rw [List.find?_eq_none, List.mem_map]
  constructor
  · rintro h ⟨l, hl, rfl⟩
    rw [mem_activeLeases] at hl
    exact h l hl.1 (leaseOf_iff.mpr ⟨rfl, hl.2⟩)
  · intro h l hl hlo
    obtain ⟨e, ha⟩ := leaseOf_iff.mp hlo
    exact h ⟨l, mem_activeLeases.mpr ⟨hl, ha⟩, e⟩

/-- Switching a chunk's lease off takes it out of the active ones. -/
theorem activeLeases_deactivate (ls : List VomAssignmentLease) (id : UInt64) :
    activeLeases (modifyFirst (leaseOf id) VomAssignmentLease.deactivate ls) =
      (activeLeases ls).eraseP (leaseOf id) :=
  filter_modifyFirst_off (fun _ h => (leaseOf_iff.mp h).2) (fun _ => rfl) ls

/-- The active leases, split at the one the search finds. -/
theorem activeLeases_perm_of_find {ls : List VomAssignmentLease} {id : UInt64}
    {l : VomAssignmentLease} (h : ls.find? (leaseOf id) = some l) :
    (activeLeases ls).Perm
      (l :: activeLeases (modifyFirst (leaseOf id) VomAssignmentLease.deactivate ls)) := by
  obtain ⟨l₁, l₂, rfl, hp, hl₁⟩ := find?_split h
  have hoff : l.deactivate.isActive = false := rfl
  rw [modifyFirst_append _ hp hl₁]
  simp only [activeLeases, List.filter_append, List.filter_cons, (leaseOf_iff.mp hp).2, hoff,
    if_true]
  exact List.perm_middle

/-- Storing an active lease in a free slot adds it to the active ones. -/
theorem activeLeases_place {ls ls' : List VomAssignmentLease} {l : VomAssignmentLease}
    (h : place (fun l => !l.isActive) maxSchunks l ls = some ls') (hl : l.isActive = true) :
    (activeLeases ls').Perm (l :: activeLeases ls) :=
  filter_place_perm h (fun x hx => by simpa using hx) hl

/-! ## 2. What an iteration of the tick does -/

/-- The chunk's lease is past its time: it is switched off and refunded. -/
def Expires (now : UInt64) (chunk : VomChunkPlan) (st st' : TickState F) : Prop :=
  ∃ lease, st.leases.find? (leaseOf chunk.chunkId) = some lease ∧ lease.leaseExpiresMs < now ∧
    st' = { st with
      leases := modifyFirst (leaseOf chunk.chunkId) VomAssignmentLease.deactivate st.leases
      workers := refundWorker chunk lease.worker st.workers }

/-- The chunk has no active lease and goes to the admissible worker `target` at index `i`. -/
def Assigns (now : UInt64) (chunk : VomChunkPlan) (st st' : TickState F) : Prop :=
  ∃ i target, st.workers[i]? = some target ∧ evaluateHardFilters chunk target = true ∧
    st.leases.find? (leaseOf chunk.chunkId) = none ∧ st' = dispatch now chunk i st

/-- **What the lease search does.** -/
theorem expireLease_cases (now : UInt64) (chunk : VomChunkPlan) (st : TickState F) :
    (expireLease now chunk st = (st, false) ∧ st.leases.find? (leaseOf chunk.chunkId) = none) ∨
    (∃ st', expireLease now chunk st = (st', false) ∧ Expires now chunk st st') ∨
    (expireLease now chunk st = (st, true)) := by
  unfold expireLease
  cases hf : st.leases.find? (leaseOf chunk.chunkId) with
  | none => exact Or.inl ⟨rfl, rfl⟩
  | some lease =>
    by_cases hexp : now > lease.leaseExpiresMs
    · refine Or.inr (Or.inl ⟨_, ?_, lease, hf, hexp, rfl⟩)
      simp [hexp]
    · exact Or.inr (Or.inr (by simp [hexp]))

/-- After an expiry the chunk has no active lease. -/
theorem Expires.noLease {now : UInt64} {chunk : VomChunkPlan} {st st' : TickState F}
    (hn : ((activeLeases st.leases).map (·.chunkId)).Nodup) (h : Expires now chunk st st') :
    st'.leases.find? (leaseOf chunk.chunkId) = none := by
  obtain ⟨lease, hf, _, rfl⟩ := h
  have hid : lease.chunkId = chunk.chunkId := (leaseOf_iff.mp (List.find?_some hf)).1
  have hp := ((activeLeases_perm_of_find hf).map (·.chunkId)).nodup_iff.mp hn
  rw [List.map_cons, List.nodup_cons, hid] at hp
  exact find_leaseOf_none.mpr hp.1

section Tick

variable [DoubleArith F]

/-- The search returns a worker that was best before, or one of the searched ones that passes the
    filters. -/
theorem bestWorkerLoop_spec (chunk : VomChunkPlan) (ws : List (VomWorkerView F)) :
    ∀ (k : Nat) (best : Option Nat) (highest : F) (i : Nat),
      bestWorkerLoop chunk ws k best highest = some i →
      best = some i ∨ ∃ w, k ≤ i ∧ ws[i - k]? = some w ∧ evaluateHardFilters chunk w = true := by
  induction ws with
  | nil => exact fun k best highest i h => Or.inl h
  | cons w ws ih =>
    intro k best highest i h
    -- a hit in the rest of the list is a hit in the list, one place further
    have shift : ∀ {b : Option Nat} {hi : F}, bestWorkerLoop chunk ws (k + 1) b hi = some i →
        b = some i ∨ ∃ w', k ≤ i ∧ (w :: ws)[i - k]? = some w' ∧
          evaluateHardFilters chunk w' = true := by
      intro b hi hb
      rcases ih (k + 1) b hi i hb with hb' | ⟨w', hk, hw', hf'⟩
      · exact Or.inl hb'
      · refine Or.inr ⟨w', by omega, ?_, hf'⟩
        rw [show i - k = (i - (k + 1)) + 1 by omega]
        exact hw'
    unfold bestWorkerLoop at h
    split at h
    · rename_i hf
      split at h
      · rcases shift h with hb | hw
        · cases hb
          exact Or.inr ⟨w, Nat.le_refl k, by simp, hf⟩
        · exact Or.inr hw
      · exact shift h
    · exact shift h

/-- **The chosen worker is in the table and passes the filters.** -/
theorem bestWorker_spec {chunk : VomChunkPlan} {ws : List (VomWorkerView F)} {i : Nat}
    (h : bestWorker chunk ws = some i) :
    ∃ w, ws[i]? = some w ∧ evaluateHardFilters chunk w = true := by
  rcases bestWorkerLoop_spec chunk ws 0 none _ i h with h' | ⟨w, _, hw, hf⟩
  · cases h'
  · exact ⟨w, by simpa using hw, hf⟩

theorem assignChunk_cases (now : UInt64) {chunk : VomChunkPlan} {st : TickState F}
    (hnone : st.leases.find? (leaseOf chunk.chunkId) = none) :
    assignChunk now chunk st = st ∨ Assigns now chunk st (assignChunk now chunk st) := by
  unfold assignChunk
  cases hw : bestWorker chunk st.workers with
  | none => exact Or.inl rfl
  | some i =>
    obtain ⟨w, hi, hf⟩ := bestWorker_spec hw
    exact Or.inr ⟨i, w, hi, hf, hnone, rfl⟩

/-- **An iteration is at most an expiry, then at most an assignment.** -/
theorem tickChunk_cases (now : UInt64) (chunk : VomChunkPlan) {st : TickState F}
    (hn : ((activeLeases st.leases).map (·.chunkId)).Nodup) :
    ∃ mid, (mid = st ∨ Expires now chunk st mid) ∧
      (tickChunk now chunk st = mid ∨ Assigns now chunk mid (tickChunk now chunk st)) := by
  unfold tickChunk
  by_cases hb : chunk.isBlocked = true
  · exact ⟨st, Or.inl rfl, Or.inl (by simp [hb])⟩
  rw [if_neg hb]
  rcases expireLease_cases now chunk st with ⟨he, hnone⟩ | ⟨st', he, hexp⟩ | he
  · exact ⟨st, Or.inl rfl, by simpa [he] using assignChunk_cases now hnone⟩
  · exact ⟨st', Or.inr hexp, by simpa [he] using assignChunk_cases now (hexp.noLease hn)⟩
  · exact ⟨st, Or.inl rfl, Or.inl (by simp [he])⟩

end Tick

/-! ## 3. The invariant -/

/-- **Active leases inject into the chunk table, and both tables fit their arrays.** -/
structure LeaseInv (chunks : List VomChunkPlan) (leases : List VomAssignmentLease) : Prop where
  chunksNodup : (chunks.map (·.chunkId)).Nodup
  chunksLe : chunks.length ≤ maxSchunks
  leasesLe : leases.length ≤ maxSchunks
  activeNodup : ((activeLeases leases).map (·.chunkId)).Nodup
  activeChunk : ∀ l ∈ activeLeases leases, l.chunkId ∈ chunks.map (·.chunkId)

namespace LeaseInv

variable {chunks : List VomChunkPlan} {leases : List VomAssignmentLease}

/-- Switching a lease off keeps the invariant. -/
theorem deactivate (h : LeaseInv chunks leases) (id : UInt64) :
    LeaseInv chunks (modifyFirst (leaseOf id) VomAssignmentLease.deactivate leases) where
  chunksNodup := h.chunksNodup
  chunksLe := h.chunksLe
  leasesLe := by rw [length_modifyFirst]; exact h.leasesLe
  activeNodup := by
    rw [activeLeases_deactivate]
    exact h.activeNodup.sublist (List.eraseP_sublist.map _)
  activeChunk l hl := by
    rw [activeLeases_deactivate] at hl
    exact h.activeChunk l (List.mem_of_mem_eraseP hl)

/-- **A chunk of the table without an active lease finds a slot**: the active leases and the chunk
    are distinct entries of the chunk table, so fewer than `MAX_SCHUNKS` leases are active. -/
theorem place_lease (h : LeaseInv chunks leases) {c : VomChunkPlan} (hc : c ∈ chunks)
    (hno : leases.find? (leaseOf c.chunkId) = none) (l : VomAssignmentLease) :
    ∃ leases', place (fun l => !l.isActive) maxSchunks l leases = some leases' := by
  cases hp : place (fun l => !l.isActive) maxSchunks l leases with
  | some leases' => exact ⟨leases', rfl⟩
  | none =>
    exfalso
    obtain ⟨hfull, hlen⟩ := place_none hp
    have hall : activeLeases leases = leases :=
      List.filter_eq_self.mpr fun x hx => by simpa using hfull x hx
    have hnd : (c.chunkId :: (activeLeases leases).map (·.chunkId)).Nodup :=
      List.nodup_cons.mpr ⟨find_leaseOf_none.mp hno, h.activeNodup⟩
    have hsub : c.chunkId :: (activeLeases leases).map (·.chunkId) ⊆ chunks.map (·.chunkId) := by
      intro x hx
      rcases List.mem_cons.mp hx with rfl | hx
      · exact List.mem_map_of_mem hc
      · obtain ⟨l', hl', rfl⟩ := List.mem_map.mp hx
        exact h.activeChunk l' hl'
    have hcard := (List.subperm_of_subset hnd hsub).length_le
    have hle := h.chunksLe
    simp only [List.length_cons, List.length_map, hall] at hcard
    omega

/-- Storing the lease of a chunk of the table that had none keeps the invariant. -/
theorem store (h : LeaseInv chunks leases) {c : VomChunkPlan} (hc : c ∈ chunks)
    (hno : leases.find? (leaseOf c.chunkId) = none) {l : VomAssignmentLease}
    {leases' : List VomAssignmentLease} (hl : l.chunkId = c.chunkId) (ha : l.isActive = true)
    (hp : place (fun l => !l.isActive) maxSchunks l leases = some leases') :
    LeaseInv chunks leases' where
  chunksNodup := h.chunksNodup
  chunksLe := h.chunksLe
  leasesLe := length_place_le hp h.leasesLe
  activeNodup := by
    rw [((activeLeases_place hp ha).map (·.chunkId)).nodup_iff, List.map_cons, List.nodup_cons, hl]
    exact ⟨find_leaseOf_none.mp hno, h.activeNodup⟩
  activeChunk x hx := by
    rcases List.mem_cons.mp ((activeLeases_place hp ha).mem_iff.mp hx) with rfl | hx
    · rw [hl]
      exact List.mem_map_of_mem hc
    · exact h.activeChunk x hx

end LeaseInv

/-- `dispatch`, when the slot exists: the reservation, the stored lease and the written one. -/
theorem dispatch_eq {now : UInt64} {chunk : VomChunkPlan} {i : Nat} {st : TickState F}
    {target : VomWorkerView F} {leases : List VomAssignmentLease} (hi : st.workers[i]? = some target)
    (hp : place (fun l => !l.isActive) maxSchunks (newLease now chunk target) st.leases =
      some leases) :
    dispatch now chunk i st = ⟨st.workers.set i (target.reserve chunk), leases,
      st.outLeases ++ [newLease now chunk target]⟩ := by
  unfold dispatch
  simp only [hi, hp]

/-- **An assignment of a chunk of the table always stores its lease.** -/
theorem Assigns.stored {now : UInt64} {chunk : VomChunkPlan} {chunks : List VomChunkPlan}
    {st st' : TickState F} (h : Assigns now chunk st st') (hI : LeaseInv chunks st.leases)
    (hc : chunk ∈ chunks) :
    ∃ i target leases, st.workers[i]? = some target ∧ evaluateHardFilters chunk target = true ∧
      place (fun l => !l.isActive) maxSchunks (newLease now chunk target) st.leases = some leases ∧
      st' = ⟨st.workers.set i (target.reserve chunk), leases,
        st.outLeases ++ [newLease now chunk target]⟩ := by
  obtain ⟨i, target, hi, hf, hno, rfl⟩ := h
  obtain ⟨leases, hp⟩ := hI.place_lease hc hno (newLease now chunk target)
  exact ⟨i, target, leases, hi, hf, hp, dispatch_eq hi hp⟩

theorem Expires.leaseInv {now : UInt64} {chunk : VomChunkPlan} {chunks : List VomChunkPlan}
    {st st' : TickState F} (h : Expires now chunk st st') (hI : LeaseInv chunks st.leases) :
    LeaseInv chunks st'.leases := by
  obtain ⟨_, _, _, rfl⟩ := h
  exact hI.deactivate chunk.chunkId

theorem Assigns.leaseInv {now : UInt64} {chunk : VomChunkPlan} {chunks : List VomChunkPlan}
    {st st' : TickState F} (h : Assigns now chunk st st') (hI : LeaseInv chunks st.leases)
    (hc : chunk ∈ chunks) : LeaseInv chunks st'.leases := by
  obtain ⟨i, target, leases, _, _, hp, rfl⟩ := h.stored hI hc
  obtain ⟨_, _, _, _, hno, _⟩ := h
  exact hI.store hc hno rfl rfl hp

theorem submit_leaseInv {s : Scheduler F} (hI : LeaseInv s.chunks s.leases)
    (c : Option VomChunkPlan) :
    LeaseInv (vomSchedulerSubmitReadyChunk s c).1.chunks
      (vomSchedulerSubmitReadyChunk s c).1.leases := by
  cases c with
  | none => exact hI
  | some c =>
    unfold vomSchedulerSubmitReadyChunk
    cases hp : place (sameChunk c.chunkId) maxSchunks c s.chunks with
    | none => simpa [hp] using hI
    | some chunks =>
      simp only [hp]
      exact ⟨nodup_map_place _ hp (fun _ => sameChunk_iff) hI.chunksNodup,
        length_place_le hp hI.chunksLe, hI.leasesLe, hI.activeNodup,
        fun l hl => map_subset_place _ hp (fun _ => sameChunk_iff.mp) (hI.activeChunk l hl)⟩

theorem register_leaseInv {s : Scheduler F} (hI : LeaseInv s.chunks s.leases)
    (w : Option (VomWorkerView F)) :
    LeaseInv (vomSchedulerRegisterWorker s w).1.chunks
      (vomSchedulerRegisterWorker s w).1.leases := by
  cases w with
  | none => exact hI
  | some w =>
    unfold vomSchedulerRegisterWorker
    cases hp : place (sameWorker w.id) maxSworkers w s.workers with
    | none => simpa [hp] using hI
    | some workers => simpa [hp] using hI

/-- **What a release does**: nothing, or it finds the lease and its chunk, switches the lease off,
    refunds the worker and drops the chunk. -/
theorem release_cases {s : Scheduler F} (hI : LeaseInv s.chunks s.leases) (id : UInt64) :
    (s.leases.find? (leaseOf id) = none ∧ vomSchedulerReleaseLease s id = s) ∨
    ∃ lease chunk, s.leases.find? (leaseOf id) = some lease ∧
      s.chunks.find? (sameChunk id) = some chunk ∧
      vomSchedulerReleaseLease s id =
        { workers := refundWorker chunk lease.worker s.workers
          chunks := s.chunks.eraseP (sameChunk id)
          leases := modifyFirst (leaseOf id) VomAssignmentLease.deactivate s.leases } := by
  unfold vomSchedulerReleaseLease
  cases hl : s.leases.find? (leaseOf id) with
  | none => exact Or.inl ⟨rfl, rfl⟩
  | some lease =>
    obtain ⟨hid, ha⟩ := leaseOf_iff.mp (List.find?_some hl)
    have hmem := hI.activeChunk lease (mem_activeLeases.mpr ⟨List.mem_of_find?_eq_some hl, ha⟩)
    obtain ⟨c, hc, hcid⟩ := List.mem_map.mp hmem
    cases hf : s.chunks.find? (sameChunk id) with
    | none => exact absurd (sameChunk_iff.mpr (hcid.trans hid)) (List.find?_eq_none.mp hf c hc)
    | some chunk => exact Or.inr ⟨lease, chunk, rfl, rfl, rfl⟩

theorem release_leaseInv {s : Scheduler F} (hI : LeaseInv s.chunks s.leases) (id : UInt64) :
    LeaseInv (vomSchedulerReleaseLease s id).chunks (vomSchedulerReleaseLease s id).leases := by
  rcases release_cases hI id with ⟨_, e⟩ | ⟨lease, chunk, hl, hf, e⟩
  · rw [e]
    exact hI
  · rw [e]
    have hoff := hI.deactivate id
    refine ⟨hI.chunksNodup.sublist (List.eraseP_sublist.map _),
      le_trans List.eraseP_sublist.length_le hI.chunksLe, hoff.leasesLe, hoff.activeNodup, ?_⟩
    intro l hactive
    -- the lease's chunk survives: it is not the released one, which has no active lease any more
    have hne : l.chunkId ≠ id := by
      intro heq
      have hp := ((activeLeases_perm_of_find hl).map (·.chunkId)).nodup_iff.mp hI.activeNodup
      rw [List.map_cons, List.nodup_cons, (leaseOf_iff.mp (List.find?_some hl)).1] at hp
      exact hp.1 (List.mem_map.mpr ⟨l, hactive, heq⟩)
    obtain ⟨c, hc, hcid⟩ := List.mem_map.mp (hoff.activeChunk l hactive)
    refine List.mem_map.mpr ⟨c, (List.mem_eraseP_of_neg ?_).mpr hc, hcid⟩
    rw [sameChunk_iff, hcid]
    exact hne

theorem init_leaseInv : LeaseInv (vomSchedulerInit (F := F)).chunks
    (vomSchedulerInit (F := F)).leases where
  chunksNodup := List.nodup_nil
  chunksLe := Nat.zero_le _
  leasesLe := Nat.zero_le _
  activeNodup := List.nodup_nil
  activeChunk _ h := absurd h List.not_mem_nil

section Run

variable [DoubleArith F]

/-- **The iteration rule of the tick**: what an expiry and an assignment keep, given the lease
    invariant, an iteration keeps. -/
theorem tickChunk_rule (now : UInt64) {chunk : VomChunkPlan} {chunks : List VomChunkPlan}
    {P : TickState F → Prop} (hc : chunk ∈ chunks)
    (hE : ∀ st st', LeaseInv chunks st.leases → P st → Expires now chunk st st' → P st')
    (hA : ∀ st st', LeaseInv chunks st.leases → P st → Assigns now chunk st st' → P st')
    {st : TickState F} (hI : LeaseInv chunks st.leases) (hP : P st) :
    LeaseInv chunks (tickChunk now chunk st).leases ∧ P (tickChunk now chunk st) := by
  obtain ⟨mid, hmid, hend⟩ := tickChunk_cases now chunk hI.activeNodup
  have hM : LeaseInv chunks mid.leases ∧ P mid := by
    rcases hmid with rfl | hexp
    · exact ⟨hI, hP⟩
    · exact ⟨hexp.leaseInv hI, hE st mid hI hP hexp⟩
  rcases hend with e | hass
  · rw [e]
    exact hM
  · exact ⟨hass.leaseInv hM.1 hc, hA mid _ hM.1 hM.2 hass⟩

theorem tickChunk_leaseInv (now : UInt64) {chunk : VomChunkPlan} {chunks : List VomChunkPlan}
    {st : TickState F} (hI : LeaseInv chunks st.leases) (hc : chunk ∈ chunks) :
    LeaseInv chunks (tickChunk now chunk st).leases :=
  (tickChunk_rule now (P := fun _ => True) hc (fun _ _ _ h _ => h) (fun _ _ _ h _ => h) hI trivial).1

/-- **The loop rule of the tick**: what every iteration over a chunk of the table keeps, given the
    lease invariant, the loop keeps. -/
theorem tickLoop_invariant (now : UInt64) (maxLeases : Int) {chunks : List VomChunkPlan}
    {P : TickState F → Prop}
    (hstep : ∀ c ∈ chunks, ∀ st, LeaseInv chunks st.leases → P st → P (tickChunk now c st)) :
    ∀ (rest : List VomChunkPlan) (st : TickState F), rest ⊆ chunks → LeaseInv chunks st.leases →
      P st → LeaseInv chunks (tickLoop now maxLeases rest st).leases ∧
        P (tickLoop now maxLeases rest st)
  | [], st, _, hI, hP => ⟨hI, hP⟩
  | c :: rest, st, hsub, hI, hP => by
      unfold tickLoop
      split
      · exact ⟨hI, hP⟩
      · have hc : c ∈ chunks := hsub List.mem_cons_self
        exact tickLoop_invariant now maxLeases hstep rest _
          (fun x hx => hsub (List.mem_cons_of_mem _ hx)) (tickChunk_leaseInv now hI hc)
          (hstep c hc st hI hP)

theorem tick_leaseInv {s : Scheduler F} (hI : LeaseInv s.chunks s.leases) (now : UInt64)
    (maxLeases : Int) :
    LeaseInv (vomSchedulerTick s now maxLeases).1.chunks (vomSchedulerTick s now maxLeases).1.leases :=
  (tickLoop_invariant now maxLeases (P := fun _ => True) (fun _ _ _ _ h => h) s.chunks (tickStart s)
    (List.Subset.refl _) hI trivial).1

theorem step_leaseInv (s : Scheduler F) (o : SchedulerOp F) (hI : LeaseInv s.chunks s.leases) :
    LeaseInv (schedulerMachine.next s o).chunks (schedulerMachine.next s o).leases := by
  cases o with
  | registerWorker w => exact register_leaseInv hI w
  | submitReadyChunk c => exact submit_leaseInv hI c
  | tick now maxLeases => exact tick_leaseInv hI now maxLeases
  | releaseLease id => exact release_leaseInv hI id

/-- **The invariant on every run.** -/
theorem leaseInv_run (ops : List (SchedulerOp F)) :
    LeaseInv (schedulerMachine.run vomSchedulerInit ops).chunks
      (schedulerMachine.run vomSchedulerInit ops).leases :=
  schedulerMachine.invariant_all (fun s => LeaseInv s.chunks s.leases) step_leaseInv ops
    init_leaseInv

end Run

end VoidOsMerger
