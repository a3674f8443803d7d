/-
  File:      VoidOsMerger/Scheduler/Accounts.lean
  Subject:   RESERVATION COUNTERS AND THE LEASES THEY STAND FOR.

  Each worker record carries counters of what is reserved on it. Nothing but the code's discipline
  ties them to the leases outstanding on the worker:

  * `Resource`, `reserved`, `capacity`, `demand` -- CPU and memory treated alike;
  * `load amt id as` -- what the active leases `as` hold on worker `id`, at `amt` a chunk;
  * `RefundMove`, `ReserveMove` -- what a step does to one worker record together with the load on it;
    every expiry and release refunds (`Expires.move`, `refundWorker_move`), every assignment reserves
    (`Assigns.move`), whatever amounts are counted;
  * `WorkerInv` -- worker ids are distinct and every active lease names a registered worker.

  Balance.lean and Overcommit.lean read the counters off these moves, with different amounts.
-/
import VoidOsMerger.Base.Ledger
import VoidOsMerger.Scheduler.Tick

namespace VoidOsMerger

variable {F : Type}

/-! ## 1. Resources -/

/-- What a worker offers and a chunk demands. -/
inductive Resource where
  | cpu
  | memory
  deriving DecidableEq

def VomWorkerView.reserved (w : VomWorkerView F) : Resource → Nat
  | .cpu => w.reservCpu.toNat
  | .memory => w.reservMemMb.toNat

def VomWorkerView.capacity (w : VomWorkerView F) : Resource → Nat
  | .cpu => w.cpuUnits.toNat
  | .memory => w.freeMemoryMb.toNat

def VomChunkPlan.demand (c : VomChunkPlan) : Resource → Nat
  | .cpu => c.requiredCpu.toNat
  | .memory => c.requiredMemoryMb.toNat

/-- One more than the largest value of the counter's type. -/
def Resource.modulus : Resource → Nat
  | .cpu => 2 ^ 8
  | .memory => 2 ^ 64

theorem capacity_lt_modulus (w : VomWorkerView F) (r : Resource) : w.capacity r < r.modulus := by
  cases r
  · exact w.cpuUnits.toNat_lt
  · exact w.freeMemoryMb.toNat_lt

theorem reserved_lt_modulus (w : VomWorkerView F) (r : Resource) : w.reserved r < r.modulus := by
  cases r
  · exact w.reservCpu.toNat_lt
  · exact w.reservMemMb.toNat_lt

/-- **The filters admit a chunk only if its demand fits beside what is reserved.** -/
theorem demand_le_of_filters {c : VomChunkPlan} {w : VomWorkerView F}
    (h : evaluateHardFilters c w = true) (r : Resource) : c.demand r ≤ w.capacity r - w.reserved r := by
  unfold evaluateHardFilters at h
  simp only [Bool.if_false_left, Bool.and_eq_true, Bool.not_eq_true', decide_eq_false_iff_not,
    UInt8.not_lt, UInt64.not_lt, Bool.if_true_right, Bool.or_false] at h
  cases r
  · have hcpu := UInt8.le_iff_toNat_le.mp h.2.2.2.2.1
    simp only [VomChunkPlan.demand, VomWorkerView.capacity, VomWorkerView.reserved]
    split at hcpu
    · rename_i hgt
      rw [UInt8.toNat_sub_of_le _ _ (UInt8.le_of_lt hgt)] at hcpu
      exact hcpu
    · simp at hcpu
      omega
  · have hmem := UInt64.le_iff_toNat_le.mp h.2.2.2.2.2
    simp only [VomChunkPlan.demand, VomWorkerView.capacity, VomWorkerView.reserved]
    split at hmem
    · rename_i hgt
      rw [UInt64.toNat_sub_of_le _ _ (UInt64.le_of_lt hgt)] at hmem
      exact hmem
    · simp at hmem
      omega

/-- The addition to an admitted worker's counter does not wrap. -/
theorem reserve_lt_modulus {c : VomChunkPlan} {w : VomWorkerView F}
    (h : evaluateHardFilters c w = true) (r : Resource) :
    w.reserved r + c.demand r < r.modulus := by
  have h1 := demand_le_of_filters h r
  have h2 := capacity_lt_modulus w r
  have h3 := reserved_lt_modulus w r
  omega

/-- On an admitted worker `reserve` adds the demand. -/
theorem reserved_reserve {c : VomChunkPlan} {w : VomWorkerView F}
    (h : evaluateHardFilters c w = true) (r : Resource) :
    (w.reserve c).reserved r = w.reserved r + c.demand r := by
  have hlt := reserve_lt_modulus h r
  cases r
  · show (w.reservCpu + c.requiredCpu).toNat = w.reservCpu.toNat + c.requiredCpu.toNat
    rw [UInt8.toNat_add]
    exact Nat.mod_eq_of_lt hlt
  · show (w.reservMemMb + c.requiredMemoryMb).toNat = w.reservMemMb.toNat + c.requiredMemoryMb.toNat
    rw [UInt64.toNat_add]
    exact Nat.mod_eq_of_lt hlt

/-- `refund` gives the demand back by the guarded subtraction. -/
theorem reserved_refund (c : VomChunkPlan) (w : VomWorkerView F) (r : Resource) :
    (w.refund c).reserved r = giveBack (w.reserved r) (c.demand r) := by
  unfold giveBack
  cases r
  · show (if w.reservCpu ≥ c.requiredCpu then w.reservCpu - c.requiredCpu else w.reservCpu).toNat =
      if c.requiredCpu.toNat ≤ w.reservCpu.toNat then w.reservCpu.toNat - c.requiredCpu.toNat
      else w.reservCpu.toNat
    by_cases hle : c.requiredCpu ≤ w.reservCpu
    · rw [if_pos hle, if_pos (UInt8.le_iff_toNat_le.mp hle), UInt8.toNat_sub_of_le _ _ hle]
    · rw [if_neg hle, if_neg fun h => hle (UInt8.le_iff_toNat_le.mpr h)]
  · show (if w.reservMemMb ≥ c.requiredMemoryMb then w.reservMemMb - c.requiredMemoryMb
      else w.reservMemMb).toNat =
      if c.requiredMemoryMb.toNat ≤ w.reservMemMb.toNat
      then w.reservMemMb.toNat - c.requiredMemoryMb.toNat else w.reservMemMb.toNat
    by_cases hle : c.requiredMemoryMb ≤ w.reservMemMb
    · rw [if_pos hle, if_pos (UInt64.le_iff_toNat_le.mp hle), UInt64.toNat_sub_of_le _ _ hle]
    · rw [if_neg hle, if_neg fun h => hle (UInt64.le_iff_toNat_le.mpr h)]

@[simp] theorem reserve_id (c : VomChunkPlan) (w : VomWorkerView F) : (w.reserve c).id = w.id := rfl

@[simp] theorem refund_id (c : VomChunkPlan) (w : VomWorkerView F) : (w.refund c).id = w.id := rfl

@[simp] theorem reserve_capacity (c : VomChunkPlan) (w : VomWorkerView F) (r : Resource) :
    (w.reserve c).capacity r = w.capacity r := by
  cases r <;> rfl

@[simp] theorem refund_capacity (c : VomChunkPlan) (w : VomWorkerView F) (r : Resource) :
    (w.refund c).capacity r = w.capacity r := by
  cases r <;> rfl

/-! ## 2. Loads, and how a step moves one worker -/

/-- What active leases hold on a worker, each counted at `amt` of its chunk. -/
def load (amt : UInt64 → Nat) (id : CStr) (as : List VomAssignmentLease) : Nat :=
  outstanding VomAssignmentLease.worker (fun l => amt l.chunkId) id as

theorem load_congr {amt amt' : UInt64 → Nat} {id : CStr} {as : List VomAssignmentLease}
    (h : ∀ l ∈ as, amt l.chunkId = amt' l.chunkId) : load amt id as = load amt' id as :=
  outstanding_congr _ _ h

/-- The load before a chunk's lease is switched off. -/
theorem load_of_find (amt : UInt64 → Nat) {cid : UInt64} {id : CStr} {ls : List VomAssignmentLease}
    {lease : VomAssignmentLease} (h : ls.find? (leaseOf cid) = some lease) :
    load amt id (activeLeases ls) = (if lease.worker = id then amt cid else 0) +
      load amt id (activeLeases (modifyFirst (leaseOf cid) VomAssignmentLease.deactivate ls)) := by
  have hcid : lease.chunkId = cid := (leaseOf_iff.mp (List.find?_some h)).1
  unfold load
  rw [outstanding_perm _ _ (activeLeases_perm_of_find h), outstanding_cons, hcid]

/-- The load after a lease is stored. -/
theorem load_of_place (amt : UInt64 → Nat) {id : CStr} {ls ls' : List VomAssignmentLease}
    {l : VomAssignmentLease} (h : place (fun l => !l.isActive) maxSchunks l ls = some ls')
    (hl : l.isActive = true) :
    load amt id (activeLeases ls') =
      (if l.worker = id then amt l.chunkId else 0) + load amt id (activeLeases ls) := by
  unfold load
  rw [outstanding_perm _ _ (activeLeases_place h hl), outstanding_cons]

/-- One worker record and the load on it, when a lease of `chunk` is switched off and refunded. -/
inductive RefundMove (chunk : VomChunkPlan) (as as' : List VomAssignmentLease)
    (w : VomWorkerView F) : VomWorkerView F → Prop where
  | stays (h : ∀ amt, load amt w.id as' = load amt w.id as) : RefundMove chunk as as' w w
  | refunded (h : ∀ amt, load amt w.id as = amt chunk.chunkId + load amt w.id as') :
      RefundMove chunk as as' w (w.refund chunk)

/-- One worker record and the load on it, when `chunk` is assigned and its lease stored. -/
inductive ReserveMove (chunk : VomChunkPlan) (as as' : List VomAssignmentLease)
    (w : VomWorkerView F) : VomWorkerView F → Prop where
  | stays (h : ∀ amt, load amt w.id as' = load amt w.id as) : ReserveMove chunk as as' w w
  | reserved (hf : evaluateHardFilters chunk w = true)
      (h : ∀ amt, load amt w.id as' = amt chunk.chunkId + load amt w.id as) :
      ReserveMove chunk as as' w (w.reserve chunk)

/-- Switching off the lease the search finds and refunding its worker moves every worker. -/
theorem refundWorker_move {ws : List (VomWorkerView F)} {ls : List VomAssignmentLease}
    {chunk : VomChunkPlan} {lease : VomAssignmentLease} (hws : (ws.map (·.id)).Nodup)
    (hf : ls.find? (leaseOf chunk.chunkId) = some lease) {w' : VomWorkerView F}
    (hw' : w' ∈ refundWorker chunk lease.worker ws) :
    ∃ w ∈ ws, RefundMove chunk (activeLeases ls) (activeLeases
      (modifyFirst (leaseOf chunk.chunkId) VomAssignmentLease.deactivate ls)) w w' := by
  rcases (mem_modifyFirst_key VomWorkerView.id (fun _ => sameWorker_iff) hws).mp hw' with
    ⟨hmem, hne⟩ | ⟨w, hmem, heq, rfl⟩
  · refine ⟨w', hmem, .stays fun amt => ?_⟩
    rw [load_of_find amt hf, if_neg fun e => hne e.symm, Nat.zero_add]
  · refine ⟨w, hmem, .refunded fun amt => ?_⟩
    rw [load_of_find amt hf, if_pos heq.symm]

theorem Expires.move {now : UInt64} {chunk : VomChunkPlan} {st st' : TickState F}
    (h : Expires now chunk st st') (hws : (st.workers.map (·.id)).Nodup) :
    ∀ w' ∈ st'.workers, ∃ w ∈ st.workers,
      RefundMove chunk (activeLeases st.leases) (activeLeases st'.leases) w w' := by
  obtain ⟨lease, hf, _, rfl⟩ := h
  exact fun w' hw' => refundWorker_move hws hf hw'

theorem Assigns.move {now : UInt64} {chunk : VomChunkPlan} {chunks : List VomChunkPlan}
    {st st' : TickState F} (h : Assigns now chunk st st') (hI : LeaseInv chunks st.leases)
    (hc : chunk ∈ chunks) (hws : (st.workers.map (·.id)).Nodup) :
    ∀ w' ∈ st'.workers, ∃ w ∈ st.workers,
      ReserveMove chunk (activeLeases st.leases) (activeLeases st'.leases) w w' := by
  obtain ⟨i, target, leases, hi, hfil, hp, rfl⟩ := h.stored hI hc
  have hworker : (newLease now chunk target).worker = target.id := NulBuf.copy_str_self _
  have hload : ∀ (amt : UInt64 → Nat) (id : CStr), load amt id (activeLeases leases) =
      (if target.id = id then amt chunk.chunkId else 0) + load amt id (activeLeases st.leases) := by
    intro amt id
    rw [load_of_place amt hp rfl, hworker]
    rfl
  intro w' hw'
  rcases mem_set_key VomWorkerView.id hws hi hw' with ⟨hmem, hne⟩ | rfl
  · refine ⟨w', hmem, .stays fun amt => ?_⟩
    rw [hload amt w'.id, if_neg fun e => hne e.symm, Nat.zero_add]
  · refine ⟨target, List.mem_of_getElem? hi, .reserved hfil fun amt => ?_⟩
    rw [hload amt target.id, if_pos rfl]

/-! ## 3. Workers keep their ids, leases name registered workers -/

/-- Worker ids are distinct and every active lease names one of them. -/
structure WorkerInv (ws : List (VomWorkerView F)) (ls : List VomAssignmentLease) : Prop where
  idsNodup : (ws.map (·.id)).Nodup
  leaseWorker : ∀ l ∈ activeLeases ls, l.worker ∈ ws.map (·.id)

/-- Nothing is held on an id no worker has. -/
theorem WorkerInv.load_unknown {ws : List (VomWorkerView F)} {ls : List VomAssignmentLease}
    (h : WorkerInv ws ls) {id : CStr} (hid : id ∉ ws.map (·.id)) (amt : UInt64 → Nat) :
    load amt id (activeLeases ls) = 0 := by
  refine outstanding_eq_zero _ _ fun l hl e => hid ?_
  rw [← e]
  exact h.leaseWorker l hl

theorem refundWorker_ids (chunk : VomChunkPlan) (id : CStr) (ws : List (VomWorkerView F)) :
    (refundWorker chunk id ws).map (·.id) = ws.map (·.id) :=
  map_modifyFirst _ (VomWorkerView.refund chunk) _ (fun _ => rfl) ws

theorem WorkerInv.refund {ws : List (VomWorkerView F)} {ls : List VomAssignmentLease}
    (h : WorkerInv ws ls) (chunk : VomChunkPlan) (id : CStr) (cid : UInt64) :
    WorkerInv (refundWorker chunk id ws)
      (modifyFirst (leaseOf cid) VomAssignmentLease.deactivate ls) where
  idsNodup := by
    rw [refundWorker_ids]
    exact h.idsNodup
  leaseWorker l hl := by
    rw [refundWorker_ids]
    rw [activeLeases_deactivate] at hl
    exact h.leaseWorker l (List.mem_of_mem_eraseP hl)

theorem Expires.workerInv {now : UInt64} {chunk : VomChunkPlan} {st st' : TickState F}
    (h : Expires now chunk st st') (hW : WorkerInv st.workers st.leases) :
    WorkerInv st'.workers st'.leases := by
  obtain ⟨lease, _, _, rfl⟩ := h
  exact hW.refund chunk lease.worker chunk.chunkId

theorem Assigns.workerInv {now : UInt64} {chunk : VomChunkPlan} {chunks : List VomChunkPlan}
    {st st' : TickState F} (h : Assigns now chunk st st') (hI : LeaseInv chunks st.leases)
    (hc : chunk ∈ chunks) (hW : WorkerInv st.workers st.leases) :
    WorkerInv st'.workers st'.leases := by
  obtain ⟨i, target, leases, hi, _, hp, rfl⟩ := h.stored hI hc
  have hids : (st.workers.set i (target.reserve chunk)).map (·.id) = st.workers.map (·.id) :=
    map_set_key _ hi rfl
  refine ⟨by rw [hids]; exact hW.idsNodup, fun l hl => ?_⟩
  rw [hids]
  rcases List.mem_cons.mp ((activeLeases_place hp rfl).mem_iff.mp hl) with rfl | hl
  · have hworker : (newLease now chunk target).worker = target.id := NulBuf.copy_str_self _
    rw [hworker]
    exact List.mem_map_of_mem (List.mem_of_getElem? hi)
  · exact hW.leaseWorker l hl

theorem register_workerInv {s : Scheduler F} (hW : WorkerInv s.workers s.leases)
    (w : Option (VomWorkerView F)) :
    WorkerInv (vomSchedulerRegisterWorker s w).1.workers
      (vomSchedulerRegisterWorker s w).1.leases := by
  cases w with
  | none => exact hW
  | some w =>
    unfold vomSchedulerRegisterWorker
    cases hp : place (sameWorker w.id) maxSworkers w s.workers with
    | none => simpa [hp] using hW
    | some workers =>
      simp only [hp]
      exact ⟨nodup_map_place _ hp (fun _ => sameWorker_iff) hW.idsNodup,
        fun l hl => map_subset_place _ hp (fun _ => sameWorker_iff.mp) (hW.leaseWorker l hl)⟩

end VoidOsMerger
