/-
  File:      VoidOsMerger/Worker/Lifecycle.lean
  Subject:   THE WORKER'S LIFECYCLE AND ITS LOAD (worker/src/worker_state.c).

  The state moves by lifecycle events and by the number of active tasks. RUNNING should mean that
  there are tasks and REGISTERED that there are none; DRAINING, OFFLINE and CONNECTED keep the tasks
  they were left with, and two events lead from them to REGISTERED.

  * `count_next`, `legal_of_totals` -- while the running total stays in range the counter is
    that total, and neither wraps nor is clamped;
  * `reflectsLoad_updateTasks`, `reflectsLoad_transition_iff` -- the two kinds of step;
  * **`reflectsLoad_iff`** -- the state reflects the load along a run exactly when no event registers
    a worker that has tasks;
  * `registered_with_tasks` -- a drain that is called off does.
-/
import Mathlib.Data.List.Infix
import VoidOsMerger.Base.CText
import VoidOsMerger.Base.Run

namespace VoidOsMerger

/-! ## 1. The source -/

inductive WorkerState
  | offline | connected | registered | running | draining | shutdown
  deriving DecidableEq, Repr

inductive WorkerEvent
  | connect | registerSuccess | startDrain | stopDrain | disconnect | terminate
  deriving DecidableEq, Repr

/-- `vom_worker_state_t` -/
structure VomWorkerState where
  currentState : WorkerState
  lastTransitionMs : UInt64
  activeTasksCount : UInt32
  masterEndpoint : NulBuf 128
  deriving DecidableEq

/-- `vom_worker_state_init` -/
def vomWorkerStateInit : VomWorkerState := ⟨.offline, 0, 0, NulBuf.copy 127 ⟨[], noNul_nil⟩⟩

/-- The `switch`: where an event leads, if it is allowed. -/
def WorkerState.next : WorkerState → WorkerEvent → Option WorkerState
  | .offline, .connect => some .connected
  | .connected, .registerSuccess => some .registered
  | .connected, .disconnect => some .offline
  | .registered, .startDrain | .running, .startDrain => some .draining
  | .draining, .stopDrain => some .registered
  | .registered, .disconnect | .running, .disconnect | .draining, .disconnect => some .offline
  | .registered, .terminate | .running, .terminate | .draining, .terminate => some .shutdown
  | _, _ => none

/-- `vom_worker_state_transition`; `none` is a null endpoint. -/
def vomWorkerStateTransition (ctx : VomWorkerState) (event : WorkerEvent) (nowMs : UInt64)
    (endpoint : Option CStr) : VomWorkerState × Bool :=
  match ctx.currentState.next event with
  | none => (ctx, false)
  | some next =>
    ({ ctx with
        currentState := next
        lastTransitionMs := nowMs
        -- only CONNECT, which only OFFLINE allows, writes the endpoint
        masterEndpoint := match event, endpoint with
          | .connect, some endpoint => NulBuf.copy 127 endpoint
          | _, _ => ctx.masterEndpoint }, true)

/-- `vom_worker_state_update_tasks` -/
def vomWorkerStateUpdateTasks (ctx : VomWorkerState) (delta : Int32) : VomWorkerState :=
  if 0 < delta.toInt then
    { ctx with
      activeTasksCount := ctx.activeTasksCount + uint32OfInt delta.toInt
      currentState := if ctx.currentState = .registered then .running else ctx.currentState }
  else if delta.toInt < 0 then
    let uDelta := uint32OfInt (-delta.toInt)
    let count := if uDelta ≤ ctx.activeTasksCount then ctx.activeTasksCount - uDelta else 0
    { ctx with
      activeTasksCount := count
      currentState :=
        if count = 0 ∧ ctx.currentState = .running then .registered else ctx.currentState }
  else ctx

inductive WorkerStateOp
  | transition (event : WorkerEvent) (nowMs : UInt64) (endpoint : Option CStr)
  | updateTasks (delta : Int32)

/-- The worker's state behind its mutex; an update of the tasks answers nothing. -/
def workerStateMachine : Machine VomWorkerState WorkerStateOp (Option Bool) where
  step ctx op := match op with
    | .transition event nowMs endpoint =>
      let r := vomWorkerStateTransition ctx event nowMs endpoint
      (r.1, some r.2)
    | .updateTasks delta => (vomWorkerStateUpdateTasks ctx delta, none)

/-! ## 2. The counter -/

/-- What a call adds to the running total. -/
def WorkerStateOp.delta : WorkerStateOp → Int
  | .transition .. => 0
  | .updateTasks delta => delta.toInt

/-- The running total of the updates. -/
def tasksTotal (ops : List WorkerStateOp) : Int := (ops.map WorkerStateOp.delta).sum

/-- The call leaves the total between 0 and 2^31 - 1. -/
def InRange (ctx : VomWorkerState) (op : WorkerStateOp) : Prop :=
  0 ≤ ctx.activeTasksCount.toNat + op.delta ∧ ctx.activeTasksCount.toNat + op.delta ≤ 2 ^ 31 - 1

section Counter

variable {ctx : VomWorkerState} {delta : Int32}

/-- **An update in range**: the counter moves by the delta, and the state with it. -/
theorem updateTasks_cases (h : InRange ctx (.updateTasks delta)) :
    (0 < delta.toInt ∧ ∃ count : UInt32, (count.toNat : Int) =
        ctx.activeTasksCount.toNat + delta.toInt ∧ vomWorkerStateUpdateTasks ctx delta =
          { ctx with
            activeTasksCount := count
            currentState := if ctx.currentState = .registered then .running
              else ctx.currentState }) ∨
    (delta.toInt < 0 ∧ ∃ count : UInt32, (count.toNat : Int) =
        ctx.activeTasksCount.toNat + delta.toInt ∧ vomWorkerStateUpdateTasks ctx delta =
          { ctx with
            activeTasksCount := count
            currentState := if count = 0 ∧ ctx.currentState = .running then .registered
              else ctx.currentState }) ∨
    (delta.toInt = 0 ∧ vomWorkerStateUpdateTasks ctx delta = ctx) := by
  obtain ⟨hlow, hhigh⟩ : 0 ≤ ctx.activeTasksCount.toNat + delta.toInt ∧
    ctx.activeTasksCount.toNat + delta.toInt ≤ 2 ^ 31 - 1 := h
  unfold vomWorkerStateUpdateTasks
  rcases Int.lt_trichotomy delta.toInt 0 with hneg | hzero | hpos
  · have hu : ((uint32OfInt (-delta.toInt)).toNat : Int) = -delta.toInt :=
      uint32OfInt_toNat (by omega) (by have := ctx.activeTasksCount.toNat_lt; omega)
    have hle : uint32OfInt (-delta.toInt) ≤ ctx.activeTasksCount :=
      UInt32.le_iff_toNat_le.mpr (by omega)
    refine Or.inr (Or.inl ⟨hneg, ctx.activeTasksCount - uint32OfInt (-delta.toInt), ?_, ?_⟩)
    · rw [UInt32.toNat_sub_of_le _ _ hle]
      have hle := UInt32.le_iff_toNat_le.mp hle
      omega
    · rw [if_neg (by omega), if_pos hneg]
      dsimp only
      rw [if_pos hle]
  · refine Or.inr (Or.inr ⟨hzero, ?_⟩)
    rw [if_neg (by omega), if_neg (by omega)]
  · have hu : ((uint32OfInt delta.toInt).toNat : Int) = delta.toInt :=
      uint32OfInt_toNat (by omega) (by omega)
    refine Or.inl ⟨hpos, ctx.activeTasksCount + uint32OfInt delta.toInt, ?_, if_pos hpos⟩
    rw [UInt32.toNat_add, Nat.mod_eq_of_lt (by omega)]
    omega

end Counter

theorem transition_count (ctx : VomWorkerState) (event : WorkerEvent) (nowMs : UInt64)
    (endpoint : Option CStr) :
    (vomWorkerStateTransition ctx event nowMs endpoint).1.activeTasksCount =
      ctx.activeTasksCount := by
  unfold vomWorkerStateTransition
  split
  · rfl
  · rfl

theorem count_next {ctx : VomWorkerState} {op : WorkerStateOp} (h : InRange ctx op) :
    ((workerStateMachine.next ctx op).activeTasksCount.toNat : Int) =
      ctx.activeTasksCount.toNat + op.delta := by
  cases op with
  | transition event nowMs endpoint =>
    have hcount := transition_count ctx event nowMs endpoint
    show ((vomWorkerStateTransition ctx event nowMs endpoint).1.activeTasksCount.toNat : Int) = _
    rw [hcount]
    exact (Int.add_zero _).symm
  | updateTasks delta =>
    show ((vomWorkerStateUpdateTasks ctx delta).activeTasksCount.toNat : Int) = _
    rcases updateTasks_cases h with ⟨-, count, hcount, e⟩ | ⟨-, count, hcount, e⟩ | ⟨hzero, e⟩
    · rw [e]
      exact hcount
    · rw [e]
      exact hcount
    · rw [e]
      show _ = _ + delta.toInt
      rw [hzero, Int.add_zero]

/-- Running totals in range keep every call in range. -/
theorem legal_of_totals {ops : List WorkerStateOp} : ∀ {ctx : VomWorkerState},
    (∀ pre, pre <+: ops → 0 ≤ ctx.activeTasksCount.toNat + tasksTotal pre ∧
      ctx.activeTasksCount.toNat + tasksTotal pre ≤ 2 ^ 31 - 1) →
    workerStateMachine.Legal InRange ctx ops := by
  induction ops with
  | nil => exact fun _ => trivial
  | cons op ops ih =>
    intro ctx h
    have hop : InRange ctx op := by
      have hone := h [op] (List.cons_prefix_cons.mpr ⟨rfl, List.nil_prefix⟩)
      simpa [tasksTotal, InRange] using hone
    refine ⟨hop, ih fun pre hpre => ?_⟩
    have hmore := h (op :: pre) (List.cons_prefix_cons.mpr ⟨rfl, hpre⟩)
    rw [count_next hop]
    rw [tasksTotal, List.map_cons, List.sum_cons, ← Int.add_assoc] at hmore
    exact hmore

/-! ## 3. State and load -/

/-- A running worker has tasks, a registered one has none. -/
structure ReflectsLoad (ctx : VomWorkerState) : Prop where
  running : ctx.currentState = .running → 0 < ctx.activeTasksCount
  registered : ctx.currentState = .registered → ctx.activeTasksCount = 0

/-- No event registers a worker that has tasks. -/
def RegistersIdle (ctx : VomWorkerState) : WorkerStateOp → Prop
  | .transition event _ _ => ctx.currentState.next event = some .registered →
      ctx.activeTasksCount = 0
  | .updateTasks _ => True

instance (ctx : VomWorkerState) : DecidablePred (RegistersIdle ctx)
  | .transition event _ _ => inferInstanceAs (Decidable
      (ctx.currentState.next event = some .registered → ctx.activeTasksCount = 0))
  | .updateTasks _ => inferInstanceAs (Decidable True)

/-- The tasks alone keep the state in step with the load. -/
theorem reflectsLoad_updateTasks {ctx : VomWorkerState} (h : ReflectsLoad ctx) {delta : Int32}
    (hrange : InRange ctx (.updateTasks delta)) :
    ReflectsLoad (vomWorkerStateUpdateTasks ctx delta) := by
  have hzero : ∀ count : UInt32, count = 0 ↔ count.toNat = 0 := fun count =>
    UInt32.toNat_inj.symm
  have hpos : ∀ count : UInt32, 0 < count ↔ 0 < count.toNat := fun count =>
    UInt32.lt_iff_toNat_lt
  rcases updateTasks_cases hrange with ⟨hd, count, hcount, e⟩ | ⟨hd, count, hcount, e⟩ | ⟨-, e⟩
  · rw [e]
    refine ⟨fun _ => (hpos count).mpr (by omega), fun hreg => ?_⟩
    have hleft : (if ctx.currentState = .registered then .running else ctx.currentState) ≠
        WorkerState.registered := by
      split
      · exact WorkerState.noConfusion
      · rename_i hother
        exact hother
    exact absurd hreg hleft
  · rw [e]
    by_cases hidle : count = 0 ∧ ctx.currentState = .running
    · simp only [if_pos hidle]
      exact ⟨nofun, fun _ => hidle.1⟩
    · simp only [if_neg hidle]
      refine ⟨fun hrun => ?_, fun hreg => ?_⟩
      · have hne : count.toNat ≠ 0 := fun hc => hidle ⟨(hzero count).mpr hc, hrun⟩
        exact (hpos count).mpr (Nat.pos_of_ne_zero hne)
      · -- a registered worker has no task to take away
        have hnone : ctx.activeTasksCount.toNat = 0 := (hzero _).mp (h.registered hreg)
        omega
  · rw [e]
    exact h

/-- No event leads to RUNNING. -/
theorem next_ne_running (s : WorkerState) (event : WorkerEvent) : s.next event ≠ some .running := by
  fun_cases WorkerState.next s event <;> simp

theorem reflectsLoad_transition_iff {ctx : VomWorkerState} (h : ReflectsLoad ctx)
    (event : WorkerEvent) (nowMs : UInt64) (endpoint : Option CStr) :
    ReflectsLoad (vomWorkerStateTransition ctx event nowMs endpoint).1 ↔
      RegistersIdle ctx (.transition event nowMs endpoint) := by
  show _ ↔ (ctx.currentState.next event = some .registered → ctx.activeTasksCount = 0)
  unfold vomWorkerStateTransition
  cases hnext : ctx.currentState.next event with
  | none => exact iff_of_true h nofun
  | some next =>
    have hrun : next ≠ .running := fun e => next_ne_running _ event (hnext.trans (congrArg some e))
    dsimp only
    constructor
    · intro hafter e
      exact hafter.registered (Option.some.inj e)
    · intro hidle
      exact ⟨fun e => absurd e hrun, fun e => hidle (congrArg some e)⟩

/-- **When the state reflects the load.** In a run whose running total of the updates stays between 0
    and 2^31 - 1, a running worker always has tasks and a registered one never, exactly when every
    event that leads to REGISTERED finds no active task. -/
theorem reflectsLoad_iff (ops : List WorkerStateOp)
    (htotal : ∀ pre, pre <+: ops → 0 ≤ tasksTotal pre ∧ tasksTotal pre ≤ 2 ^ 31 - 1) :
    (∀ pre, pre <+: ops → ReflectsLoad (workerStateMachine.run vomWorkerStateInit pre)) ↔
      workerStateMachine.Legal RegistersIdle vomWorkerStateInit ops := by
  have hinit : ReflectsLoad vomWorkerStateInit := ⟨nofun, nofun⟩
  have hrange : workerStateMachine.Legal InRange vomWorkerStateInit ops :=
    legal_of_totals fun pre hpre => by simpa [vomWorkerStateInit] using htotal pre hpre
  refine workerStateMachine.always_iff_legal ReflectsLoad (fun ctx op h hop => ?_)
    (fun _ _ _ _ hnext => hnext) hinit hinit hrange
  cases op with
  | transition event nowMs endpoint => exact reflectsLoad_transition_iff h event nowMs endpoint
  | updateTasks delta => exact iff_of_true (reflectsLoad_updateTasks h hop) trivial

/-- A worker takes two tasks, finishes them while it drains, and is registered again. -/
def drainedIdle : List WorkerStateOp :=
  [.transition .connect 1000 none, .transition .registerSuccess 1100 none, .updateTasks 2,
    .transition .startDrain 1200 none, .updateTasks (-2), .transition .stopDrain 1300 none]

/-- Here the drain is called off with both tasks active. -/
def drainCalledOff : List WorkerStateOp :=
  [.transition .connect 1000 none, .transition .registerSuccess 1100 none, .updateTasks 2,
    .transition .startDrain 1200 none, .transition .stopDrain 1300 none]

theorem drained_worker_reflects_load :
    (∀ pre, pre <+: drainedIdle → 0 ≤ tasksTotal pre ∧ tasksTotal pre ≤ 2 ^ 31 - 1) ∧
      ∀ pre, pre <+: drainedIdle → ReflectsLoad (workerStateMachine.run vomWorkerStateInit pre) := by
  have htotal : ∀ pre ∈ drainedIdle.inits, 0 ≤ tasksTotal pre ∧ tasksTotal pre ≤ 2 ^ 31 - 1 := by
    decide +kernel
  have htotal : ∀ pre, pre <+: drainedIdle → 0 ≤ tasksTotal pre ∧ tasksTotal pre ≤ 2 ^ 31 - 1 :=
    fun pre hpre => htotal pre ((List.mem_inits pre drainedIdle).mpr hpre)
  exact ⟨htotal, (reflectsLoad_iff drainedIdle htotal).mpr (by decide +kernel)⟩

/-- **A registered worker with tasks.** -/
theorem registered_with_tasks : ¬ ∀ ops : List WorkerStateOp,
    (∀ pre, pre <+: ops → 0 ≤ tasksTotal pre ∧ tasksTotal pre ≤ 2 ^ 31 - 1) →
      ReflectsLoad (workerStateMachine.run vomWorkerStateInit ops) := by
  intro h
  have htotal : ∀ pre ∈ drainCalledOff.inits, 0 ≤ tasksTotal pre ∧ tasksTotal pre ≤ 2 ^ 31 - 1 := by
    decide +kernel
  have hload := h drainCalledOff fun pre hpre =>
    htotal pre ((List.mem_inits pre drainCalledOff).mpr hpre)
  exact absurd (hload.registered (by decide +kernel)) (by decide +kernel)

end VoidOsMerger
