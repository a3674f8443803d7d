/-
  File:      VoidOsMerger/Worker/Reservations.lean
  Subject:   THE EXECUTOR'S RESERVATIONS: what is reserved is what the calls hold.

  A call holds its resources from its reservation to its release. Only these two steps touch the
  counters (`execStep_cases`), and only a call that has been validated takes them.

  * `reserve_cases`, `releaseLocalResources_exact` -- neither the sums nor the guarded differences of
    the source go wrong while the counters are within the host's resources;
  * `Accounted`, `accounted_step` -- the invariant and one step of any call;
  * **`executor_reservations_balance`** -- every interleaving of any calls, whatever the system answers.
-/
import VoidOsMerger.Worker.Executor
import VoidOsMerger.Base.Ledger

namespace VoidOsMerger

/-! ## 1. The two counters -/

/-- An assignment that passed the checks of `vom_executor_validate`. -/
structure Fits (a : ChunkAssignment) : Prop where
  cores : a.requiredCores.toNat ≤ vomSysInfoCollect.coresOnline.toNat
  memory : a.requiredMemoryBytes.toNat ≤ vomSysInfoCollect.memoryBytes.toNat

/-- Counters within the host's resources. -/
structure Reserved.Within (g : Reserved) : Prop where
  cores : g.cores.toNat ≤ vomSysInfoCollect.coresOnline.toNat
  memory : g.memoryBytes.toNat ≤ vomSysInfoCollect.memoryBytes.toNat

theorem validate_fits {access : CStr → Bool} {a : ChunkAssignment}
    (h : vomExecutorValidate access a vomSysInfoCollect = true) : Fits a := by
  unfold vomExecutorValidate at h
  split at h
  · cases h
  · split at h
    · cases h
    · rename_i hcores
      split at h
      · cases h
      · rename_i hmemory
        rw [UInt32.lt_iff_toNat_lt] at hcores
        rw [UInt64.lt_iff_toNat_lt] at hmemory
        exact ⟨Nat.not_lt.mp hcores, Nat.not_lt.mp hmemory⟩

theorem host_cores : vomSysInfoCollect.coresOnline.toNat = 8 := rfl

theorem host_memory : vomSysInfoCollect.memoryBytes.toNat = 2 ^ 34 := by decide

section Counters

variable {g : Reserved} {a : ChunkAssignment}

/-- The sums of a reservation do not wrap. -/
theorem sums_exact (hg : g.Within) (ha : Fits a) :
    (g.cores + a.requiredCores).toNat = g.cores.toNat + a.requiredCores.toNat ∧
    (g.memoryBytes + a.requiredMemoryBytes).toNat =
      g.memoryBytes.toNat + a.requiredMemoryBytes.toNat := by
  have hgc := hg.cores
  have hgm := hg.memory
  have hac := ha.cores
  have ham := ha.memory
  rw [host_cores] at hgc hac
  rw [host_memory] at hgm ham
  rw [UInt32.toNat_add, UInt64.toNat_add, Nat.mod_eq_of_lt (by omega), Nat.mod_eq_of_lt (by omega)]
  exact ⟨rfl, rfl⟩

/-- **A reservation** is refused, or adds what is required and stays within the host's resources. -/
theorem reserve_cases (hg : g.Within) (ha : Fits a) :
    reserveLocalResources a vomSysInfoCollect g = (false, g) ∨
    ∃ g', reserveLocalResources a vomSysInfoCollect g = (true, g') ∧ g'.Within ∧
      g'.cores.toNat = g.cores.toNat + a.requiredCores.toNat ∧
      g'.memoryBytes.toNat = g.memoryBytes.toNat + a.requiredMemoryBytes.toNat := by
  unfold reserveLocalResources
  split
  · exact Or.inl rfl
  · rename_i hroom
    have hcores : ¬ vomSysInfoCollect.coresOnline < g.cores + a.requiredCores :=
      fun h => hroom (Or.inl h)
    have hmemory : ¬ vomSysInfoCollect.memoryBytes < g.memoryBytes + a.requiredMemoryBytes :=
      fun h => hroom (Or.inr h)
    rw [UInt32.lt_iff_toNat_lt] at hcores
    rw [UInt64.lt_iff_toNat_lt] at hmemory
    exact Or.inr ⟨_, rfl, ⟨Nat.not_lt.mp hcores, Nat.not_lt.mp hmemory⟩, sums_exact hg ha⟩

/-- **A release** of no more than is reserved subtracts in full. -/
theorem releaseLocalResources_exact (hcores : a.requiredCores.toNat ≤ g.cores.toNat)
    (hmemory : a.requiredMemoryBytes.toNat ≤ g.memoryBytes.toNat) :
    (releaseLocalResources a g).cores.toNat = g.cores.toNat - a.requiredCores.toNat ∧
    (releaseLocalResources a g).memoryBytes.toNat =
      g.memoryBytes.toNat - a.requiredMemoryBytes.toNat := by
  have hc : a.requiredCores ≤ g.cores := UInt32.le_iff_toNat_le.mpr hcores
  have hm : a.requiredMemoryBytes ≤ g.memoryBytes := UInt64.le_iff_toNat_le.mpr hmemory
  unfold releaseLocalResources
  dsimp only
  rw [if_pos hc, if_pos hm, UInt32.toNat_sub_of_le _ _ hc, UInt64.toNat_sub_of_le _ _ hm]
  exact ⟨rfl, rfl⟩

end Counters

/-! ## 2. What a step does to them -/

/-- Past the reservation and before the release. -/
def ExecPhase.holds : ExecPhase → Bool
  | .validating | .reserving | .returned _ => false
  | .piping | .forking | .polling _ | .releasing _ => true

/-- The call has reserved and not yet released. -/
def ExecCall.holds (c : ExecCall) : Bool := c.phase.holds

theorem holds_of_phase {c : ExecCall} {phase : ExecPhase} (h : c.phase = phase) :
    c.holds = phase.holds := congrArg ExecPhase.holds h

/-- About to reserve, or holding: past the validation. -/
def ExecCall.Checked (c : ExecCall) : Prop :=
  c.phase = .reserving ∨ c.holds = true → Fits c.assignment

/-- The cores and the memory the calls hold. -/
def heldCores (calls : List ExecCall) : Nat :=
  outstanding ExecCall.holds (·.assignment.requiredCores.toNat) true calls

def heldMemory (calls : List ExecCall) : Nat :=
  outstanding ExecCall.holds (·.assignment.requiredMemoryBytes.toNat) true calls

/-- The polling loop holds what it held. -/
theorem poll_holds {c : ExecCall} {startSec : Int} (hc : c.phase = .polling startSec)
    (input : PollInput) : (c.poll startSec input).holds = true ∧
      (c.poll startSec input).assignment = c.assignment := by
  have hholds : c.holds = true := holds_of_phase hc
  unfold ExecCall.poll
  dsimp only
  split
  · exact ⟨rfl, rfl⟩
  · split
    · exact ⟨rfl, rfl⟩
    · by_cases hread : 0 < input.bytesRead
      · rw [if_pos hread]
        split
        · exact ⟨hholds, rfl⟩
        · exact ⟨rfl, rfl⟩
      · rw [if_neg hread]
        split
        · exact ⟨hholds, rfl⟩
        · exact ⟨rfl, rfl⟩

/-- What a step does to the counters and to what its call holds. -/
inductive StepKind (g : Reserved) (c : ExecCall) (g' : Reserved) (c' : ExecCall) : Prop
  | reserves (hphase : c.phase = .reserving) (hholds : c'.holds = true)
      (hrun : reserveLocalResources c.assignment vomSysInfoCollect g = (true, g'))
  | releases (hphase : ∃ after, c.phase = .releasing after) (hreturned : ∃ b, c'.phase = .returned b)
      (hrun : g' = releaseLocalResources c.assignment g)
  | keeps (hrun : g' = g) (hholds : c'.holds = c.holds)
      (hchecked : c'.phase = .reserving → Fits c.assignment)

/-- **A step of a call.** -/
theorem execStep_cases (env : ExecEnv) (g : Reserved) (c : ExecCall) :
    (c.step env g).2.assignment = c.assignment ∧
      StepKind g c (c.step env g).1 (c.step env g).2 := by
  unfold ExecCall.step
  cases hphase : c.phase with
  | validating =>
    have hholds : c.holds = false := holds_of_phase hphase
    dsimp only
    split
    · rename_i hvalid
      exact ⟨rfl, .keeps rfl hholds.symm fun _ => validate_fits hvalid⟩
    · exact ⟨rfl, .keeps rfl hholds.symm nofun⟩
  | reserving =>
    have hholds : c.holds = false := holds_of_phase hphase
    dsimp only
    split
    · rename_i hok
      exact ⟨rfl, .reserves hphase rfl (Prod.ext hok rfl)⟩
    · rename_i hno
      refine ⟨rfl, .keeps ?_ hholds.symm nofun⟩
      unfold reserveLocalResources at hno ⊢
      split
      · rfl
      · rename_i hroom
        rw [if_neg hroom] at hno
        exact absurd rfl hno
  | piping =>
    have hholds : c.holds = true := holds_of_phase hphase
    dsimp only
    split
    · exact ⟨rfl, .keeps rfl hholds.symm nofun⟩
    · exact ⟨rfl, .keeps rfl hholds.symm nofun⟩
  | forking =>
    have hholds : c.holds = true := holds_of_phase hphase
    dsimp only
    split
    · exact ⟨rfl, .keeps rfl hholds.symm nofun⟩
    · exact ⟨rfl, .keeps rfl hholds.symm nofun⟩
  | polling startSec =>
    have hholds : c.holds = true := holds_of_phase hphase
    obtain ⟨hpoll, hassign⟩ := poll_holds hphase env.poll
    refine ⟨hassign, .keeps rfl (hpoll.trans hholds.symm) ?_⟩
    intro hres
    rw [ExecCall.holds, hres] at hpoll
    cases hpoll
  | releasing after =>
    cases after with
    | pipeFailed => exact ⟨rfl, .releases ⟨_, hphase⟩ ⟨_, rfl⟩ rfl⟩
    | forkFailed => exact ⟨rfl, .releases ⟨_, hphase⟩ ⟨_, rfl⟩ rfl⟩
    | finished => exact ⟨rfl, .releases ⟨_, hphase⟩ ⟨_, rfl⟩ rfl⟩
  | returned b =>
    refine ⟨rfl, .keeps rfl rfl ?_⟩
    intro hres
    rw [hphase] at hres
    cases hres

/-! ## 3. Every interleaving -/

/-- The counters are what the calls hold and within the host's resources, and every call past its
    validation fits the host. -/
structure Accounted (s : ExecutorState) : Prop where
  cores : s.reserved.cores.toNat = heldCores s.calls
  memory : s.reserved.memoryBytes.toNat = heldMemory s.calls
  within : s.reserved.Within
  checked : ∀ c ∈ s.calls, c.Checked

theorem accounted_start : Accounted executorStart :=
  ⟨rfl, rfl, ⟨Nat.zero_le _, Nat.zero_le _⟩, fun _ hc => absurd hc List.not_mem_nil⟩

theorem accounted_enter {s : ExecutorState} (h : Accounted s) (a : ChunkAssignment)
    (hasCallback : Bool) :
    Accounted { s with calls := s.calls ++ [ExecCall.enter a hasCallback] } := by
  refine ⟨?_, ?_, h.within, ?_⟩
  · show _ = outstanding _ _ _ _
    rw [outstanding_snoc]
    exact h.cores
  · show _ = outstanding _ _ _ _
    rw [outstanding_snoc]
    exact h.memory
  · intro c hc
    rcases List.mem_append.mp hc with hc | hc
    · exact h.checked c hc
    · rw [List.mem_singleton.mp hc]
      intro hpast
      rcases hpast with hpast | hpast
      · cases hpast
      · cases hpast

/-- What a call holds is part of what is reserved. -/
theorem Accounted.covers {s : ExecutorState} (h : Accounted s) {c : ExecCall} (hc : c ∈ s.calls)
    (hholds : c.holds = true) : c.assignment.requiredCores.toNat ≤ s.reserved.cores.toNat ∧
      c.assignment.requiredMemoryBytes.toNat ≤ s.reserved.memoryBytes.toNat := by
  rw [h.cores, h.memory]
  exact ⟨le_outstanding _ (·.assignment.requiredCores.toNat) hc hholds,
    le_outstanding _ (·.assignment.requiredMemoryBytes.toNat) hc hholds⟩

/-- So its release subtracts in full. -/
theorem Accounted.release_exact {s : ExecutorState} (h : Accounted s) {c : ExecCall}
    (hc : c ∈ s.calls) (hholds : c.holds = true) :
    (releaseLocalResources c.assignment s.reserved).cores.toNat + c.assignment.requiredCores.toNat =
      s.reserved.cores.toNat ∧
    (releaseLocalResources c.assignment s.reserved).memoryBytes.toNat +
      c.assignment.requiredMemoryBytes.toNat = s.reserved.memoryBytes.toNat := by
  obtain ⟨hcores, hmemory⟩ := h.covers hc hholds
  obtain ⟨hgc, hgm⟩ := releaseLocalResources_exact hcores hmemory
  exact ⟨by omega, by omega⟩

/-- When no call holds anything, nothing is reserved. -/
theorem Accounted.reserved_zero {s : ExecutorState} (h : Accounted s)
    (hnone : ∀ c ∈ s.calls, c.holds = false) : s.reserved = ⟨0, 0⟩ := by
  have hfilter : (s.calls.filter fun c => decide (c.holds = true)) = [] :=
    List.filter_eq_nil_iff.mpr fun c hc => by simp [hnone c hc]
  have hcores := h.cores
  have hmemory := h.memory
  unfold heldCores outstanding at hcores
  unfold heldMemory outstanding at hmemory
  rw [hfilter] at hcores hmemory
  have hc₀ : s.reserved.cores = 0 := UInt32.toNat_inj.mp hcores
  have hm₀ : s.reserved.memoryBytes = 0 := UInt64.toNat_inj.mp hmemory
  rw [← hc₀, ← hm₀]

section OneCall

variable {s : ExecutorState} (h : Accounted s) {i : Nat} {c c' : ExecCall}
  (hi : s.calls[i]? = some c) (hassign : c'.assignment = c.assignment)

include hi hassign in
/-- What is held when one call moves on. -/
theorem held_set :
    heldCores (s.calls.set i c') + (if c.holds = true then c.assignment.requiredCores.toNat else 0) =
      heldCores s.calls + (if c'.holds = true then c.assignment.requiredCores.toNat else 0) ∧
    heldMemory (s.calls.set i c') +
        (if c.holds = true then c.assignment.requiredMemoryBytes.toNat else 0) =
      heldMemory s.calls +
        (if c'.holds = true then c.assignment.requiredMemoryBytes.toNat else 0) := by
  have hcores := outstanding_set ExecCall.holds (·.assignment.requiredCores.toNat) true hi c'
  have hmemory := outstanding_set ExecCall.holds (·.assignment.requiredMemoryBytes.toNat) true hi c'
  rw [hassign] at hcores hmemory
  exact ⟨hcores, hmemory⟩

include h in
theorem checked_set (hc' : c'.Checked) : ∀ d ∈ s.calls.set i c', d.Checked := by
  intro d hd
  rcases List.mem_or_eq_of_mem_set hd with hd | hd
  · exact h.checked d hd
  · exact hd ▸ hc'

include h hi hassign

theorem accounted_reserves {g : Reserved} (hphase : c.phase = .reserving) (hholds : c'.holds = true)
    (hrun : reserveLocalResources c.assignment vomSysInfoCollect s.reserved = (true, g)) :
    Accounted ⟨g, s.calls.set i c'⟩ := by
  have hfree : c.holds = false := holds_of_phase hphase
  have hfits : Fits c.assignment := h.checked c (List.mem_of_getElem? hi) (Or.inl hphase)
  obtain ⟨hcores, hmemory⟩ := held_set hi hassign
  rw [hfree, hholds, if_neg Bool.false_ne_true, if_pos rfl] at hcores hmemory
  have hc₀ := h.cores
  have hm₀ := h.memory
  rcases reserve_cases h.within hfits with hno | ⟨g', hyes, hwithin, hgc, hgm⟩
  · rw [hno] at hrun
    cases hrun
  · rw [hyes] at hrun
    obtain rfl : g' = g := (Prod.mk.inj hrun).2
    refine ⟨?_, ?_, hwithin, checked_set h fun _ => hassign ▸ hfits⟩
    · dsimp only
      omega
    · dsimp only
      omega

theorem accounted_releases (hphase : ∃ after, c.phase = .releasing after)
    (hreturned : ∃ b, c'.phase = .returned b) :
    Accounted ⟨releaseLocalResources c.assignment s.reserved, s.calls.set i c'⟩ := by
  obtain ⟨after, hphase⟩ := hphase
  obtain ⟨b, hreturned⟩ := hreturned
  have hheld : c.holds = true := holds_of_phase hphase
  have hfree : c'.holds = false := holds_of_phase hreturned
  obtain ⟨hgc, hgm⟩ := h.release_exact (List.mem_of_getElem? hi) hheld
  obtain ⟨hcores, hmemory⟩ := held_set hi hassign
  rw [hheld, hfree, if_neg Bool.false_ne_true, if_pos rfl] at hcores hmemory
  have hc₀ := h.cores
  have hm₀ := h.memory
  have hwc := h.within.cores
  have hwm := h.within.memory
  have hwithin : (releaseLocalResources c.assignment s.reserved).Within := ⟨by omega, by omega⟩
  refine ⟨?_, ?_, hwithin, checked_set h fun hpast => ?_⟩
  · dsimp only
    omega
  · dsimp only
    omega
  · rcases hpast with hpast | hpast
    · rw [hreturned] at hpast
      cases hpast
    · rw [hfree] at hpast
      cases hpast

theorem accounted_keeps (hholds : c'.holds = c.holds)
    (hnew : c'.phase = .reserving → Fits c.assignment) :
    Accounted ⟨s.reserved, s.calls.set i c'⟩ := by
  obtain ⟨hcores, hmemory⟩ := held_set hi hassign
  rw [hholds] at hcores hmemory
  have hc₀ := h.cores
  have hm₀ := h.memory
  refine ⟨?_, ?_, h.within, checked_set h fun hpast => ?_⟩
  · dsimp only
    omega
  · dsimp only
    omega
  · rw [hassign]
    rcases hpast with hpast | hpast
    · exact hnew hpast
    · exact h.checked c (List.mem_of_getElem? hi) (Or.inr (hholds ▸ hpast))

end OneCall

/-- One step of one call. -/
theorem accounted_step {s : ExecutorState} (h : Accounted s) {i : Nat} {c : ExecCall}
    (hi : s.calls[i]? = some c) (env : ExecEnv) :
    Accounted ⟨(c.step env s.reserved).1, s.calls.set i (c.step env s.reserved).2⟩ := by
  obtain ⟨hassign, hkind⟩ := execStep_cases env s.reserved c
  cases hkind with
  | reserves hphase hholds hrun => exact accounted_reserves h hi hassign hphase hholds hrun
  | releases hphase hreturned hrun =>
    rw [hrun]
    exact accounted_releases h hi hassign hphase hreturned
  | keeps hrun hholds hnew =>
    rw [hrun]
    exact accounted_keeps h hi hassign hholds hnew

theorem accounted_next (s : ExecutorState) (op : ExecutorOp) (h : Accounted s) :
    Accounted (executorMachine.next s op) := by
  cases op with
  | enter a hasCallback => exact accounted_enter h a hasCallback
  | step i env =>
    show Accounted (executorMachine.step s (.step i env)).1
    unfold executorMachine
    dsimp only
    cases hi : s.calls[i]? with
    | none => exact h
    | some c => exact accounted_step h hi env

/-- **The reservations balance**: after any steps of any calls, whatever the system answered, the
    counters are the sums over the calls that have reserved and not released, within the host's
    resources; the next reservation adds without wrapping, the next release subtracts in full; and
    nothing is reserved when every call has returned. -/
theorem executor_reservations_balance (ops : List ExecutorOp) :
    let s := executorMachine.run executorStart ops
    s.reserved.cores.toNat =
        ((s.calls.filter (·.holds)).map (·.assignment.requiredCores.toNat)).sum ∧
    s.reserved.memoryBytes.toNat =
        ((s.calls.filter (·.holds)).map (·.assignment.requiredMemoryBytes.toNat)).sum ∧
    s.reserved.cores ≤ vomSysInfoCollect.coresOnline ∧
    s.reserved.memoryBytes ≤ vomSysInfoCollect.ramTotalMb * 1024 * 1024 ∧
    (∀ c ∈ s.calls, c.phase = .reserving →
      (s.reserved.cores + c.assignment.requiredCores).toNat =
        s.reserved.cores.toNat + c.assignment.requiredCores.toNat ∧
      (s.reserved.memoryBytes + c.assignment.requiredMemoryBytes).toNat =
        s.reserved.memoryBytes.toNat + c.assignment.requiredMemoryBytes.toNat) ∧
    (∀ c ∈ s.calls, (∃ after, c.phase = .releasing after) →
      (releaseLocalResources c.assignment s.reserved).cores.toNat + c.assignment.requiredCores.toNat =
        s.reserved.cores.toNat ∧
      (releaseLocalResources c.assignment s.reserved).memoryBytes.toNat +
        c.assignment.requiredMemoryBytes.toNat = s.reserved.memoryBytes.toNat) ∧
    ((∀ c ∈ s.calls, ∃ b, c.phase = .returned b) → s.reserved = ⟨0, 0⟩) := by
  intro s
  have h : Accounted s := executorMachine.invariant_all Accounted accounted_next ops accounted_start
  have hfilter : (s.calls.filter fun c => decide (c.holds = true)) = s.calls.filter (·.holds) := by
    congr 1
    funext c
    exact Bool.decide_eq_true
  have hcores := h.cores
  have hmemory := h.memory
  unfold heldCores outstanding at hcores
  unfold heldMemory outstanding at hmemory
  rw [hfilter] at hcores hmemory
  refine ⟨hcores, hmemory, UInt32.le_iff_toNat_le.mpr h.within.cores,
    UInt64.le_iff_toNat_le.mpr h.within.memory, ?_, ?_, ?_⟩
  · intro c hc hphase
    exact sums_exact h.within (h.checked c hc (Or.inl hphase))
  · intro c hc ⟨after, hphase⟩
    exact h.release_exact hc (holds_of_phase hphase)
  · intro hall
    refine h.reserved_zero fun c hc => ?_
    obtain ⟨b, hb⟩ := hall c hc
    exact holds_of_phase hb

end VoidOsMerger
