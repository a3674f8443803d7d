/-
  File:      VoidOsMerger/Agent/Heartbeat.lean
  Subject:   THE CPU UTILISATION IN THE AGENT'S HEARTBEAT (agent/src/heartbeat.c).

  The counters of `/proc/stat` are `unsigned long long`, and so are the sums and differences taken of
  them. The difference of the two differences is the growth of the counters that are not idle, modulo
  `2^64`: it exceeds the growth of all counters as soon as one of the two groups falls. The quotient is
  taken over the rationals.

  * `calculateCpuPercentage_eq`, `busyDelta_le_iff` -- the quotient, and when its numerator is no more
    than its denominator;
  * **`cpu_percentage_iff`** -- when the result is a percentage;
  * `heartbeats_iff` -- when all heartbeats of a run show one.
-/
import VoidOsMerger.Base.Run
import Mathlib.Algebra.Order.Field.Rat
import Mathlib.Tactic.Linarith
import Mathlib.Tactic.NormNum
import Mathlib.Tactic.Positivity

namespace VoidOsMerger

/-! ## 1. Samples and the percentage -/

structure CpuTicks where
  user : UInt64
  nice : UInt64
  system : UInt64
  idle : UInt64
  iowait : UInt64
  irq : UInt64
  softirq : UInt64
  steal : UInt64
  deriving DecidableEq, Repr

/-- `calculate_cpu_percentage` -/
def calculateCpuPercentage (prev curr : CpuTicks) : ℚ :=
  let prevIdle := prev.idle + prev.iowait
  let currIdle := curr.idle + curr.iowait
  let prevNonIdle := prev.user + prev.nice + prev.system + prev.irq + prev.softirq + prev.steal
  let currNonIdle := curr.user + curr.nice + curr.system + curr.irq + curr.softirq + curr.steal
  let prevTotal := prevIdle + prevNonIdle
  let currTotal := currIdle + currNonIdle
  if currTotal ≤ prevTotal then 0
  else
    let totalDelta := currTotal - prevTotal
    let idleDelta := currIdle - prevIdle
    ((totalDelta - idleDelta).toNat : ℚ) / totalDelta.toNat * 100

/-- The loop of `main` after its first sample: a heartbeat with each sample, and one with 0.0 where
    `sample_cpu_ticks` fails. -/
def heartbeatMachine : Machine CpuTicks (Option CpuTicks) ℚ where
  step prevTicks
    | some currTicks => (currTicks, calculateCpuPercentage prevTicks currTicks)
    | none => (prevTicks, 0)

/-! ## 2. What the counters count -/

/-- All counters are below `2^60`. -/
def CpuTicks.Small (t : CpuTicks) : Prop :=
  (t.user.toNat < 2 ^ 60 ∧ t.nice.toNat < 2 ^ 60 ∧ t.system.toNat < 2 ^ 60 ∧ t.idle.toNat < 2 ^ 60) ∧
    t.iowait.toNat < 2 ^ 60 ∧ t.irq.toNat < 2 ^ 60 ∧ t.softirq.toNat < 2 ^ 60 ∧ t.steal.toNat < 2 ^ 60

instance (t : CpuTicks) : Decidable t.Small := inferInstanceAs (Decidable (_ ∧ _))

/-- The ticks without work. -/
def CpuTicks.idleTicks (t : CpuTicks) : Nat := t.idle.toNat + t.iowait.toNat

/-- The ticks with work. -/
def CpuTicks.busyTicks (t : CpuTicks) : Nat :=
  t.user.toNat + t.nice.toNat + t.system.toNat + t.irq.toNat + t.softirq.toNat + t.steal.toNat

/-- Neither the ticks with work nor those without have fallen. -/
def GrowsTo (prev curr : CpuTicks) : Prop :=
  prev.idleTicks ≤ curr.idleTicks ∧ prev.busyTicks ≤ curr.busyTicks

/-- No more ticks in all. -/
def StandsStill (prev curr : CpuTicks) : Prop :=
  curr.idleTicks + curr.busyTicks ≤ prev.idleTicks + prev.busyTicks

instance (prev curr : CpuTicks) : Decidable (GrowsTo prev curr) := inferInstanceAs (Decidable (_ ∧ _))

instance (prev curr : CpuTicks) : Decidable (StandsStill prev curr) :=
  inferInstanceAs (Decidable (_ ≤ _))

/-- Small counters are added without overflow. -/
theorem CpuTicks.Small.sums {t : CpuTicks} (h : t.Small) :
    (t.idle + t.iowait).toNat = t.idleTicks ∧
      (t.user + t.nice + t.system + t.irq + t.softirq + t.steal).toNat = t.busyTicks ∧
      t.idleTicks < 2 ^ 61 ∧ t.busyTicks < 6 * 2 ^ 60 := by
  obtain ⟨⟨huser, hnice, hsystem, hidle⟩, hiowait, hirq, hsoftirq, hsteal⟩ := h
  unfold CpuTicks.idleTicks CpuTicks.busyTicks
  simp only [UInt64.toNat_add]
  omega

section Deltas

variable {prev curr : CpuTicks} (hprev : prev.Small) (hcurr : curr.Small)

include hprev hcurr

/-- **The percentage from the counters as numbers**, the numerator modulo `2^64`. -/
theorem calculateCpuPercentage_eq : calculateCpuPercentage prev curr =
    if StandsStill prev curr then 0
    else (((curr.busyTicks + (2 ^ 64 - prev.busyTicks)) % 2 ^ 64 : Nat) : ℚ) /
      (curr.idleTicks + curr.busyTicks - (prev.idleTicks + prev.busyTicks) : Nat) * 100 := by
  obtain ⟨hprevIdle, hprevBusy, hprevIdleLt, hprevBusyLt⟩ := hprev.sums
  obtain ⟨hcurrIdle, hcurrBusy, hcurrIdleLt, hcurrBusyLt⟩ := hcurr.sums
  have hprevTotal : (prev.idle + prev.iowait +
      (prev.user + prev.nice + prev.system + prev.irq + prev.softirq + prev.steal)).toNat =
      prev.idleTicks + prev.busyTicks := by
    rw [UInt64.toNat_add, hprevIdle, hprevBusy]
    omega
  have hcurrTotal : (curr.idle + curr.iowait +
      (curr.user + curr.nice + curr.system + curr.irq + curr.softirq + curr.steal)).toNat =
      curr.idleTicks + curr.busyTicks := by
    rw [UInt64.toNat_add, hcurrIdle, hcurrBusy]
    omega
  unfold calculateCpuPercentage
  simp only [UInt64.le_iff_toNat_le, UInt64.toNat_sub, hprevTotal, hcurrTotal, hprevIdle, hcurrIdle]
  by_cases hstill : StandsStill prev curr
  · rw [if_pos hstill]
    exact if_pos hstill
  · have hgrow : ¬ curr.idleTicks + curr.busyTicks ≤ prev.idleTicks + prev.busyTicks := hstill
    rw [if_neg hstill, if_neg hgrow]
    have htotal : (2 ^ 64 - (prev.idleTicks + prev.busyTicks) + (curr.idleTicks + curr.busyTicks)) %
        2 ^ 64 = curr.idleTicks + curr.busyTicks - (prev.idleTicks + prev.busyTicks) := by
      omega
    have hbusy : (2 ^ 64 - (2 ^ 64 - prev.idleTicks + curr.idleTicks) % 2 ^ 64 +
        (curr.idleTicks + curr.busyTicks - (prev.idleTicks + prev.busyTicks))) % 2 ^ 64 =
        (curr.busyTicks + (2 ^ 64 - prev.busyTicks)) % 2 ^ 64 := by
      omega
    rw [htotal, hbusy]

/-- The numerator is at most the denominator exactly when no group of counters falls. -/
theorem busyDelta_le_iff (hgrow : ¬ StandsStill prev curr) :
    (curr.busyTicks + (2 ^ 64 - prev.busyTicks)) % 2 ^ 64 ≤
        curr.idleTicks + curr.busyTicks - (prev.idleTicks + prev.busyTicks) ↔
      GrowsTo prev curr := by
  obtain ⟨-, -, hprevIdleLt, hprevBusyLt⟩ := hprev.sums
  obtain ⟨-, -, hcurrIdleLt, hcurrBusyLt⟩ := hcurr.sums
  unfold StandsStill at hgrow
  unfold GrowsTo
  omega

end Deltas

/-! ## 3. Percentages -/

/-- A value a heartbeat may show. -/
def IsPercentage (x : ℚ) : Prop := 0 ≤ x ∧ x ≤ 100

theorem isPercentage_quotient_iff (a : Nat) {b : Nat} (hb : 0 < b) :
    IsPercentage ((a : ℚ) / b * 100) ↔ a ≤ b := by
  have hpos : (0 : ℚ) < b := by exact_mod_cast hb
  have hnonneg : (0 : ℚ) ≤ (a : ℚ) / b * 100 := by positivity
  unfold IsPercentage
  rw [and_iff_right hnonneg]
  constructor
  · intro h
    have hquot : (a : ℚ) / b ≤ 1 := by linarith
    rw [div_le_one hpos] at hquot
    exact_mod_cast hquot
  · intro h
    have hquot : (a : ℚ) / b ≤ 1 := (div_le_one hpos).mpr (by exact_mod_cast h)
    linarith

theorem isPercentage_zero : IsPercentage 0 := ⟨le_refl _, by norm_num⟩

theorem isPercentage_iff {prev curr : CpuTicks} (hprev : prev.Small) (hcurr : curr.Small) :
    IsPercentage (calculateCpuPercentage prev curr) ↔
      StandsStill prev curr ∨ GrowsTo prev curr := by
  rw [calculateCpuPercentage_eq hprev hcurr]
  by_cases hstill : StandsStill prev curr
  · rw [if_pos hstill]
    exact iff_of_true isPercentage_zero (Or.inl hstill)
  · have hpos : 0 < curr.idleTicks + curr.busyTicks - (prev.idleTicks + prev.busyTicks) := by
      unfold StandsStill at hstill
      omega
    rw [if_neg hstill, isPercentage_quotient_iff _ hpos, busyDelta_le_iff hprev hcurr hstill]
    exact ⟨Or.inr, fun h => h.resolve_left hstill⟩

/-- **When the utilisation is a percentage.** With all counters below `2^60` the result is between 0
    and 100 exactly when there are no more ticks in all than before, or neither the idle ticks nor the
    others have fallen. -/
theorem cpu_percentage_iff (prev curr : CpuTicks) (hprev : prev.Small) (hcurr : curr.Small) :
    (0 ≤ calculateCpuPercentage prev curr ∧ calculateCpuPercentage prev curr ≤ 100) ↔
      StandsStill prev curr ∨ GrowsTo prev curr :=
  isPercentage_iff hprev hcurr

/-- A sample from a machine that has idled half of its time. -/
def halfIdle : CpuTicks := ⟨50, 0, 0, 40, 10, 0, 0, 0⟩

theorem half_idle_percentage :
    0 ≤ calculateCpuPercentage ⟨0, 0, 0, 0, 0, 0, 0, 0⟩ halfIdle ∧
      calculateCpuPercentage ⟨0, 0, 0, 0, 0, 0, 0, 0⟩ halfIdle ≤ 100 :=
  (cpu_percentage_iff _ _ (by decide) (by decide)).mpr (Or.inr (by decide))

/-- **An iowait counter that falls.** Ten ticks fewer there and twenty more of `user` show 200 %. -/
theorem falling_iowait_exceeds :
    ¬ ∀ prev curr : CpuTicks, prev.Small → curr.Small →
      0 ≤ calculateCpuPercentage prev curr ∧ calculateCpuPercentage prev curr ≤ 100 := by
  intro h
  have hresult : calculateCpuPercentage halfIdle ⟨70, 0, 0, 40, 0, 0, 0, 0⟩ = 200 := by
    show ((20 : Nat) : ℚ) / (10 : Nat) * 100 = 200
    norm_num
  have hle := (h halfIdle ⟨70, 0, 0, 40, 0, 0, 0, 0⟩ (by decide) (by decide)).2
  rw [hresult] at hle
  norm_num at hle

/-- **The heartbeats of a run.** All of them show a percentage exactly when, from each sample to the
    next one that succeeds, the ticks stand still or neither group of them falls. -/
theorem heartbeats_iff {first : CpuTicks} (hfirst : first.Small) {samples : List (Option CpuTicks)}
    (hsmall : ∀ sample ∈ samples, ∀ curr ∈ sample, curr.Small) :
    (∀ cpuPct ∈ heartbeatMachine.answers first samples, IsPercentage cpuPct) ↔
      heartbeatMachine.Legal (fun prev sample => ∀ curr ∈ sample, StandsStill prev curr ∨ GrowsTo prev curr)
        first samples := by
  rw [heartbeatMachine.answers_iff_legal]
  -- the sample before is the last one that succeeded, and so it is small
  refine heartbeatMachine.legal_congr CpuTicks.Small (fun prev sample hprev hsample => ?_)
    (fun prev sample hprev hsample _ => ?_) hfirst (heartbeatMachine.legal_of_forall first hsmall)
  · cases sample with
    | none => exact iff_of_true isPercentage_zero (fun _ h => nomatch h)
    | some curr =>
      refine (isPercentage_iff hprev (hsample curr rfl)).trans ⟨fun h c hc => ?_, fun h => h curr rfl⟩
      rwa [← Option.some.inj hc]
  · cases sample with
    | none => exact hprev
    | some curr => exact hsample curr rfl

end VoidOsMerger
