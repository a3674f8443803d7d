/-
  File:      VoidOsMerger/Worker/Monitor.lean
  Subject:   THE RESOURCE MONITOR (worker/src/resource_monitor.c) AND WHERE ITS SAMPLES COME FROM.

  A sample is a heavy probe, or, within two seconds of the last one, a copy of the sample before it;
  a copy has the reserved memory taken off once more. The first sample of all is marked unavailable
  when it falls into the first two seconds, and the next one is a copy of it.

  * `Provenance` -- the latest sample and the history of the run: never measured, or measured;
  * **`freeRam_net_iff`** -- when a sample shows the measured memory less the reservation;
  * **`fresh_measured_iff`** -- when an availability that is answered with true was measured.

  `float` values are the numbers they stand for: no function computes with them.
-/
import VoidOsMerger.Base.Circular
import VoidOsMerger.Base.Run
import Mathlib.Data.Rat.Defs
import Mathlib.Data.List.Induction

namespace VoidOsMerger

/-! ## 1. Samples -/

/-- `MAX_SAMPLES` -/
def maxSamples : Nat := 10

/-- `PROBE_COOLDOWN_MS` -/
def probeCooldownMs : UInt64 := 2000

/-- `STALE_THRESHOLD_MS` -/
def staleThresholdMs : UInt64 := 10000

inductive SampleFreshness
  | fresh | stale | unavailable
  deriving DecidableEq, Repr

inductive ThermalTier
  | nominal | throttled | critical
  deriving DecidableEq, Repr

structure ResourceSample where
  timestampMs : UInt64
  status : SampleFreshness
  cpuUtilizationPct : ℚ
  effectiveCpuUnitsAvailable : UInt32
  freeRamMb : UInt64
  reclaimableRamMb : UInt64
  freeStorageMb : UInt64
  currentIoReadMbps : UInt32
  batteryPercentage : ℚ
  thermalState : ThermalTier
  deriving DecidableEq

/-- `ResourceSample sample = {0}` -/
def zeroSample : ResourceSample where
  timestampMs := 0
  status := .fresh
  cpuUtilizationPct := 0
  effectiveCpuUnitsAvailable := 0
  freeRamMb := 0
  reclaimableRamMb := 0
  freeStorageMb := 0
  currentIoReadMbps := 0
  batteryPercentage := 0
  thermalState := .nominal

/-- `head_idx` is an index of `history`. -/
structure VomMonitorContext where
  history : Vector ResourceSample maxSamples
  headIdx : Fin maxSamples
  sampleCount : UInt32
  reservedCpuUnits : UInt32
  reservedMemoryMb : UInt64
  lastHeavyProbeTimestampMs : UInt64
  deriving DecidableEq

/-- `vom_monitor_init` -/
def vomMonitorInit : VomMonitorContext where
  history := Vector.replicate maxSamples zeroSample
  headIdx := ⟨0, by decide⟩
  sampleCount := 0
  reservedCpuUnits := 0
  reservedMemoryMb := 0
  lastHeavyProbeTimestampMs := 0

/-! ## 2. Operations -/

/-- `(head_idx + 1) % MAX_SAMPLES` -/
def nextIdx (i : Fin maxSamples) : Fin maxSamples := Circular.next i

/-- `(head_idx > 0) ? (head_idx - 1) : (MAX_SAMPLES - 1)` -/
def prevIdx (i : Fin maxSamples) : Fin maxSamples := Circular.prev i

/-- The sample before `head_idx`. -/
def VomMonitorContext.latest (ctx : VomMonitorContext) : ResourceSample := ctx.history[prevIdx ctx.headIdx]

/-- `execution_cooldown_passed` -/
def VomMonitorContext.cooldownPassed (ctx : VomMonitorContext) (nowMs : UInt64) : Bool :=
  nowMs - ctx.lastHeavyProbeTimestampMs ≥ probeCooldownMs

/-- What a heavy probe writes. -/
def heavyProbe : ResourceSample :=
  { zeroSample with
    cpuUtilizationPct := 45 / 2
    freeRamMb := 4096
    reclaimableRamMb := 512
    freeStorageMb := 250000
    currentIoReadMbps := 45
    batteryPercentage := 88
    thermalState := .nominal }

/-- What is taken over from the sample before. -/
def ResourceSample.copied (last : ResourceSample) : ResourceSample :=
  { zeroSample with
    cpuUtilizationPct := last.cpuUtilizationPct
    freeRamMb := last.freeRamMb
    reclaimableRamMb := last.reclaimableRamMb
    freeStorageMb := last.freeStorageMb
    currentIoReadMbps := last.currentIoReadMbps
    batteryPercentage := last.batteryPercentage
    thermalState := last.thermalState }

/-- The end of `execute_hardware_metrics_probe`: what is reserved is taken off. -/
def VomMonitorContext.deduct (ctx : VomMonitorContext) (nowMs : UInt64) (s : ResourceSample) :
    ResourceSample :=
  let physicalCoresFree : UInt32 := 4
  { s with
    effectiveCpuUnitsAvailable :=
      if physicalCoresFree > ctx.reservedCpuUnits then physicalCoresFree - ctx.reservedCpuUnits else 0
    freeRamMb := if s.freeRamMb > ctx.reservedMemoryMb then s.freeRamMb - ctx.reservedMemoryMb else 0
    timestampMs := nowMs
    status := .fresh }

/-- `execute_hardware_metrics_probe` -/
def executeHardwareMetricsProbe (ctx : VomMonitorContext) (nowMs : UInt64) :
    VomMonitorContext × ResourceSample :=
  if ctx.cooldownPassed nowMs then
    ({ ctx with lastHeavyProbeTimestampMs := nowMs }, ctx.deduct nowMs heavyProbe)
  else if ctx.sampleCount > 0 then (ctx, ctx.deduct nowMs ctx.latest.copied)
  else (ctx, { zeroSample with status := .unavailable })

/-- `vom_monitor_record_sample` -/
def vomMonitorRecordSample (ctx : VomMonitorContext) (nowMs : UInt64) : VomMonitorContext :=
  let r := executeHardwareMetricsProbe ctx nowMs
  { r.1 with
    history := r.1.history.set r.1.headIdx r.2
    headIdx := nextIdx r.1.headIdx
    sampleCount := if r.1.sampleCount < 10 then r.1.sampleCount + 1 else r.1.sampleCount }

/-- `vom_monitor_update_reservations` -/
def vomMonitorUpdateReservations (ctx : VomMonitorContext) (cpuUnits : UInt32) (memoryMb : UInt64) :
    VomMonitorContext :=
  { ctx with reservedCpuUnits := cpuUnits, reservedMemoryMb := memoryMb }

/-- `vom_monitor_get_latest_availability`: what it returns, and `out_result` after it. -/
def vomMonitorGetLatestAvailability (ctx : VomMonitorContext) (nowMs : UInt64)
    (outResult : ResourceSample) : Bool × ResourceSample :=
  if ctx.sampleCount = 0 then (false, { outResult with status := .unavailable })
  else
    let result := ctx.latest
    let result := if nowMs - result.timestampMs > staleThresholdMs then
      { result with status := .stale } else result
    (result.status == .fresh, result)

inductive MonitorOp
  | recordSample (nowMs : UInt64)
  | updateReservations (cpuUnits : UInt32) (memoryMb : UInt64)
  | getLatestAvailability (nowMs : UInt64) (outResult : ResourceSample)
  deriving DecidableEq

/-- The monitor as a machine. -/
def monitorMachine : Machine VomMonitorContext MonitorOp (Option (Bool × ResourceSample)) where
  step ctx
    | .recordSample nowMs => (vomMonitorRecordSample ctx nowMs, none)
    | .updateReservations cpuUnits memoryMb => (vomMonitorUpdateReservations ctx cpuUnits memoryMb, none)
    | .getLatestAvailability nowMs outResult =>
      (ctx, some (vomMonitorGetLatestAvailability ctx nowMs outResult))

/-- The clock an operation is called with. -/
def MonitorOp.nowMs? : MonitorOp → Option UInt64
  | .recordSample nowMs => some nowMs
  | .updateReservations _ _ => none
  | .getLatestAvailability nowMs _ => some nowMs

/-- No operation is called with an earlier time than one before it. -/
def NonDecreasing (ops : List MonitorOp) : Prop := (ops.filterMap (·.nowMs?)).Pairwise (· ≤ ·)

instance (ops : List MonitorOp) : Decidable (NonDecreasing ops) := inferInstanceAs (Decidable (List.Pairwise _ _))

/-- The times of the samples of a run. -/
def sampleTimes (ops : List MonitorOp) : List UInt64 :=
  ops.filterMap fun
    | .recordSample nowMs => some nowMs
    | _ => none

/-- The heavy probes an operation executes. -/
def heavyProbes (ctx : VomMonitorContext) : MonitorOp → List ResourceSample
  | .recordSample nowMs => if ctx.cooldownPassed nowMs then [heavyProbe] else []
  | _ => []

/-- The heavy probes of a run from `vom_monitor_init`. -/
def probesOf (ops : List MonitorOp) : List ResourceSample :=
  monitorMachine.log heavyProbes vomMonitorInit ops

/-! ## 3. One sample -/

section Record

variable (ctx : VomMonitorContext) (nowMs : UInt64)

theorem prevIdx_nextIdx (i : Fin maxSamples) : prevIdx (nextIdx i) = i := Circular.prev_next i

/-- The sample recorded is the latest one. -/
theorem record_latest :
    (vomMonitorRecordSample ctx nowMs).latest = (executeHardwareMetricsProbe ctx nowMs).2 := by
  simp [VomMonitorContext.latest, vomMonitorRecordSample, prevIdx_nextIdx]

/-- A probe changes nothing of the monitor but the time of the last heavy one. -/
theorem probe_fst : (executeHardwareMetricsProbe ctx nowMs).1 =
    { ctx with
      lastHeavyProbeTimestampMs :=
        if ctx.cooldownPassed nowMs then nowMs else ctx.lastHeavyProbeTimestampMs } := by
  unfold executeHardwareMetricsProbe
  split
  · rfl
  · split <;> rfl

theorem record_lastProbe :
    (vomMonitorRecordSample ctx nowMs).lastHeavyProbeTimestampMs =
      if ctx.cooldownPassed nowMs then nowMs else ctx.lastHeavyProbeTimestampMs :=
  congrArg VomMonitorContext.lastHeavyProbeTimestampMs (probe_fst ctx nowMs)

theorem record_counted : (vomMonitorRecordSample ctx nowMs).sampleCount ≠ 0 := by
  have hcount : (executeHardwareMetricsProbe ctx nowMs).1.sampleCount = ctx.sampleCount := by
    rw [probe_fst]
  show (if (executeHardwareMetricsProbe ctx nowMs).1.sampleCount < 10 then _ else _) ≠ 0
  rw [hcount]
  split
  · rename_i hlt
    rw [UInt32.lt_iff_toNat_lt] at hlt
    intro hzero
    have hnat := congrArg UInt32.toNat hzero
    rw [UInt32.toNat_add] at hnat
    have hten : (10 : UInt32).toNat = 10 := rfl
    have hone : (1 : UInt32).toNat = 1 := rfl
    have hnil : (0 : UInt32).toNat = 0 := rfl
    omega
  · rename_i hge
    intro hzero
    rw [hzero] at hge
    exact hge (by decide)

/-- A sample with a heavy probe, a copy, or the unavailable one. -/
theorem record_cases :
    (ctx.cooldownPassed nowMs = true ∧
      (vomMonitorRecordSample ctx nowMs).latest = ctx.deduct nowMs heavyProbe) ∨
    (ctx.cooldownPassed nowMs = false ∧ ctx.sampleCount ≠ 0 ∧
      (vomMonitorRecordSample ctx nowMs).latest = ctx.deduct nowMs ctx.latest.copied) ∨
    (ctx.cooldownPassed nowMs = false ∧ ctx.sampleCount = 0 ∧
      (vomMonitorRecordSample ctx nowMs).latest = { zeroSample with status := .unavailable }) := by
  rw [record_latest]
  unfold executeHardwareMetricsProbe
  cases hcool : ctx.cooldownPassed nowMs with
  | true => exact Or.inl ⟨rfl, rfl⟩
  | false =>
    right
    by_cases hcount : ctx.sampleCount = 0
    · exact Or.inr ⟨rfl, hcount, by simp [hcount]⟩
    · have hpos : ctx.sampleCount > 0 := UInt32.pos_iff_ne_zero.mpr hcount
      exact Or.inl ⟨rfl, hcount, by simp [hpos]⟩

/-- What the deduction leaves of the free memory. -/
theorem deduct_freeRam (s : ResourceSample) :
    (ctx.deduct nowMs s).freeRamMb.toNat = s.freeRamMb.toNat - ctx.reservedMemoryMb.toNat := by
  show (if s.freeRamMb > ctx.reservedMemoryMb then s.freeRamMb - ctx.reservedMemoryMb else 0).toNat = _
  split
  · rename_i hgt
    exact UInt64.toNat_sub_of_le _ _ (UInt64.le_of_lt hgt)
  · rename_i hle
    rw [UInt64.not_lt, UInt64.le_iff_toNat_le] at hle
    exact (Nat.sub_eq_zero_of_le hle).symm

end Record

/-! ## 4. Where the latest sample comes from -/

/-- The readings a sample takes over from another unchanged. -/
structure SameReadings (a b : ResourceSample) : Prop where
  cpuUtilizationPct : a.cpuUtilizationPct = b.cpuUtilizationPct
  freeStorageMb : a.freeStorageMb = b.freeStorageMb
  batteryPercentage : a.batteryPercentage = b.batteryPercentage
  thermalState : a.thermalState = b.thermalState

theorem SameReadings.trans {a b c : ResourceSample} (h : SameReadings a b) (h' : SameReadings b c) :
    SameReadings a c :=
  ⟨h.1.trans h'.1, h.2.trans h'.2, h.3.trans h'.3, h.4.trans h'.4⟩

theorem sameReadings_copied (ctx : VomMonitorContext) (nowMs : UInt64) (last : ResourceSample) :
    SameReadings (ctx.deduct nowMs last.copied) last :=
  ⟨rfl, rfl, rfl, rfl⟩

/-- No heavy probe so far: all samples are from the first two seconds, the first one is unavailable
    and the others are copies of it. -/
structure Unmeasured (ctx : VomMonitorContext) (times : List UInt64) (probes : List ResourceSample) :
    Prop where
  noProbe : probes = []
  early : ∀ t ∈ times, t < probeCooldownMs
  lastProbe : ctx.lastHeavyProbeTimestampMs = 0
  blank : times ≠ [] → ctx.latest.cpuUtilizationPct = 0
  single : times.length = 1 → ctx.latest.status = .unavailable
  copied : 2 ≤ times.length → ctx.latest.status = .fresh ∧ times.getLast? = some ctx.latest.timestampMs

/-- The latest sample shows the readings of the latest heavy probe. -/
structure Measured (ctx : VomMonitorContext) (times : List UInt64) (probes : List ResourceSample) :
    Prop where
  probe : probes.getLast? = some heavyProbe
  late : ∃ t ∈ times, probeCooldownMs ≤ t
  readings : SameReadings ctx.latest heavyProbe
  freeRam : ctx.latest.freeRamMb.toNat ≤ heavyProbe.freeRamMb.toNat

/-- The latest sample and the history of the run: the times of its samples and its heavy probes. -/
structure Provenance (ctx : VomMonitorContext) (times : List UInt64) (probes : List ResourceSample) :
    Prop where
  counted : ctx.sampleCount = 0 ↔ times = []
  origin : Unmeasured ctx times probes ∨ Measured ctx times probes

section Origin

variable {ctx : VomMonitorContext} {times : List UInt64} {probes : List ResourceSample} {nowMs : UInt64}

/-- A heavy probe. -/
theorem measured_heavy (hlate : ∃ t ∈ times ++ [nowMs], probeCooldownMs ≤ t)
    (hlatest : (vomMonitorRecordSample ctx nowMs).latest = ctx.deduct nowMs heavyProbe) :
    Measured (vomMonitorRecordSample ctx nowMs) (times ++ [nowMs]) (probes ++ [heavyProbe]) where
  probe := List.getLast?_concat
  late := hlate
  readings := by
    rw [hlatest]
    exact ⟨rfl, rfl, rfl, rfl⟩
  freeRam := by
    rw [hlatest, deduct_freeRam]
    exact Nat.sub_le _ _

section Cooling

variable (h : Unmeasured ctx times probes)

include h

/-- Before the first probe the clock tells whether there is one. -/
theorem Unmeasured.cooldownPassed_iff (nowMs : UInt64) :
    ctx.cooldownPassed nowMs = true ↔ probeCooldownMs ≤ nowMs := by
  unfold VomMonitorContext.cooldownPassed
  rw [h.lastProbe, UInt64.sub_zero, decide_eq_true_iff]

/-- One more sample from the first two seconds. -/
theorem Unmeasured.stays (hcool : ctx.cooldownPassed nowMs = false) :
    (∀ t ∈ times ++ [nowMs], t < probeCooldownMs) ∧
      (vomMonitorRecordSample ctx nowMs).lastHeavyProbeTimestampMs = 0 := by
  have hno : ¬ ctx.cooldownPassed nowMs = true := by
    rw [hcool]
    exact Bool.false_ne_true
  constructor
  · rw [h.cooldownPassed_iff, UInt64.not_le] at hno
    exact List.forall_mem_append.mpr ⟨h.early, List.forall_mem_singleton.mpr hno⟩
  · rw [record_lastProbe, if_neg hno, h.lastProbe]

end Cooling

/-- A copy is made of the sample before it, whatever that shows. -/
theorem origin_copy (h : Unmeasured ctx times probes ∨ Measured ctx times probes) (htimes : times ≠ [])
    (hcool : ctx.cooldownPassed nowMs = false)
    (hlatest : (vomMonitorRecordSample ctx nowMs).latest = ctx.deduct nowMs ctx.latest.copied) :
    Unmeasured (vomMonitorRecordSample ctx nowMs) (times ++ [nowMs]) probes ∨
      Measured (vomMonitorRecordSample ctx nowMs) (times ++ [nowMs]) probes := by
  have hlen : 1 ≤ times.length := List.length_pos_iff.mpr htimes
  refine h.imp (fun hun => ?_) fun hme => ?_
  · obtain ⟨hearly, hlast⟩ := hun.stays hcool
    refine ⟨hun.noProbe, hearly, hlast, fun _ => ?_, fun hone => ?_, fun _ => ?_⟩
    · rw [hlatest]
      exact hun.blank htimes
    · rw [List.length_append, List.length_singleton] at hone
      omega
    · rw [hlatest]
      exact ⟨rfl, List.getLast?_concat⟩
  · obtain ⟨t, ht, hlate⟩ := hme.late
    refine ⟨hme.probe, ⟨t, List.mem_append_left _ ht, hlate⟩, ?_, ?_⟩
    · rw [hlatest]
      exact (sameReadings_copied ctx nowMs ctx.latest).trans hme.readings
    · rw [hlatest, deduct_freeRam]
      exact (Nat.sub_le _ _).trans hme.freeRam

/-- The first sample of all, in the first two seconds. -/
theorem origin_unavailable (h : Unmeasured ctx [] probes) (hcool : ctx.cooldownPassed nowMs = false)
    (hlatest : (vomMonitorRecordSample ctx nowMs).latest =
      { zeroSample with status := .unavailable }) :
    Unmeasured (vomMonitorRecordSample ctx nowMs) [nowMs] probes := by
  obtain ⟨hearly, hlast⟩ := h.stays hcool
  refine ⟨h.noProbe, hearly, hlast, fun _ => ?_, fun _ => ?_, fun htwo => absurd htwo (by simp)⟩
  · rw [hlatest]
    rfl
  · rw [hlatest]

/-- **One more sample.** -/
theorem provenance_record (h : Provenance ctx times probes) (nowMs : UInt64) :
    Provenance (vomMonitorRecordSample ctx nowMs) (times ++ [nowMs])
      (probes ++ heavyProbes ctx (.recordSample nowMs)) := by
  refine ⟨iff_of_false (record_counted ctx nowMs) (List.append_ne_nil_of_right_ne_nil _ nofun), ?_⟩
  have hquiet : ctx.cooldownPassed nowMs = false →
      probes ++ heavyProbes ctx (.recordSample nowMs) = probes := by
    intro hcool
    show probes ++ (if ctx.cooldownPassed nowMs then [heavyProbe] else []) = probes
    rw [hcool]
    exact List.append_nil probes
  rcases record_cases ctx nowMs with ⟨hcool, hlatest⟩ | ⟨hcool, hcount, hlatest⟩ |
    ⟨hcool, hcount, hlatest⟩
  · have hprobe : heavyProbes ctx (.recordSample nowMs) = [heavyProbe] := if_pos hcool
    rw [hprobe]
    refine Or.inr (measured_heavy ?_ hlatest)
    rcases h.origin with hun | hme
    · exact ⟨nowMs, List.mem_append_right _ List.mem_cons_self, (hun.cooldownPassed_iff nowMs).mp hcool⟩
    · obtain ⟨t, ht, hlate⟩ := hme.late
      exact ⟨t, List.mem_append_left _ ht, hlate⟩
  · rw [hquiet hcool]
    exact origin_copy h.origin (fun hnil => hcount (h.counted.mpr hnil)) hcool hlatest
  · obtain rfl : times = [] := h.counted.mp hcount
    have hun : Unmeasured ctx [] probes := h.origin.resolve_right fun hme => by
      obtain ⟨t, ht, -⟩ := hme.late
      cases ht
    rw [hquiet hcool]
    exact Or.inl (origin_unavailable hun hcool hlatest)

end Origin

/-- **Whole runs.** -/
theorem provenance_run (ops : List MonitorOp) :
    Provenance (monitorMachine.run vomMonitorInit ops) (sampleTimes ops) (probesOf ops) := by
  -- by induction from the end: the history grows at its end
  induction ops using List.reverseRecOn with
  | nil =>
    refine ⟨iff_of_true rfl rfl, Or.inl ⟨rfl, nofun, rfl, fun h => absurd rfl h, nofun, nofun⟩⟩
  | append_singleton ops op ih =>
    have hprobes : probesOf (ops ++ [op]) =
        probesOf ops ++ heavyProbes (monitorMachine.run vomMonitorInit ops) op := by
      rw [probesOf, monitorMachine.log_append]
      exact congrArg (probesOf ops ++ ·) (List.append_nil _)
    have htimes : sampleTimes (ops ++ [op]) = sampleTimes ops ++ sampleTimes [op] :=
      List.filterMap_append
    rw [Machine.run_append, hprobes, htimes]
    cases op with
    | recordSample nowMs => exact provenance_record ih nowMs
    | updateReservations cpuUnits memoryMb =>
      rw [show sampleTimes [.updateReservations cpuUnits memoryMb] = [] from rfl, List.append_nil]
      show Provenance _ _ (_ ++ [])
      rw [List.append_nil]
      exact ⟨ih.counted, ih.origin.imp (fun h => ⟨h.1, h.2, h.3, h.4, h.5, h.6⟩)
        fun h => ⟨h.1, h.2, h.3, h.4⟩⟩
    | getLatestAvailability nowMs outResult =>
      rw [show sampleTimes [.getLatestAvailability nowMs outResult] = [] from rfl, List.append_nil]
      show Provenance _ _ (_ ++ [])
      rw [List.append_nil]
      exact ih

/-! ## 5. Free memory -/

/-- **When a sample shows the measured memory less the reservation.** A run whose first sample is not
    from the first two seconds has executed a heavy probe when it records a sample; the sample shows
    the free memory of the latest one less what is reserved, exactly if it is a heavy probe itself, or
    the sample before it shows the measured memory in full, or everything is reserved. -/
theorem freeRam_net_iff (ops : List MonitorOp) (nowMs : UInt64)
    (hfirst : ∀ t ∈ (sampleTimes (ops ++ [.recordSample nowMs])).head?, probeCooldownMs ≤ t) :
    ∃ probe, (probesOf (ops ++ [.recordSample nowMs])).getLast? = some probe ∧
      ((monitorMachine.run vomMonitorInit (ops ++ [.recordSample nowMs])).latest.freeRamMb.toNat =
          probe.freeRamMb.toNat - (monitorMachine.run vomMonitorInit ops).reservedMemoryMb.toNat ↔
        (monitorMachine.run vomMonitorInit ops).cooldownPassed nowMs = true ∨
        (monitorMachine.run vomMonitorInit ops).latest.freeRamMb = probe.freeRamMb ∨
        probe.freeRamMb ≤ (monitorMachine.run vomMonitorInit ops).reservedMemoryMb) := by
  have hbefore := provenance_run ops
  have hafter := provenance_run (ops ++ [.recordSample nowMs])
  have htimes : sampleTimes (ops ++ [.recordSample nowMs]) = sampleTimes ops ++ [nowMs] :=
    List.filterMap_append
  have hrun : monitorMachine.run vomMonitorInit (ops ++ [.recordSample nowMs]) =
      vomMonitorRecordSample (monitorMachine.run vomMonitorInit ops) nowMs := Machine.run_append ..
  generalize monitorMachine.run vomMonitorInit ops = ctx at hbefore hrun ⊢
  -- an unmeasured run would have all its samples in the first two seconds
  have hmeasured : ∀ {ctx' : VomMonitorContext} {times : List UInt64} {probes : List ResourceSample},
      times ≠ [] → (∀ t ∈ times.head?, probeCooldownMs ≤ t) →
      Unmeasured ctx' times probes ∨ Measured ctx' times probes → Measured ctx' times probes := by
    intro ctx' times probes hne hlate h
    refine h.resolve_left fun hun => ?_
    obtain ⟨t, times, rfl⟩ := List.exists_cons_of_ne_nil hne
    exact UInt64.not_le.mpr (hun.early t List.mem_cons_self) (hlate t rfl)
  have hnow := hmeasured (by rw [htimes]; simp) hfirst hafter.origin
  refine ⟨heavyProbe, hnow.probe, ?_⟩
  rw [hrun]
  rcases record_cases ctx nowMs with ⟨hcool, hlatest⟩ | ⟨hcool, hcount, hlatest⟩ |
    ⟨hcool, hcount, hlatest⟩
  · rw [hlatest, deduct_freeRam]
    exact iff_of_true rfl (Or.inl hcool)
  · have hne : sampleTimes ops ≠ [] := fun hnil => hcount (hbefore.counted.mpr hnil)
    have hle : ctx.latest.freeRamMb.toNat ≤ heavyProbe.freeRamMb.toNat := by
      refine (hmeasured hne (fun t ht => hfirst t ?_) hbefore.origin).freeRam
      rw [htimes, List.head?_append, Option.mem_def.mp ht]
      rfl
    rw [hlatest, deduct_freeRam, hcool, UInt64.le_iff_toNat_le, ← UInt64.toNat_inj]
    show ctx.latest.freeRamMb.toNat - ctx.reservedMemoryMb.toNat = _ ↔ _
    simp only [Bool.false_eq_true, false_or]
    omega
  · have hnil := hbefore.counted.mp hcount
    rw [hrun, htimes, hnil] at hnow
    have hlate : probeCooldownMs ≤ nowMs := hfirst nowMs (by rw [htimes, hnil]; rfl)
    have hun := hbefore.origin.resolve_right fun hme => by
      obtain ⟨t, ht, -⟩ := hme.late
      rw [hnil] at ht
      cases ht
    rw [(hun.cooldownPassed_iff nowMs).mpr hlate] at hcool
    cases hcool

/-- A first sample at five seconds. -/
theorem first_at_five_seconds {ops : List MonitorOp} (h : (sampleTimes ops).head? = some 5000) :
    ∀ t ∈ (sampleTimes ops).head?, probeCooldownMs ≤ t := by
  intro t ht
  obtain rfl := Option.some.inj (h.symm.trans ht)
  decide

/-- The two samples of the source's test suite. -/
theorem freeRam_net_suite :
    ∃ probe, (probesOf [.recordSample 5000, .updateReservations 2 1024,
        .recordSample 5500]).getLast? = some probe ∧
      (monitorMachine.run vomMonitorInit [.recordSample 5000, .updateReservations 2 1024,
        .recordSample 5500]).latest.freeRamMb.toNat = probe.freeRamMb.toNat - 1024 := by
  obtain ⟨probe, hprobe, hiff⟩ :=
    freeRam_net_iff [.recordSample 5000, .updateReservations 2 1024] 5500
      (first_at_five_seconds rfl)
  obtain rfl : heavyProbe = probe := Option.some.inj hprobe
  exact ⟨heavyProbe, hprobe, hiff.mpr (Or.inr (Or.inl rfl))⟩

/-- **A second copy has the reservation taken off twice.** -/
theorem reservation_deducted_twice : ¬ ∀ (ops : List MonitorOp) (nowMs : UInt64),
    NonDecreasing (ops ++ [.recordSample nowMs]) →
    (∀ t ∈ (sampleTimes (ops ++ [.recordSample nowMs])).head?, probeCooldownMs ≤ t) →
    ∀ probe, (probesOf (ops ++ [.recordSample nowMs])).getLast? = some probe →
      (monitorMachine.run vomMonitorInit (ops ++ [.recordSample nowMs])).latest.freeRamMb.toNat =
        probe.freeRamMb.toNat - (monitorMachine.run vomMonitorInit ops).reservedMemoryMb.toNat := by
  intro h
  have hnet := h [.recordSample 5000, .updateReservations 2 1024, .recordSample 5500] 5600 (by decide)
    (first_at_five_seconds rfl) heavyProbe rfl
  exact absurd hnet (by decide)

/-! ## 6. Availability -/

/-- The sample shows the readings of the latest of the probes. -/
def MeasuredBy (s : ResourceSample) (probes : List ResourceSample) : Prop :=
  ∃ probe, probes.getLast? = some probe ∧ SameReadings s probe

section Availability

variable (ctx : VomMonitorContext) (nowMs : UInt64) (outResult : ResourceSample)

/-- True is answered for a latest sample that is fresh and not too old. -/
theorem availability_true_iff :
    (vomMonitorGetLatestAvailability ctx nowMs outResult).1 = true ↔
      ctx.sampleCount ≠ 0 ∧ ctx.latest.status = .fresh ∧
        ¬ nowMs - ctx.latest.timestampMs > staleThresholdMs := by
  unfold vomMonitorGetLatestAvailability
  by_cases hcount : ctx.sampleCount = 0
  · simp [hcount]
  · by_cases hstale : nowMs - ctx.latest.timestampMs > staleThresholdMs
    · simp [hcount, hstale]
    · simp [hcount, hstale]

theorem availability_readings (hcount : ctx.sampleCount ≠ 0) :
    SameReadings (vomMonitorGetLatestAvailability ctx nowMs outResult).2 ctx.latest := by
  unfold vomMonitorGetLatestAvailability
  rw [if_neg hcount]
  dsimp only
  split <;> exact ⟨rfl, rfl, rfl, rfl⟩

end Availability

/-- **When fresh means measured.** An availability that is answered with true shows the readings of a
    heavy probe of the run, the latest one, exactly if a sample has been recorded at two seconds or
    later, or not more than one has been recorded, or the last one is stale, so that the answer is
    false. -/
theorem fresh_measured_iff (ops : List MonitorOp) (nowMs : UInt64) (outResult : ResourceSample) :
    let r := vomMonitorGetLatestAvailability (monitorMachine.run vomMonitorInit ops) nowMs outResult
    (r.1 = true → MeasuredBy r.2 (probesOf ops)) ↔
      ((∃ t ∈ sampleTimes ops, probeCooldownMs ≤ t) ∨ (sampleTimes ops).length ≤ 1 ∨
        ∀ t ∈ (sampleTimes ops).getLast?, nowMs - t > staleThresholdMs) := by
  have h := provenance_run ops
  generalize monitorMachine.run vomMonitorInit ops = ctx at h ⊢
  dsimp only
  rw [availability_true_iff]
  rcases h.origin with hun | hme
  · have hnever : ∀ s, ¬ MeasuredBy s (probesOf ops) := by
      rintro s ⟨probe, hprobe, -⟩
      rw [hun.noProbe] at hprobe
      cases hprobe
    have hearly : ¬ ∃ t ∈ sampleTimes ops, probeCooldownMs ≤ t := fun ⟨t, ht, hlate⟩ =>
      UInt64.not_le.mpr (hun.early t ht) hlate
    by_cases hfew : (sampleTimes ops).length ≤ 1
    · -- no sample, or the unavailable one
      refine iff_of_true (fun ⟨hcount, hfresh, _⟩ => ?_) (Or.inr (Or.inl hfew))
      have hlen : 0 < (sampleTimes ops).length :=
        List.length_pos_iff.mpr fun hnil => hcount (h.counted.mpr hnil)
      rw [hun.single (by omega)] at hfresh
      cases hfresh
    · obtain ⟨hfresh, hlast⟩ := hun.copied (by omega)
      have hcount : ctx.sampleCount ≠ 0 := fun hzero => hfew (by rw [h.counted.mp hzero]; exact Nat.zero_le 1)
      by_cases hstale : nowMs - ctx.latest.timestampMs > staleThresholdMs
      · refine iff_of_true (fun htrue => absurd hstale htrue.2.2) (Or.inr (Or.inr fun t ht => ?_))
        obtain rfl := Option.some.inj (hlast.symm.trans ht)
        exact hstale
      · refine iff_of_false (fun hall => hnever _ (hall ⟨hcount, hfresh, hstale⟩)) ?_
        rintro (hlate | hone | hall)
        · exact hearly hlate
        · exact hfew hone
        · exact hstale (hall _ hlast)
  · refine iff_of_true (fun ⟨hcount, _, _⟩ => ⟨heavyProbe, hme.probe, ?_⟩) (Or.inl hme.late)
    exact (availability_readings ctx nowMs outResult hcount).trans hme.readings

/-- **A copy of the unavailable sample is fresh**: nothing has been measured. -/
theorem fresh_without_probe : ¬ ∀ (ops : List MonitorOp) (nowMs : UInt64) (outResult : ResourceSample),
    NonDecreasing (ops ++ [.getLatestAvailability nowMs outResult]) →
    (vomMonitorGetLatestAvailability (monitorMachine.run vomMonitorInit ops) nowMs outResult).1 = true →
    MeasuredBy (vomMonitorGetLatestAvailability (monitorMachine.run vomMonitorInit ops) nowMs
      outResult).2 (probesOf ops) := by
  intro h
  obtain ⟨probe, hprobe, -⟩ := h [.recordSample 500, .recordSample 600] 700 zeroSample (by decide)
    (by decide)
  have hnone : probesOf [.recordSample 500, .recordSample 600] = [] := rfl
  rw [hnone] at hprobe
  cases hprobe

end VoidOsMerger
