/-
  File:      VoidOsMerger/Worker/SampleRing.lean
  Subject:   THE RING OF THE RESOURCE MONITOR AND THE SAMPLES RECORDED IN IT
             (worker/src/resource_monitor.c).

  * `SampleRing` -- the ring is the circular buffer of `Base/Circular.lean` after the samples of the
    run, and `sample_count` counts them up to the size of the ring;
  * `sampleRing_run` -- this holds after every run;
  * **`sample_ring_holds_history`** -- head, count, the ring read backwards, and the sample both readers
    of the latest one see.
-/
import VoidOsMerger.Base.Circular
import VoidOsMerger.Worker.Monitor

namespace VoidOsMerger

/-- The sample an operation records. -/
def recordedBy (ctx : VomMonitorContext) : MonitorOp → List ResourceSample
  | .recordSample nowMs => [(executeHardwareMetricsProbe ctx nowMs).2]
  | _ => []

/-- The samples of a run from `vom_monitor_init`, in order. -/
def recordedSamples (ops : List MonitorOp) : List ResourceSample :=
  monitorMachine.log recordedBy vomMonitorInit ops

/-- What `vom_monitor_get_latest_availability` makes of a sample it has read. -/
def ResourceSample.shownAt (sample : ResourceSample) (nowMs : UInt64) : ResourceSample :=
  if nowMs - sample.timestampMs > staleThresholdMs then { sample with status := .stale } else sample

/-! ## 1. The ring after any run -/

structure SampleRing (ctx : VomMonitorContext) (recorded : List ResourceSample) : Prop where
  ring : Circular.Holds ctx.history ctx.headIdx recorded
  counted : ctx.sampleCount.toNat = min recorded.length maxSamples

theorem sampleRing_init : SampleRing vomMonitorInit [] where
  ring := Circular.holds_nil _ rfl
  counted := rfl

/-- The three writes of `vom_monitor_record_sample` to the ring. -/
theorem record_ring (ctx : VomMonitorContext) (nowMs : UInt64) :
    (vomMonitorRecordSample ctx nowMs).history =
        ctx.history.set ctx.headIdx (executeHardwareMetricsProbe ctx nowMs).2 ∧
      (vomMonitorRecordSample ctx nowMs).headIdx = Circular.next ctx.headIdx ∧
      (vomMonitorRecordSample ctx nowMs).sampleCount =
        if ctx.sampleCount < 10 then ctx.sampleCount + 1 else ctx.sampleCount := by
  simp [vomMonitorRecordSample, probe_fst, nextIdx]

theorem sampleRing_record {ctx : VomMonitorContext} {recorded : List ResourceSample}
    (h : SampleRing ctx recorded) (nowMs : UInt64) :
    SampleRing (vomMonitorRecordSample ctx nowMs)
      (recorded ++ [(executeHardwareMetricsProbe ctx nowMs).2]) := by
  obtain ⟨hhistory, hhead, hcount⟩ := record_ring ctx nowMs
  constructor
  · rw [hhistory, hhead]
    exact h.ring.push _
  · have hcounted := h.counted
    have hten : (10 : UInt32).toNat = 10 := rfl
    have hone : (1 : UInt32).toNat = 1 := rfl
    rw [hcount, List.length_append, List.length_singleton]
    unfold maxSamples at hcounted ⊢
    split
    · rename_i hlt
      rw [UInt32.lt_iff_toNat_lt] at hlt
      have hsucc : (ctx.sampleCount + 1).toNat = ctx.sampleCount.toNat + 1 := by
        rw [UInt32.toNat_add]
        exact Nat.mod_eq_of_lt (by omega)
      omega
    · rename_i hge
      rw [UInt32.lt_iff_toNat_lt] at hge
      omega

/-- **Every operation keeps the ring and the samples recorded in step.** -/
theorem sampleRing_next (ctx : VomMonitorContext) (op : MonitorOp) (recorded : List ResourceSample)
    (h : SampleRing ctx recorded) :
    SampleRing (monitorMachine.next ctx op) (recorded ++ recordedBy ctx op) := by
  cases op with
  | recordSample nowMs => exact sampleRing_record h nowMs
  | updateReservations cpuUnits memoryMb =>
    rw [recordedBy, List.append_nil]
    · exact ⟨h.ring, h.counted⟩
    · simp
  | getLatestAvailability nowMs outResult =>
    rw [recordedBy, List.append_nil]
    · exact h
    · simp

theorem sampleRing_run (ops : List MonitorOp) :
    SampleRing (monitorMachine.run vomMonitorInit ops) (recordedSamples ops) :=
  monitorMachine.invariant_log recordedBy SampleRing (fun ctx op recorded h _ => sampleRing_next ctx op recorded h)
    sampleRing_init (monitorMachine.legal_true vomMonitorInit ops)

/-- One sample is recorded for each call of `vom_monitor_record_sample`. -/
theorem length_recorded (ctx : VomMonitorContext) (ops : List MonitorOp) :
    (monitorMachine.log recordedBy ctx ops).length = (sampleTimes ops).length := by
  induction ops generalizing ctx with
  | nil => rfl
  | cons op ops ih =>
    rw [Machine.log, List.length_append, ih]
    cases op with
    | recordSample nowMs => exact Nat.add_comm _ _
    | updateReservations cpuUnits memoryMb => exact Nat.zero_add _
    | getLatestAvailability nowMs outResult => exact Nat.zero_add _

/-! ## 2. What the readers of the latest sample see -/

section Readers

variable {ctx : VomMonitorContext} {recorded : List ResourceSample} {last : ResourceSample}
  (h : SampleRing ctx recorded) (hlast : recorded.getLast? = some last)

include h hlast

theorem SampleRing.latest_eq : ctx.latest = last := h.ring.latest hlast

theorem SampleRing.counted_pos : ctx.sampleCount ≠ 0 := by
  have hlen : 0 < recorded.length := by
    obtain ⟨before, rfl⟩ := List.getLast?_eq_some_iff.mp hlast
    simp
  have hcounted := h.counted
  intro hzero
  rw [hzero] at hcounted
  have hmin : min recorded.length maxSamples = 0 := hcounted.symm
  unfold maxSamples at hmin
  omega

theorem SampleRing.availability (nowMs : UInt64) (outResult : ResourceSample) :
    vomMonitorGetLatestAvailability ctx nowMs outResult =
      ((last.shownAt nowMs).status == .fresh, last.shownAt nowMs) := by
  unfold vomMonitorGetLatestAvailability
  rw [if_neg (h.counted_pos hlast), h.latest_eq hlast]
  rfl

theorem SampleRing.cooled_probe {nowMs : UInt64} (hcool : ctx.cooldownPassed nowMs = false) :
    executeHardwareMetricsProbe ctx nowMs = (ctx, ctx.deduct nowMs last.copied) := by
  have hpos : ctx.sampleCount > 0 := UInt32.pos_iff_ne_zero.mpr (h.counted_pos hlast)
  unfold executeHardwareMetricsProbe
  rw [hcool, if_neg Bool.false_ne_true, if_pos hpos, h.latest_eq hlast]

end Readers

/-- **The ring is the end of the history.** After any run with `n` calls of
    `vom_monitor_record_sample` the head is at `n` modulo the size of the ring, the count is `n` up to
    that size, and the ring read backwards from the head gives the latest samples, newest first. With a
    sample recorded, `vom_monitor_get_latest_availability` and a probe within the cool-down both read
    the one recorded last. -/
theorem sample_ring_holds_history (ops : List MonitorOp) :
    let ctx := monitorMachine.run vomMonitorInit ops
    let n := (sampleTimes ops).length
    (recordedSamples ops).length = n ∧
    ctx.headIdx.val = n % maxSamples ∧
    ctx.sampleCount.toNat = min n maxSamples ∧
    Circular.readBack ctx.history (min n maxSamples) ctx.headIdx =
      (recordedSamples ops).reverse.take (min n maxSamples) ∧
    (0 < n → ∃ last, (recordedSamples ops).getLast? = some last ∧
      (∀ nowMs outResult, vomMonitorGetLatestAvailability ctx nowMs outResult =
        ((last.shownAt nowMs).status == .fresh, last.shownAt nowMs)) ∧
      ∀ nowMs, ctx.cooldownPassed nowMs = false →
        executeHardwareMetricsProbe ctx nowMs = (ctx, ctx.deduct nowMs last.copied)) := by
  intro ctx n
  have hring : SampleRing ctx (recordedSamples ops) := sampleRing_run ops
  have hlen : (recordedSamples ops).length = n := length_recorded vomMonitorInit ops
  refine ⟨hlen, hlen ▸ hring.ring.position, hlen ▸ hring.counted, ?_, ?_⟩
  · exact hring.ring.recent _ (hlen ▸ Nat.le_refl _)
  · intro hpos
    have hne : recordedSamples ops ≠ [] := List.ne_nil_of_length_pos (hlen ▸ hpos)
    have hlast := List.getLast?_eq_some_getLast hne
    exact ⟨_, hlast, hring.availability hlast, fun nowMs => hring.cooled_probe hlast⟩

end VoidOsMerger
