/-
  File:      VoidOsMerger/Worker/Stream.lean
  Subject:   THE STATUSES A CALLBACK HEARS, ONE BY ONE (worker/src/executor.c).

  Up to its end a call of `vom_executor_run` passes statuses to its callback that depend on nothing but
  how many came before (`openStatus`): ACCEPTED, STARTED, then PROGRESS in steps of ten percent up to
  ninety. The last status carries the outcome.

  * `ExecCall.Streams` -- by the phase of a call, what it has reported and what its status is;
  * `streams_poll`, `streams_step` -- an iteration of the polling loop, and any step;
  * **`callback_hears_stream`** -- under any interleaving of any calls.
-/
import VoidOsMerger.Worker.Reports

namespace VoidOsMerger

/-! ## 1. Streams -/

/-- The progress after `n` open statuses: the first two say nothing of it. -/
def percentAfter (n : Nat) : Nat := min (10 * (n - 2)) 90

/-- The `n`-th status before the end. -/
def openStatus (chunkId : UInt64) (n : Nat) : ChunkExecStatus :=
  { ChunkExecStatus.zero chunkId with
    state := match n with
      | 0 => .accepted
      | 1 => .started
      | _ => .progress
    progressPercentage := percentAfter (n + 1) }

/-- The first `n` statuses before the end. -/
def openStatuses (chunkId : UInt64) (n : Nat) : List ChunkExecStatus :=
  (List.range n).map (openStatus chunkId)

theorem openStatuses_succ (chunkId : UInt64) (n : Nat) :
    openStatuses chunkId n ++ [openStatus chunkId n] = openStatuses chunkId (n + 1) := by
  unfold openStatuses
  rw [List.range_succ, List.map_append, List.map_singleton]

/-- A last status after `n` open ones: one hundred percent, with exit code 0, no message and the hash,
    exactly when it is COMPLETED; else the progress stays where it was. -/
structure EndStatus (chunkId : UInt64) (n : Nat) (last : ChunkExecStatus) : Prop where
  chunk : last.chunkId = chunkId
  terminal : last.state.terminal = true
  percent : last.progressPercentage = if last.state = .completed then 100 else percentAfter n
  completed : last.state = .completed → last.exitCode = 0 ∧ last.errorMessage = "" ∧
    last.resultSha256 = computeDeterministicIntegrity (some [])
  uncompleted : last.state ≠ .completed → last.resultSha256 = ""

/-- Open statuses, and perhaps a last one. -/
def StatusStream (chunkId : UInt64) (reports : List ChunkExecStatus) : Prop :=
  ∃ n, reports = openStatuses chunkId n ∨
    ∃ last, reports = openStatuses chunkId n ++ [last] ∧ EndStatus chunkId n last

theorem percentAfter_le (n : Nat) : percentAfter n ≤ 90 := Nat.min_le_right _ _

theorem percentAfter_mono {m n : Nat} (h : m ≤ n) : percentAfter m ≤ percentAfter n := by
  unfold percentAfter
  omega

/-- **Along a stream the progress never falls**, and one hundred percent means COMPLETED. -/
theorem StatusStream.progress {chunkId : UInt64} {reports : List ChunkExecStatus}
    (h : StatusStream chunkId reports) :
    (reports.map (·.progressPercentage)).Pairwise (· ≤ ·) ∧
      ∀ status ∈ reports, status.progressPercentage = 100 ↔ status.state = .completed := by
  obtain ⟨n, h⟩ := h
  have hopen : ((openStatuses chunkId n).map (·.progressPercentage)).Pairwise (· ≤ ·) := by
    unfold openStatuses
    rw [List.map_map]
    refine List.pairwise_map.mpr (List.pairwise_lt_range.imp fun hlt => ?_)
    exact percentAfter_mono (Nat.succ_le_succ (Nat.le_of_lt hlt))
  have hbelow : ∀ status ∈ openStatuses chunkId n, status.progressPercentage ≤ percentAfter n ∧
      status.state ≠ .completed := by
    intro status hstatus
    obtain ⟨i, hi, rfl⟩ := List.mem_map.mp hstatus
    refine ⟨percentAfter_mono (List.mem_range.mp hi), ?_⟩
    rcases i with _ | _ | i <;> exact ExecState.noConfusion
  have hnot : ∀ status ∈ openStatuses chunkId n,
      status.progressPercentage = 100 ↔ status.state = .completed := fun status hstatus => by
    obtain ⟨hle, hne⟩ := hbelow status hstatus
    have := percentAfter_le n
    exact iff_of_false (by omega) hne
  rcases h with rfl | ⟨last, rfl, hlast⟩
  · exact ⟨hopen, hnot⟩
  · have hpercent := hlast.percent
    have hle := percentAfter_le n
    rw [List.map_append, List.pairwise_append]
    refine ⟨⟨hopen, List.pairwise_singleton _ _, fun a ha b hb => ?_⟩, fun status hstatus => ?_⟩
    · obtain ⟨status, hstatus, rfl⟩ := List.mem_map.mp ha
      rw [List.map_singleton, List.mem_singleton] at hb
      have := (hbelow status hstatus).1
      split at hpercent <;> omega
    · rcases List.mem_append.mp hstatus with hstatus | hstatus
      · exact hnot status hstatus
      · rw [List.mem_singleton.mp hstatus]
        by_cases hdone : last.state = .completed
        · rw [if_pos hdone] at hpercent
          exact iff_of_true hpercent hdone
        · rw [if_neg hdone] at hpercent
          exact iff_of_false (by omega) hdone

/-! ## 2. One call -/

/-- What a call with a callback has reported, and its status, by its phase. -/
def ExecCall.Streams (c : ExecCall) : Prop :=
  let id := c.assignment.chunkId
  match c.phase with
  | .validating => c.reports = openStatuses id 0 ∧ c.status = .zero id
  | .reserving | .piping | .releasing .pipeFailed =>
    c.reports = openStatuses id 1 ∧ c.status = openStatus id 0
  | .forking | .releasing .forkFailed => c.reports = openStatuses id 2 ∧ c.status = openStatus id 1
  | .polling _ => ∃ k, c.reports = openStatuses id (k + 2) ∧
      c.status = { ChunkExecStatus.zero id with
        state := .progress, progressPercentage := percentAfter (k + 2) }
  | .releasing .finished | .returned _ => StatusStream id c.reports

section OneCall

variable {c : ExecCall}

theorem streams_of_phase {phase : ExecPhase} (hphase : c.phase = phase) :
    c.Streams = ExecCall.Streams { c with phase := phase } := by
  rw [← hphase]

/-- A failure reported after open statuses. -/
theorem stream_fail {id : UInt64} {n : Nat} {status : ChunkExecStatus} (hid : status.chunkId = id)
    (hpercent : status.progressPercentage = percentAfter n) (hsha : status.resultSha256 = "")
    (message : String) : StatusStream id (openStatuses id n ++ [status.fail message]) :=
  ⟨n, Or.inr ⟨_, rfl, hid, rfl, hpercent, nofun, fun _ => hsha⟩⟩

/-- What a status has when the loop ends with it, before the hash. -/
structure LoopOutcome (id : UInt64) (n : Nat) (status : ChunkExecStatus) : Prop where
  chunk : status.chunkId = id
  terminal : status.state.terminal = true
  percent : status.progressPercentage = if status.state = .completed then 100 else percentAfter n
  completed : status.state = .completed → status.exitCode = 0 ∧ status.errorMessage = ""
  unhashed : status.resultSha256 = ""

/-- The tail of the function: the hash, and the last report. -/
theorem stream_conclude (hcb : c.hasCallback = true) {n : Nat}
    (hreports : c.reports = openStatuses c.assignment.chunkId n) {status : ChunkExecStatus}
    (hstatus : LoopOutcome c.assignment.chunkId n status) : (c.conclude status).Streams := by
  unfold ExecCall.conclude
  dsimp only
  refine ⟨n, Or.inr ⟨_, (report_reports hcb _ c.phase).trans (congrArg (· ++ _) hreports), ?_⟩⟩
  by_cases hdone : status.state = .completed
  · rw [if_pos hdone]
    exact ⟨hstatus.chunk, hstatus.terminal, hstatus.percent,
      fun h => ⟨(hstatus.completed h).1, (hstatus.completed h).2, rfl⟩, fun h => absurd hdone h⟩
  · rw [if_neg hdone]
    exact ⟨hstatus.chunk, hstatus.terminal, hstatus.percent, fun h => absurd h hdone,
      fun _ => hstatus.unhashed⟩

/-- The status of the polling loop after `n` open statuses. -/
def pollStatus (id : UInt64) (n : Nat) : ChunkExecStatus :=
  { ChunkExecStatus.zero id with state := .progress, progressPercentage := percentAfter n }

theorem pollStatus_fail (id : UInt64) (n : Nat) (message : String) :
    LoopOutcome id n ((pollStatus id n).fail message) :=
  ⟨rfl, rfl, rfl, nofun, rfl⟩

/-- Output of the child moves the status one open status on. -/
theorem pollStatus_advance (id : UInt64) (k : Nat) :
    (pollStatus id (k + 2)).advance = openStatus id (k + 2) ∧
      openStatus id (k + 2) = pollStatus id (k + 3) := by
  refine ⟨?_, rfl⟩
  have hpercent : (if percentAfter (k + 2) < 90 then percentAfter (k + 2) + 10
      else percentAfter (k + 2)) = percentAfter (k + 3) := by
    unfold percentAfter
    split <;> omega
  exact congrArg (fun percent => { pollStatus id (k + 2) with progressPercentage := percent }) hpercent

/-- What `waitpid` answers leaves the status of the loop alone, or gives the outcome. -/
theorem pollStatus_reap (id : UInt64) (n : Nat) (wait : WaitOutcome) :
    (pollStatus id n).reap wait = (pollStatus id n, true) ∨
      ∃ status, (pollStatus id n).reap wait = (status, false) ∧ LoopOutcome id n status := by
  cases wait with
  | running => exact Or.inl rfl
  | exited code =>
    right
    unfold ChunkExecStatus.reap
    dsimp only
    split
    · rename_i hcode
      exact ⟨_, rfl, rfl, rfl, rfl, fun _ => ⟨hcode, rfl⟩, rfl⟩
    · exact ⟨_, rfl, rfl, rfl, rfl, nofun, rfl⟩
  | killed => exact Or.inr ⟨_, rfl, pollStatus_fail id n _⟩
  | failed echild =>
    cases echild with
    | true => exact Or.inl rfl
    | false => exact Or.inr ⟨_, rfl, rfl, rfl, rfl, nofun, rfl⟩

/-- **An iteration of the polling loop.** -/
theorem streams_poll (hcb : c.hasCallback = true) {startSec : Int} (hphase : c.phase = .polling startSec)
    (h : c.Streams) (input : PollInput) : (c.poll startSec input).Streams := by
  rw [streams_of_phase hphase] at h
  obtain ⟨k, hreports, hstatus⟩ := h
  change c.reports = openStatuses c.assignment.chunkId (k + 2) at hreports
  change c.status = pollStatus c.assignment.chunkId (k + 2) at hstatus
  unfold ExecCall.poll
  dsimp only
  split
  · rw [hstatus]
    exact stream_conclude hcb hreports ⟨rfl, rfl, rfl, nofun, rfl⟩
  · split
    · rw [hstatus]
      exact stream_conclude hcb hreports (pollStatus_fail _ _ _)
    · -- output of the child is one more open status
      generalize hread : (if 0 < input.bytesRead
        then ExecCall.report { c with status := c.status.advance } else c) = d
      have hd : d.hasCallback = true ∧ d.phase = .polling startSec ∧
          ∃ k, d.reports = openStatuses d.assignment.chunkId (k + 2) ∧
            d.status = pollStatus d.assignment.chunkId (k + 2) := by
        rw [← hread]
        split
        · obtain ⟨hadvance, hnext⟩ := pollStatus_advance c.assignment.chunkId k
          refine ⟨hcb, hphase, k + 1, ?_, ?_⟩
          · refine (report_reports hcb _ c.phase).trans ?_
            rw [hstatus, hadvance, hreports, openStatuses_succ]
            rfl
          · change c.status.advance = _
            rw [hstatus, hadvance, hnext]
            rfl
        · exact ⟨hcb, hphase, k, hreports, hstatus⟩
      obtain ⟨hdcb, hdphase, k, hdreports, hdstatus⟩ := hd
      rcases pollStatus_reap d.assignment.chunkId (k + 2) input.wait with hreap | ⟨s', hreap, hs'⟩
      · rw [hdstatus, hreap, if_pos rfl, hdphase]
        exact ⟨k, hdreports, rfl⟩
      · rw [hdstatus, hreap, if_neg Bool.false_ne_true]
        exact stream_conclude hdcb hdreports hs'

/-- **A step of a call.** -/
theorem streams_step (hcb : c.hasCallback = true) (h : c.Streams) (env : ExecEnv) (g : Reserved) :
    (c.step env g).2.Streams := by
  have hreport : ∀ {n : Nat}, c.reports = openStatuses c.assignment.chunkId n →
      ∀ status phase, (ExecCall.report { c with status := status, phase := phase }).reports =
        openStatuses c.assignment.chunkId n ++ [status] := fun hreports status phase =>
    (report_reports hcb status phase).trans (congrArg (· ++ [status]) hreports)
  unfold ExecCall.step
  cases hphase : c.phase with
  | validating =>
    rw [streams_of_phase hphase] at h
    obtain ⟨hreports, hstatus⟩ := h
    by_cases hvalid : vomExecutorValidate env.access c.assignment vomSysInfoCollect = true
    · rw [if_pos hvalid]
      refine ⟨(hreport hreports _ _).trans ?_, ?_⟩
      · rw [hstatus]
        rfl
      · change { c.status with state := .accepted } = _
        rw [hstatus]
        rfl
    · rw [if_neg hvalid]
      change StatusStream _ (ExecCall.report _).reports
      rw [hreport hreports, hstatus]
      refine stream_fail ?_ ?_ ?_ _ <;> rfl
  | reserving =>
    rw [streams_of_phase hphase] at h
    obtain ⟨hreports, hstatus⟩ := h
    by_cases hroom : (reserveLocalResources c.assignment vomSysInfoCollect g).1 = true
    · rw [if_pos hroom]
      exact ⟨hreports, hstatus⟩
    · rw [if_neg hroom]
      change StatusStream _ (ExecCall.report _).reports
      rw [hreport hreports, hstatus]
      refine stream_fail ?_ ?_ ?_ _ <;> rfl
  | piping =>
    rw [streams_of_phase hphase] at h
    obtain ⟨hreports, hstatus⟩ := h
    by_cases hpipe : env.pipeOk = true
    · rw [if_pos hpipe]
      refine ⟨(hreport hreports _ _).trans ?_, ?_⟩
      · rw [hstatus]
        rfl
      · change { c.status with state := .started } = _
        rw [hstatus]
        rfl
    · rw [if_neg hpipe]
      exact ⟨hreports, hstatus⟩
  | forking =>
    rw [streams_of_phase hphase] at h
    obtain ⟨hreports, hstatus⟩ := h
    by_cases hfork : env.forkOk = true
    · rw [if_pos hfork]
      refine ⟨0, hreports, ?_⟩
      change { c.status with state := .progress } = _
      rw [hstatus]
      rfl
    · rw [if_neg hfork]
      exact ⟨hreports, hstatus⟩
  | polling startSec => exact streams_poll hcb hphase h env.poll
  | releasing after =>
    rw [streams_of_phase hphase] at h
    cases after with
    | pipeFailed =>
      obtain ⟨hreports, hstatus⟩ := h
      change StatusStream _ (ExecCall.report _).reports
      rw [hreport hreports, hstatus]
      refine stream_fail ?_ ?_ ?_ _ <;> rfl
    | forkFailed => exact ⟨2, Or.inl h.1⟩
    | finished => exact h
  | returned result => exact h

end OneCall

/-! ## 3. Every interleaving -/

/-- Every call with a callback has reported what its phase says. -/
def CallsStream (s : ExecutorState) : Prop :=
  ∀ c ∈ s.calls, c.hasCallback = true → c.Streams

theorem callsStream_next (s : ExecutorState) (op : ExecutorOp) (h : CallsStream s) :
    CallsStream (executorMachine.next s op) := by
  cases op with
  | enter a hasCallback =>
    intro c hc hcb
    rcases List.mem_append.mp hc with hc | hc
    · exact h c hc hcb
    · rw [List.mem_singleton.mp hc]
      exact ⟨rfl, rfl⟩
  | step i env =>
    change CallsStream (executorMachine.step s (.step i env)).1
    unfold executorMachine
    dsimp only
    cases hi : s.calls[i]? with
    | none => exact h
    | some c =>
      intro d hd hcb
      rcases List.mem_or_eq_of_mem_set hd with hd | rfl
      · exact h d hd hcb
      · rw [step_hasCallback] at hcb
        exact streams_step hcb (h c (List.mem_of_getElem? hi) hcb) env s.reserved

theorem ExecCall.Streams.stream {c : ExecCall} (h : c.Streams) :
    StatusStream c.assignment.chunkId c.reports := by
  cases hphase : c.phase with
  | validating => exact ⟨0, Or.inl (streams_of_phase hphase ▸ h).1⟩
  | reserving => exact ⟨1, Or.inl (streams_of_phase hphase ▸ h).1⟩
  | piping => exact ⟨1, Or.inl (streams_of_phase hphase ▸ h).1⟩
  | forking => exact ⟨2, Or.inl (streams_of_phase hphase ▸ h).1⟩
  | polling startSec =>
    rw [streams_of_phase hphase] at h
    obtain ⟨k, hreports, -⟩ := h
    exact ⟨k + 2, Or.inl hreports⟩
  | releasing after =>
    rw [streams_of_phase hphase] at h
    cases after with
    | pipeFailed => exact ⟨1, Or.inl h.1⟩
    | forkFailed => exact ⟨2, Or.inl h.1⟩
    | finished => exact h
  | returned result =>
    rw [streams_of_phase hphase] at h
    exact h

/-- **What a callback hears.** After any steps of any calls, whatever the system answered, a call has
    told its callback ACCEPTED, STARTED and PROGRESS in steps of ten percent up to ninety, each with its
    chunk, cut off somewhere, and after that at most one last status; the progress never falls, and it
    is one hundred percent exactly in a status that is COMPLETED. -/
theorem callback_hears_stream (ops : List ExecutorOp) :
    ∀ c ∈ (executorMachine.run executorStart ops).calls, c.hasCallback = true →
      StatusStream c.assignment.chunkId c.reports ∧
      (c.reports.map (·.progressPercentage)).Pairwise (· ≤ ·) ∧
      ∀ status ∈ c.reports, status.progressPercentage = 100 ↔ status.state = .completed := by
  intro c hc hcb
  have h : CallsStream (executorMachine.run executorStart ops) :=
    executorMachine.invariant_all CallsStream callsStream_next ops
      fun c hc => absurd hc List.not_mem_nil
  have hstream := (h c hc hcb).stream
  exact ⟨hstream, hstream.progress⟩

theorem callback_hears_stream_runAlone :
    ∃ c ∈ (executorMachine.run executorStart (runAlone true)).calls, c.hasCallback = true ∧
      StatusStream 7 c.reports := by
  have hsome : (executorMachine.run executorStart (runAlone true)).calls[0]?.isSome = true := by
    decide +kernel
  have hcall : ∀ c ∈ (executorMachine.run executorStart (runAlone true)).calls[0]?,
      c.hasCallback = true ∧ c.assignment.chunkId = 7 := by decide +kernel
  obtain ⟨c, hc⟩ := Option.isSome_iff_exists.mp hsome
  obtain ⟨hcb, hchunk⟩ := hcall c hc
  have hmem := List.mem_of_getElem? hc
  exact ⟨c, hmem, hcb, hchunk ▸ (callback_hears_stream (runAlone true) c hmem hcb).1⟩

end VoidOsMerger
