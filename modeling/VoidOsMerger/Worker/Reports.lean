/-
  File:      VoidOsMerger/Worker/Reports.lean
  Subject:   WHAT A CALL OF THE EXECUTOR TELLS ITS CALLBACK.

  A call should report one terminal status, last, and return whether it was COMPLETED. `ExecCall.Told`
  says phase by phase what has been reported; beside the machine runs a log of the calls whose `fork`
  failed (`forkFailures`), since that is the one way out of `vom_executor_run` without a report.

  * `told_poll`, `told_step` -- an iteration of the polling loop, and any step;
  * `callsTold_next` -- the calls of an executor, under any interleaving;
  * **`reportsEnd_iff_forked`** -- a returned call has reported its end exactly when its fork did not
    fail;
  * `fork_failure_unreported` -- a call that returns and never told.
-/
import VoidOsMerger.Worker.Executor

namespace VoidOsMerger

/-! ## 1. Reports -/

/-- COMPLETED, FAILED or CANCELLED -/
def ExecState.terminal : ExecState → Bool
  | .completed | .failed | .cancelled => true
  | .idle | .accepted | .started | .progress => false

/-- No terminal status among the reports. -/
def Quiet (reports : List ChunkExecStatus) : Prop :=
  ∀ status ∈ reports, status.state.terminal = false

/-- Exactly one terminal status, the last one, and the call returned whether it is COMPLETED. -/
def ReportsEnd (reports : List ChunkExecStatus) (result : Bool) : Prop :=
  ∃ before last, reports = before ++ [last] ∧ Quiet before ∧ last.state.terminal = true ∧
    (result = true ↔ last.state = .completed)

/-- The call whose `fork` fails in this step. -/
def forkFailures (s : ExecutorState) : ExecutorOp → List Nat
  | .enter _ _ => []
  | .step i env => match s.calls[i]? with
    | some c => if c.phase = .forking ∧ env.forkOk = false then [i] else []
    | none => []

theorem quiet_nil : Quiet [] := fun _ h => absurd h List.not_mem_nil

theorem Quiet.snoc {reports : List ChunkExecStatus} (h : Quiet reports) {status : ChunkExecStatus}
    (hstatus : status.state.terminal = false) : Quiet (reports ++ [status]) := by
  intro s hs
  rcases List.mem_append.mp hs with hs | hs
  · exact h s hs
  · rw [List.mem_singleton.mp hs]
    exact hstatus

/-- Quiet reports have no end. -/
theorem Quiet.not_reportsEnd {reports : List ChunkExecStatus} (h : Quiet reports) {result : Bool} :
    ¬ ReportsEnd reports result := by
  rintro ⟨before, last, rfl, -, hlast, -⟩
  have hquiet := h last (List.mem_append_right _ List.mem_cons_self)
  rw [hlast] at hquiet
  cases hquiet

/-- A failure reported after quiet statuses. -/
theorem Quiet.reportsEnd_fail {reports : List ChunkExecStatus} (h : Quiet reports)
    (status : ChunkExecStatus) (message : String) :
    ReportsEnd (reports ++ [status.fail message]) false :=
  ⟨reports, status.fail message, rfl, h, rfl, nofun, nofun⟩

/-! ## 2. One call -/

/-- What a call with a callback has told, by its phase; `forkFailed` says whether its fork failed. -/
def ExecCall.Told (c : ExecCall) (forkFailed : Prop) : Prop :=
  match c.phase with
  | .validating | .reserving | .piping | .forking => Quiet c.reports ∧ ¬ forkFailed
  | .polling _ => Quiet c.reports ∧ c.status.state = .progress ∧ ¬ forkFailed
  | .releasing .pipeFailed => Quiet c.reports ∧ ¬ forkFailed
  | .releasing .forkFailed => Quiet c.reports ∧ forkFailed
  | .releasing .finished => ∃ before, c.reports = before ++ [c.status] ∧ Quiet before ∧
      c.status.state.terminal = true ∧ ¬ forkFailed
  | .returned result => (ReportsEnd c.reports result ∧ ¬ forkFailed) ∨ (Quiet c.reports ∧ forkFailed)

section OneCall

variable {c : ExecCall} {forkFailed : Prop}

theorem told_of_phase {phase : ExecPhase} (hphase : c.phase = phase) :
    c.Told forkFailed = ExecCall.Told { c with phase := phase } forkFailed := by
  rw [← hphase]

theorem report_reports (hcb : c.hasCallback = true) (status : ChunkExecStatus) (phase : ExecPhase) :
    (ExecCall.report { c with status := status, phase := phase }).reports =
      c.reports ++ [status] := by
  simp [ExecCall.report, hcb]

/-- A report that ends nothing keeps the reports quiet. -/
theorem quiet_report (hcb : c.hasCallback = true) (hquiet : Quiet c.reports)
    {status : ChunkExecStatus} (hstatus : status.state.terminal = false) (phase : ExecPhase) :
    Quiet (ExecCall.report { c with status := status, phase := phase }).reports := by
  rw [report_reports hcb]
  exact hquiet.snoc hstatus

/-- A failure that is reported before the return. -/
theorem told_fail (hcb : c.hasCallback = true) (hquiet : Quiet c.reports) (hfork : ¬ forkFailed)
    (message : String) (phase : ExecPhase) :
    ExecCall.Told { ExecCall.report { c with status := c.status.fail message, phase := phase } with
      phase := .returned false } forkFailed := by
  refine Or.inl ⟨?_, hfork⟩
  show ReportsEnd (ExecCall.report _).reports false
  rw [report_reports hcb]
  exact hquiet.reportsEnd_fail _ _

/-- What `waitpid` answers leaves the status alone, or ends the execution. -/
theorem reap_cases (s : ChunkExecStatus) (wait : WaitOutcome) :
    s.reap wait = (s, true) ∨ ∃ s', s.reap wait = (s', false) ∧ s'.state.terminal = true := by
  cases wait with
  | running => exact Or.inl rfl
  | exited code =>
    unfold ChunkExecStatus.reap
    dsimp only
    split
    · exact Or.inr ⟨_, rfl, rfl⟩
    · exact Or.inr ⟨_, rfl, rfl⟩
  | killed => exact Or.inr ⟨_, rfl, rfl⟩
  | failed echild =>
    cases echild with
    | true => exact Or.inl rfl
    | false => exact Or.inr ⟨_, rfl, rfl⟩

/-- The tail of the function reports the terminal status it was left with. -/
theorem told_conclude (hcb : c.hasCallback = true) (hquiet : Quiet c.reports) (hfork : ¬ forkFailed)
    {status : ChunkExecStatus} (hstatus : status.state.terminal = true) :
    (c.conclude status).Told forkFailed := by
  have hend : (if status.state = .completed then
      { status with resultSha256 := computeDeterministicIntegrity (some []) } else status).state =
        status.state := by
    split
    · rfl
    · rfl
  unfold ExecCall.conclude
  dsimp only
  -- the hash is not looked into
  generalize (if status.state = .completed then
    { status with resultSha256 := computeDeterministicIntegrity (some []) } else status) = last at hend ⊢
  exact ⟨c.reports, report_reports hcb last c.phase, hquiet, hend ▸ hstatus, hfork⟩

/-- **An iteration of the polling loop**: on with a quiet progress, or out with a terminal status. -/
theorem told_poll (hcb : c.hasCallback = true) {startSec : Int} (hphase : c.phase = .polling startSec)
    (h : c.Told forkFailed) (input : PollInput) : (c.poll startSec input).Told forkFailed := by
  rw [told_of_phase hphase] at h
  obtain ⟨hquiet, hstate, hfork⟩ := h
  unfold ExecCall.poll
  dsimp only
  split
  · exact told_conclude hcb hquiet hfork rfl
  · split
    · exact told_conclude hcb hquiet hfork rfl
    · -- output of the child is told as progress before the child is waited for
      generalize hread : (if 0 < input.bytesRead
        then ExecCall.report { c with status := c.status.advance } else c) = d
      have hd : d.hasCallback = true ∧ d.phase = .polling startSec ∧ Quiet d.reports ∧
          d.status.state = .progress := by
        rw [← hread]
        split
        · have hopen : c.status.advance.state.terminal = false := congrArg ExecState.terminal hstate
          exact ⟨hcb, hphase, quiet_report hcb hquiet hopen _, hstate⟩
        · exact ⟨hcb, hphase, hquiet, hstate⟩
      obtain ⟨hdcb, hdphase, hdquiet, hdstate⟩ := hd
      rcases reap_cases d.status input.wait with hreap | ⟨s', hreap, hs'⟩
      · rw [hreap, if_pos rfl, told_of_phase hdphase]
        exact ⟨hdquiet, hdstate, hfork⟩
      · rw [hreap, if_neg Bool.false_ne_true]
        exact told_conclude hdcb hdquiet hfork hs'

/-- **A step of a call.** -/
theorem told_step (hcb : c.hasCallback = true) (h : c.Told forkFailed) (env : ExecEnv)
    (g : Reserved) :
    (c.step env g).2.Told (forkFailed ∨ (c.phase = .forking ∧ env.forkOk = false)) := by
  have hother : ∀ {phase : ExecPhase}, phase ≠ .forking →
      (forkFailed ∨ (phase = .forking ∧ env.forkOk = false)) = forkFailed :=
    fun hne => propext (or_iff_left fun hf => hne hf.1)
  unfold ExecCall.step
  cases hphase : c.phase with
  | validating =>
    rw [hother ExecPhase.noConfusion]
    rw [told_of_phase hphase] at h
    by_cases hvalid : vomExecutorValidate env.access c.assignment vomSysInfoCollect = true
    · rw [if_pos hvalid]
      exact ⟨quiet_report hcb h.1 rfl _, h.2⟩
    · rw [if_neg hvalid]
      exact told_fail hcb h.1 h.2 _ _
  | reserving =>
    rw [hother ExecPhase.noConfusion]
    rw [told_of_phase hphase] at h
    by_cases hroom : (reserveLocalResources c.assignment vomSysInfoCollect g).1 = true
    · rw [if_pos hroom]
      exact h
    · rw [if_neg hroom]
      exact told_fail hcb h.1 h.2 _ _
  | piping =>
    rw [hother ExecPhase.noConfusion]
    rw [told_of_phase hphase] at h
    by_cases hpipe : env.pipeOk = true
    · rw [if_pos hpipe]
      exact ⟨quiet_report hcb h.1 rfl _, h.2⟩
    · rw [if_neg hpipe]
      exact h
  | forking =>
    rw [told_of_phase hphase] at h
    by_cases hok : env.forkOk = true
    · rw [if_pos hok]
      refine ⟨h.1, rfl, ?_⟩
      rintro (hf | ⟨-, hno⟩)
      · exact h.2 hf
      · exact Bool.noConfusion (hok.symm.trans hno)
    · rw [if_neg hok]
      exact ⟨h.1, Or.inr ⟨rfl, eq_false_of_ne_true hok⟩⟩
  | polling startSec =>
    rw [hother ExecPhase.noConfusion]
    exact told_poll hcb hphase h env.poll
  | releasing after =>
    rw [hother ExecPhase.noConfusion]
    rw [told_of_phase hphase] at h
    cases after with
    | pipeFailed => exact told_fail hcb h.1 h.2 _ _
    | forkFailed => exact Or.inr h
    | finished =>
      obtain ⟨before, hreports, hquiet, hterminal, hfork⟩ := h
      exact Or.inl ⟨⟨before, c.status, hreports, hquiet, hterminal, by simp⟩, hfork⟩
  | returned result =>
    rw [hother ExecPhase.noConfusion]
    exact h

/-- A step leaves the callback alone. -/
theorem step_hasCallback (c : ExecCall) (env : ExecEnv) (g : Reserved) :
    (c.step env g).2.hasCallback = c.hasCallback := by
  unfold ExecCall.step
  split
  · dsimp only
    split <;> rfl
  · dsimp only
    split <;> rfl
  · split <;> rfl
  · split <;> rfl
  · unfold ExecCall.poll
    dsimp only
    split
    · rfl
    · split
      · rfl
      · by_cases hread : 0 < env.poll.bytesRead
        · rw [if_pos hread]
          split <;> rfl
        · rw [if_neg hread]
          split <;> rfl
  · dsimp only
    split <;> rfl
  · rfl

end OneCall

/-! ## 3. Every interleaving -/

/-- Every call with a callback has told what its phase says; `failed` are the calls whose fork
    failed. -/
structure CallsTold (s : ExecutorState) (failed : List Nat) : Prop where
  entered : ∀ i ∈ failed, i < s.calls.length
  told : ∀ (i : Nat) (c : ExecCall), s.calls[i]? = some c → c.hasCallback = true → c.Told (i ∈ failed)

theorem callsTold_enter {s : ExecutorState} {failed : List Nat} (h : CallsTold s failed)
    (a : ChunkAssignment) (hasCallback : Bool) :
    CallsTold { s with calls := s.calls ++ [ExecCall.enter a hasCallback] } failed := by
  refine ⟨fun i hi => ?_, fun i c hc hcb => ?_⟩
  · rw [List.length_append]
    exact Nat.lt_add_right _ (h.entered i hi)
  · rcases Nat.lt_or_ge i s.calls.length with hlt | hge
    · rw [List.getElem?_append_left hlt] at hc
      exact h.told i c hc hcb
    · rw [List.getElem?_append_right hge, List.getElem?_singleton] at hc
      split at hc
      · rw [← Option.some.inj hc]
        exact ⟨quiet_nil, fun hi => absurd (h.entered i hi) (Nat.not_lt.mpr hge)⟩
      · cases hc

theorem callsTold_step {s : ExecutorState} {failed : List Nat} (h : CallsTold s failed) {j : Nat}
    {c : ExecCall} (hj : s.calls[j]? = some c) (env : ExecEnv) {g : Reserved} :
    CallsTold ⟨g, s.calls.set j (c.step env s.reserved).2⟩
      (failed ++ if c.phase = .forking ∧ env.forkOk = false then [j] else []) := by
  have hlt : j < s.calls.length := (List.getElem?_eq_some_iff.mp hj).1
  have hmem : ∀ i, i ∈ (failed ++ if c.phase = .forking ∧ env.forkOk = false then [j] else []) ↔
      i ∈ failed ∨ (i = j ∧ c.phase = .forking ∧ env.forkOk = false) := by
    intro i
    rw [List.mem_append]
    split
    · rename_i hf
      simp [hf]
    · rename_i hf
      simp [hf]
  refine ⟨fun i hi => ?_, fun i d hd hcb => ?_⟩
  · rw [List.length_set]
    rcases (hmem i).mp hi with hi | ⟨rfl, -⟩
    · exact h.entered i hi
    · exact hlt
  · by_cases hij : j = i
    · subst hij
      rw [List.getElem?_set_self hlt] at hd
      rw [← Option.some.inj hd] at hcb ⊢
      rw [step_hasCallback] at hcb
      rw [propext (hmem j), eq_self, true_and]
      exact told_step hcb (h.told j c hj hcb) env s.reserved
    · rw [List.getElem?_set_ne hij] at hd
      rw [propext (hmem i), propext (or_iff_left fun e => hij e.1.symm)]
      exact h.told i d hd hcb

theorem callsTold_next (s : ExecutorState) (op : ExecutorOp) (failed : List Nat)
    (h : CallsTold s failed) :
    CallsTold (executorMachine.next s op) (failed ++ forkFailures s op) := by
  cases op with
  | enter a hasCallback =>
    show CallsTold _ (failed ++ [])
    rw [List.append_nil]
    exact callsTold_enter h a hasCallback
  | step i env =>
    show CallsTold (executorMachine.step s (.step i env)).1 _
    unfold executorMachine forkFailures
    dsimp only
    cases hi : s.calls[i]? with
    | none =>
      rw [List.append_nil]
      exact h
    | some c => exact callsTold_step h hi env

/-- **A returned call has told its end, unless its fork failed.** After any steps of any calls,
    whatever the system answered, a call with a callback that has returned has reported exactly one
    terminal status, as its last, and returned whether it is COMPLETED, exactly when its `fork` did
    not fail. -/
theorem reportsEnd_iff_forked (ops : List ExecutorOp) {i : Nat} {c : ExecCall} {result : Bool}
    (hc : (executorMachine.run executorStart ops).calls[i]? = some c) (hcb : c.hasCallback = true)
    (hreturned : c.phase = .returned result) :
    ReportsEnd c.reports result ↔ i ∉ executorMachine.log forkFailures executorStart ops := by
  have hnone : ∀ i, executorStart.calls[i]? = none := fun _ => List.getElem?_nil
  have hstart : CallsTold executorStart [] :=
    ⟨fun _ h => absurd h List.not_mem_nil, fun i _ h => absurd ((hnone i).symm.trans h) (by simp)⟩
  have h := executorMachine.invariant_log forkFailures CallsTold
    (fun s op failed hs _ => callsTold_next s op failed hs) hstart
    (executorMachine.legal_true executorStart ops)
  have htold := h.told i c hc hcb
  rw [told_of_phase hreturned] at htold
  rcases htold with ⟨hend, hno⟩ | ⟨hquiet, hfailed⟩
  · exact iff_of_true hend hno
  · exact iff_of_false hquiet.not_reportsEnd (not_not.mpr hfailed)

/-- One core and a kilobyte for a minute. -/
def smallAssignment : ChunkAssignment where
  chunkId := 7
  runtimeType := NulBuf.copy 15 posixSubproc
  binaryPath := NulBuf.copy 255 (CStr.upTo [47, 98])
  requiredCores := 1
  requiredMemoryBytes := 1024
  timeoutSeconds := 60

/-- A call alone, to its end: every system call succeeds but perhaps `fork`, and the child exits
    with 0. -/
def runAlone (forkOk : Bool) : List ExecutorOp :=
  .enter smallAssignment true ::
    List.replicate 6 (.step 0 ⟨fun _ => true, true, forkOk, 0, ⟨1, false, 0, .exited 0⟩⟩)

theorem completed_call_told : ∃ c,
    (executorMachine.run executorStart (runAlone true)).calls[0]? = some c ∧
      c.hasCallback = true ∧ c.phase = .returned true ∧ ReportsEnd c.reports true := by
  have hsome : (executorMachine.run executorStart (runAlone true)).calls[0]?.isSome = true := by
    decide +kernel
  have hcall : ∀ c ∈ (executorMachine.run executorStart (runAlone true)).calls[0]?,
      c.hasCallback = true ∧ c.phase = .returned true := by decide +kernel
  obtain ⟨c, hc⟩ := Option.isSome_iff_exists.mp hsome
  obtain ⟨hcb, hphase⟩ := hcall c hc
  exact ⟨c, hc, hcb, hphase,
    (reportsEnd_iff_forked (runAlone true) hc hcb hphase).mpr (by decide +kernel)⟩

/-- **A call whose fork fails returns and has told nothing of it.** -/
theorem fork_failure_unreported : ¬ ∀ (ops : List ExecutorOp) (i : Nat) (c : ExecCall) (result : Bool),
    (executorMachine.run executorStart ops).calls[i]? = some c → c.hasCallback = true →
      c.phase = .returned result → ReportsEnd c.reports result := by
  intro h
  have hsome : (executorMachine.run executorStart (runAlone false)).calls[0]?.isSome = true := by
    decide +kernel
  have hcall : ∀ c ∈ (executorMachine.run executorStart (runAlone false)).calls[0]?,
      (c.hasCallback = true ∧ c.phase = .returned false) ∧
        ∀ status ∈ c.reports, status.state.terminal = false := by decide +kernel
  obtain ⟨c, hc⟩ := Option.isSome_iff_exists.mp hsome
  obtain ⟨⟨hcb, hphase⟩, hquiet⟩ := hcall c hc
  exact Quiet.not_reportsEnd hquiet (h (runAlone false) 0 c false hc hcb hphase)

end VoidOsMerger
