/-
  File:      VoidOsMerger/Agent/Loop.lean
  Subject:   THE AGENT'S EVENT LOOP (main of agent/src/heartbeat.c).

  An iteration reads the clock, waits with `poll` for standard input for what is left of five seconds,
  and on a timeout samples the counters, shows a heartbeat and reads the clock again. Bytes on standard
  input end the loop. What `poll` and `read` answer is part of the iteration: an input at its end is
  ready and gives no bytes, and an iteration that finds it so neither ends the loop nor shows a
  heartbeat.

  * `agentMachine` -- the loop, with what the system answers in each iteration;
  * **`agent_beats_on_timeouts`** -- the heartbeats of a run are those of the timeouts before the loop
    ends, and it ends with bytes or a failing `poll`, not with the input;
  * **`beats_are_spaced`** -- with a clock that goes on, heartbeats are five seconds apart.
-/
import VoidOsMerger.Agent.Heartbeat
import Mathlib.Data.List.Basic

namespace VoidOsMerger

/-! ## 1. The clock -/

/-- `struct timeval` as `gettimeofday` fills it. -/
structure Timeval where
  sec : Int
  usec : Int
  usec_nonneg : 0 ≤ usec
  usec_lt : usec < 1000000
  deriving DecidableEq

def Timeval.micros (t : Timeval) : Int := t.sec * 1000000 + t.usec

/-- `elapsed_ms`; the division of C truncates. -/
def elapsedMs (last now : Timeval) : Int :=
  (now.sec - last.sec) * 1000 + (now.usec - last.usec).tdiv 1000

/-- `VOM_HEARTBEAT_INTERVAL_MS` -/
def agentIntervalMs : Int := 5000

/-- `timeout_ms`; the cast to `int` and the subtraction wrap. -/
def timeoutMs (last now : Timeval) : Int :=
  max ((agentIntervalMs - (elapsedMs last now).bmod (2 ^ 32)).bmod (2 ^ 32)) 0

/-! ## 2. The loop -/

/-- What `poll` answers: -1; 0, the timeout; or that standard input is ready, with or without `POLLIN`
    among the events, and then what `read` returns. -/
inductive PollAnswer
  | failed
  | timedOut
  | ready (pollin : Bool) (length : Int)
  deriving DecidableEq

/-- What an iteration meets: the time at its start, the answer of `poll`, the next sample, and the time
    after it. -/
structure AgentIteration where
  now : Timeval
  poll : PollAnswer
  sample : Option CpuTicks
  later : Timeval

structure AgentState where
  lastHeartbeatTime : Timeval
  prevTicks : CpuTicks
  running : Bool

/-- What a heartbeat shows, and when. -/
structure Beat where
  time : Timeval
  cpuPct : ℚ
  deriving DecidableEq

/-- An iteration of the loop. -/
def agentMachine : Machine AgentState AgentIteration (Option Beat) where
  step s it :=
    if !s.running then (s, none)
    else
      match it.poll with
      | .failed => ({ s with running := false }, none)
      | .timedOut =>
        match it.sample with
        | some currTicks =>
          ({ s with prevTicks := currTicks, lastHeartbeatTime := it.later },
            some ⟨it.later, calculateCpuPercentage s.prevTicks currTicks⟩)
        | none => ({ s with lastHeartbeatTime := it.later }, some ⟨it.later, 0⟩)
      | .ready pollin length =>
        if pollin && 0 < length then ({ s with running := false }, none) else (s, none)

/-- The loop before its first iteration, `first` being what `prev_ticks` holds after the first
    sample. -/
def agentStart (first : CpuTicks) (start : Timeval) : AgentState where
  lastHeartbeatTime := start
  prevTicks := first
  running := true

/-- The heartbeats of a run. -/
def beats (s : AgentState) (iterations : List AgentIteration) : List Beat :=
  (agentMachine.answers s iterations).filterMap id

/-- `poll` fails, or `read` gives bytes. -/
def PollAnswer.ends : PollAnswer → Bool
  | .failed => true
  | .timedOut => false
  | .ready pollin length => pollin && 0 < length

/-- What an iteration does: nothing, once the loop is over; it ends it; it passes over an input that is
    ready and has no bytes; or it shows a heartbeat. -/
inductive AgentStep (s : AgentState) (it : AgentIteration) : AgentState × Option Beat → Prop
  | halted (hrunning : s.running = false) : AgentStep s it (s, none)
  | ended (hrunning : s.running = true) (hends : it.poll.ends = true) :
    AgentStep s it ({ s with running := false }, none)
  | passed (hrunning : s.running = true) (hgoes : it.poll.ends = false) (hready : it.poll ≠ .timedOut) :
    AgentStep s it (s, none)
  | beat (hrunning : s.running = true) (hpoll : it.poll = .timedOut) :
    AgentStep s it
      ({ s with
          prevTicks := heartbeatMachine.next s.prevTicks it.sample
          lastHeartbeatTime := it.later
          running := true },
        some ⟨it.later, heartbeatMachine.answer s.prevTicks it.sample⟩)

theorem agent_step (s : AgentState) (it : AgentIteration) :
    AgentStep s it (agentMachine.step s it) := by
  unfold agentMachine
  dsimp only
  cases hrunning : s.running with
  | false => exact .halted hrunning
  | true =>
    rw [if_neg (by decide)]
    cases hpoll : it.poll with
    | failed => exact .ended hrunning (by rw [hpoll]; rfl)
    | timedOut =>
      have h := AgentStep.beat hrunning hpoll
      cases hsample : it.sample with
      | none =>
        rw [hsample] at h
        exact h
      | some currTicks =>
        rw [hsample] at h
        exact h
    | ready pollin length =>
      dsimp only
      split
      · rename_i hbytes
        exact .ended hrunning (by rw [hpoll]; exact hbytes)
      · rename_i hnone
        refine .passed hrunning (by rw [hpoll]; exact Bool.eq_false_iff.mpr hnone) ?_
        rw [hpoll]
        exact PollAnswer.noConfusion

/-! ## 3. Heartbeats and timeouts -/

theorem beats_cons (s : AgentState) (it : AgentIteration) (iterations : List AgentIteration) :
    beats s (it :: iterations) =
      (agentMachine.answer s it).toList ++ beats (agentMachine.next s it) iterations := by
  unfold beats
  rw [Machine.answers]
  cases agentMachine.answer s it <;> rfl

theorem beats_halted {s : AgentState} (h : s.running = false) (iterations : List AgentIteration) :
    beats s iterations = [] := by
  have hstep : ∀ it, agentMachine.step s it = (s, none) := fun it => if_pos (by rw [h]; rfl)
  induction iterations with
  | nil => rfl
  | cons it iterations ih =>
    rw [beats_cons, Machine.answer, Machine.next, hstep, ih]
    rfl

/-- The iterations in which `poll` times out, up to the one that ends the loop. -/
def timeouts (iterations : List AgentIteration) : List AgentIteration :=
  (iterations.takeWhile fun it => !it.poll.ends).filter fun it => it.poll = .timedOut

theorem timeouts_cons (it : AgentIteration) (iterations : List AgentIteration) :
    timeouts (it :: iterations) =
      if it.poll.ends then []
      else if it.poll = .timedOut then it :: timeouts iterations else timeouts iterations := by
  unfold timeouts
  cases hends : it.poll.ends with
  | true =>
    rw [List.takeWhile_cons_of_neg (by simp [hends])]
    rfl
  | false =>
    rw [List.takeWhile_cons_of_pos (by simp [hends]), List.filter_cons]
    by_cases hout : it.poll = .timedOut
    · simp [hout]
    · simp [hout]

/-- **The heartbeats of a running loop** are those of its timeouts. -/
theorem beats_running {s : AgentState} (h : s.running = true) (iterations : List AgentIteration) :
    beats s iterations =
      List.zipWith Beat.mk ((timeouts iterations).map (·.later))
        (heartbeatMachine.answers s.prevTicks ((timeouts iterations).map (·.sample))) := by
  induction iterations generalizing s with
  | nil => rfl
  | cons it iterations ih =>
    have hstep := agent_step s it
    rw [beats_cons, timeouts_cons]
    unfold Machine.answer Machine.next
    generalize agentMachine.step s it = r at hstep ⊢
    cases hstep with
    | halted hover => exact absurd (h.symm.trans hover) (by decide)
    | ended _ hends =>
      rw [if_pos hends, beats_halted rfl]
      rfl
    | passed _ hgoes hready =>
      rw [if_neg (by rw [hgoes]; decide), if_neg hready, ← ih h]
      rfl
    | beat _ hpoll =>
      have hgoes : it.poll.ends = false := by rw [hpoll]; rfl
      have hrest := ih (s := ⟨it.later, heartbeatMachine.next s.prevTicks it.sample, true⟩) rfl
      rw [if_neg (by rw [hgoes]; decide), if_pos hpoll, hrest]
      rfl

/-- The loop goes on exactly where nothing ends it. -/
theorem running_run (s : AgentState) (iterations : List AgentIteration) :
    (agentMachine.run s iterations).running = true ↔
      s.running = true ∧ ∀ it ∈ iterations, it.poll.ends = false := by
  induction iterations generalizing s with
  | nil => exact (and_iff_left fun it hit => absurd hit List.not_mem_nil).symm
  | cons it iterations ih =>
    have hone : (agentMachine.next s it).running = true ↔
        s.running = true ∧ it.poll.ends = false := by
      have hstep := agent_step s it
      unfold Machine.next
      generalize agentMachine.step s it = r at hstep ⊢
      cases hstep with
      | halted hrunning => simp [hrunning]
      | ended hrunning hends => simp [hends]
      | passed hrunning hgoes => simp [hgoes]
      | beat hrunning hpoll => simp [hrunning, hpoll, PollAnswer.ends]
    rw [agentMachine.run_cons, ih, hone, List.forall_mem_cons, and_assoc]

/-- `poll` finds standard input ready, and there are no bytes to read: what a closed input answers. -/
def AgentIteration.AtEnd (it : AgentIteration) : Prop :=
  it.poll.ends = false ∧ it.poll ≠ .timedOut

theorem timeouts_atEnd {rest : List AgentIteration} (h : ∀ it ∈ rest, it.AtEnd) :
    timeouts rest = [] := by
  refine List.filter_eq_nil_iff.mpr fun it hit => ?_
  simpa using (h it ((List.takeWhile_prefix _).subset hit)).2

theorem timeouts_append_atEnd (iterations : List AgentIteration) {rest : List AgentIteration}
    (h : ∀ it ∈ rest, it.AtEnd) : timeouts (iterations ++ rest) = timeouts iterations := by
  induction iterations with
  | nil => exact timeouts_atEnd h
  | cons it iterations ih => rw [List.cons_append, timeouts_cons, timeouts_cons, ih]

/-- **The agent shows a heartbeat on each timeout.** In every run, whatever `poll`, `read` and the
    sampling answer in each iteration: the heartbeats are those of the iterations in which `poll` times
    out, up to the first in which it fails or bytes are read, each with its time; the loop goes on
    exactly as long as there is none of these; and where standard input is ready without bytes from some
    point on, there are no further heartbeats from there, and the loop does not end. -/
theorem agent_beats_on_timeouts (first : CpuTicks) (start : Timeval)
    (iterations : List AgentIteration) :
    beats (agentStart first start) iterations =
      List.zipWith Beat.mk ((timeouts iterations).map (·.later))
        (heartbeatMachine.answers first ((timeouts iterations).map (·.sample))) ∧
    ((agentMachine.run (agentStart first start) iterations).running = true ↔
      ∀ it ∈ iterations, it.poll.ends = false) ∧
    ∀ rest, (∀ it ∈ rest, it.AtEnd) →
      beats (agentStart first start) (iterations ++ rest) = beats (agentStart first start) iterations ∧
      (agentMachine.run (agentStart first start) (iterations ++ rest)).running =
        (agentMachine.run (agentStart first start) iterations).running := by
  refine ⟨beats_running rfl iterations, (running_run _ iterations).trans (and_iff_right rfl), ?_⟩
  intro rest hrest
  constructor
  · rw [beats_running rfl, beats_running rfl, timeouts_append_atEnd iterations hrest]
  · rw [Bool.eq_iff_iff, running_run, running_run, List.forall_mem_append,
      and_iff_left fun it hit => (hrest it hit).1]

/-! ## 4. Five seconds -/

/-- The clock does not go back, and a `poll` that times out has waited its time. -/
structure WaitsOut (s : AgentState) (it : AgentIteration) : Prop where
  forward : s.lastHeartbeatTime.micros ≤ it.now.micros
  waits : it.now.micros + 1000 * timeoutMs s.lastHeartbeatTime it.now ≤ it.later.micros

/-- The milliseconds counted are less than one off. -/
theorem elapsedMs_bounds (last now : Timeval) :
    1000 * elapsedMs last now < now.micros - last.micros + 1000 ∧
      now.micros - last.micros - 1000 < 1000 * elapsedMs last now := by
  unfold elapsedMs Timeval.micros
  have h := Int.tmod_add_mul_tdiv (now.usec - last.usec) 1000
  have hlt := Int.tmod_lt_of_pos (now.usec - last.usec) (show (0 : Int) < 1000 by decide)
  have hgt := Int.lt_tmod_of_pos (now.usec - last.usec) (show (0 : Int) < 1000 by decide)
  omega

theorem waits_five_seconds {s : AgentState} {it : AgentIteration} (h : WaitsOut s it) :
    s.lastHeartbeatTime.micros + 4999000 < it.later.micros := by
  obtain ⟨hforward, hwaits⟩ := h
  obtain ⟨hlow, hhigh⟩ := elapsedMs_bounds s.lastHeartbeatTime it.now
  have hnonneg : 0 ≤ timeoutMs s.lastHeartbeatTime it.now := le_max_right _ _
  by_cases hlong : agentIntervalMs ≤ elapsedMs s.lastHeartbeatTime it.now
  · -- the time has passed before `poll`, whatever the casts make of it
    unfold agentIntervalMs at hlong
    omega
  · -- less than five seconds are counted: the casts change nothing
    have hcast : (elapsedMs s.lastHeartbeatTime it.now).bmod (2 ^ 32) =
        elapsedMs s.lastHeartbeatTime it.now := by
      unfold agentIntervalMs at hlong
      rw [Int.bmod_def]
      omega
    have htimeout : agentIntervalMs - elapsedMs s.lastHeartbeatTime it.now ≤
        timeoutMs s.lastHeartbeatTime it.now := by
      unfold timeoutMs
      rw [hcast]
      refine le_trans (le_of_eq ?_) (le_max_left _ _)
      unfold agentIntervalMs at hlong ⊢
      rw [Int.bmod_def]
      omega
    unfold agentIntervalMs at htimeout
    omega

theorem beat_step (s : AgentState) (it : AgentIteration) :
    (agentMachine.answer s it = none ∧
      (agentMachine.next s it).lastHeartbeatTime = s.lastHeartbeatTime) ∨
    ∃ pct, agentMachine.answer s it = some ⟨it.later, pct⟩ ∧
      (agentMachine.next s it).lastHeartbeatTime = it.later := by
  have hstep := agent_step s it
  unfold Machine.next Machine.answer
  generalize agentMachine.step s it = r at hstep ⊢
  cases hstep with
  | halted => exact Or.inl ⟨rfl, rfl⟩
  | ended => exact Or.inl ⟨rfl, rfl⟩
  | passed => exact Or.inl ⟨rfl, rfl⟩
  | beat => exact Or.inr ⟨_, rfl, rfl⟩

/-- Where an iteration shows a heartbeat, the clock has gone on and `poll` has waited. -/
def BeatsInTime (s : AgentState) (it : AgentIteration) : Prop :=
  agentMachine.answer s it ≠ none → WaitsOut s it

theorem beats_spaced_from (s : AgentState) (iterations : List AgentIteration)
    (h : agentMachine.Legal BeatsInTime s iterations) :
    (beats s iterations).Pairwise (fun a b => a.time.micros + 4999000 < b.time.micros) ∧
      ∀ b ∈ beats s iterations, s.lastHeartbeatTime.micros + 4999000 < b.time.micros := by
  induction iterations generalizing s with
  | nil => exact ⟨List.Pairwise.nil, fun b hb => absurd hb List.not_mem_nil⟩
  | cons it iterations ih =>
    obtain ⟨hit, hrest⟩ := h
    obtain ⟨hpair, hlast⟩ := ih _ hrest
    rw [beats_cons]
    rcases beat_step s it with ⟨hanswer, htime⟩ | ⟨pct, hanswer, htime⟩
    · rw [htime] at hlast
      rw [hanswer, Option.toList_none, List.nil_append]
      exact ⟨hpair, hlast⟩
    · have hwait := waits_five_seconds (hit (by rw [hanswer]; exact Option.some_ne_none _))
      rw [htime] at hlast
      rw [hanswer, Option.toList_some, List.singleton_append]
      refine ⟨List.pairwise_cons.mpr ⟨hlast, hpair⟩, List.forall_mem_cons.mpr ⟨hwait, ?_⟩⟩
      intro b hb
      have := hlast b hb
      omega

/-- **Heartbeats are five seconds apart.** In every run in which the clock goes on and `poll` waits its
    time wherever a heartbeat is shown, any two heartbeats, and the start and the first of them, lie more
    than 4.999 seconds apart. -/
theorem beats_are_spaced (first : CpuTicks) (start : Timeval) (iterations : List AgentIteration)
    (h : agentMachine.Legal BeatsInTime (agentStart first start) iterations) :
    (beats (agentStart first start) iterations).Pairwise
      (fun a b => a.time.micros + 4999000 < b.time.micros) ∧
    ∀ b ∈ beats (agentStart first start) iterations, start.micros + 4999000 < b.time.micros :=
  beats_spaced_from _ iterations h

theorem no_usec_lt : (0 : Int) < 1000000 := by decide

/-- The time `n` seconds after the start. -/
def atSecond (n : Int) : Timeval := ⟨n, 0, Int.le_refl 0, no_usec_lt⟩

/-- An iteration of five seconds in which nothing happens. -/
def quietIteration (n : Int) : AgentIteration where
  now := atSecond n
  poll := .timedOut
  sample := some halfIdle
  later := atSecond (n + 5)

theorem beats_are_spaced_twice :
    (beats (agentStart halfIdle (atSecond 0)) [quietIteration 0, quietIteration 5]).length = 2 ∧
      (beats (agentStart halfIdle (atSecond 0)) [quietIteration 0, quietIteration 5]).Pairwise
        (fun a b => a.time.micros + 4999000 < b.time.micros) :=
  ⟨rfl, (beats_are_spaced halfIdle (atSecond 0) [quietIteration 0, quietIteration 5]
    ⟨fun _ => ⟨by decide, by decide⟩, fun _ => ⟨by decide, by decide⟩, trivial⟩).1⟩

end VoidOsMerger
