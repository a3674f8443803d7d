/-
  File:      VoidOsMerger/Worker/MainLoop.lean
  Subject:   `main` OF THE WORKER (worker/src/main.c), from the connected socket on.

  The worker sends its JOIN_REQ, waits for the JOIN_RESP in at most 50 receptions and enters its loop:
  a heartbeat when five seconds have passed, then one reception. Every reception waits, so the loop
  turns once for each frame that comes. The process is cut where it waits: `MainEvent` is a stretch
  without a reception, a frame that ends one, or a signal that interrupts it.

  * `workerMain` -- the process as a machine; its answers are the messages it sends;
  * **`heartbeats_need_frames`** -- a worker never sends more heartbeats than it has had frames and
    signals, and with a clock that does not go back the readings they are sent at are five seconds
    apart; the stamps they carry are later readings.
-/
import VoidOsMerger.Master.Loop

namespace VoidOsMerger

/-! ## 1. The process -/

/-- Where `main` is. -/
inductive MainPhase
  /-- about to send the JOIN_REQ -/
  | joinReq
  /-- in the reception of this attempt -/
  | joinWait (attempts : Nat)
  /-- at the head of the loop -/
  | loopTop (lastHeartbeatMs : UInt64)
  /-- in the reception of the loop -/
  | loopWait (lastHeartbeatMs : UInt64)
  | returned
  deriving DecidableEq, Repr

/-- `g_worker_id`, `g_worker_running` and the place in `main`. -/
structure WorkerProcess where
  workerId : NulBuf 64
  running : Bool
  phase : MainPhase
  deriving DecidableEq

/-- What a stretch gets from its surroundings: the time `main` reads and the time `send_envelope` reads
    after it, what the receive buffer holds and whether `send_envelope` succeeds. -/
structure WorkerTick where
  nowMs : UInt64
  stampMs : UInt64
  buf : Vector UInt8 receiveBufferLen
  sendOk : Bool

inductive MainEvent
  | go (tick : WorkerTick)
  | frame (tick : WorkerTick) (frame : Frame)
  | signal (tick : WorkerTick)

/-- The attempts to receive the JOIN_RESP. -/
def maxJoinAttempts : Nat := 50

/-- `heartbeat_interval_ms` -/
def heartbeatIntervalMs : UInt64 := 5000

/-- `send_envelope` with what it puts on the socket. -/
def WorkerProcess.send (w : WorkerProcess) (tick : WorkerTick) (code : VomRouterMsgCode) :
    List WorkerMessage :=
  if tick.sendOk then [⟨w.workerId.str, code, tick.stampMs⟩] else []

/-- The message code `recv_envelope` gives; `none` when it answers false. -/
def receivedCode (tick : WorkerTick) (frame : Frame) : Option UInt16 :=
  (recvEnvelope tick.buf frame).map (·.1.messageCode)

/-- After an attempt: to the next one, or on to the loop. -/
def afterAttempt (tick : WorkerTick) (attempts : Nat) (joined : Bool) : MainPhase :=
  if joined || maxJoinAttempts ≤ attempts + 1 then .loopTop tick.nowMs else .joinWait (attempts + 1)

/-- A stretch without a reception; a process that waits for a frame goes on waiting. -/
def WorkerProcess.go (w : WorkerProcess) (tick : WorkerTick) : WorkerProcess × List WorkerMessage :=
  match w.phase with
  | .joinReq =>
    if tick.sendOk then ({ w with phase := .joinWait 0 }, w.send tick .joinReq)
    else ({ w with phase := .returned }, [])
  | .loopTop last =>
    if !w.running then ({ w with phase := .returned }, [])
    else if heartbeatIntervalMs ≤ tick.nowMs - last then
      ({ w with phase := .loopWait tick.nowMs }, w.send tick .heartbeat)
    else ({ w with phase := .loopWait last }, [])
  | .joinWait _ => (w, [])
  | .loopWait _ => (w, [])
  | .returned => (w, [])

/-- A frame has come. -/
def WorkerProcess.receive (w : WorkerProcess) (tick : WorkerTick) (frame : Frame) :
    WorkerProcess × List WorkerMessage :=
  match w.phase with
  | .joinWait attempts =>
    let joined := receivedCode tick frame = some VomRouterMsgCode.joinResp.code
    ({ w with phase := afterAttempt tick attempts joined }, [])
  | .loopWait last =>
    ({ w with phase := .loopTop last },
      if receivedCode tick frame = some VomRouterMsgCode.chunkAssign.code then
        w.send tick .chunkAck else [])
  | .joinReq => (w, [])
  | .loopTop _ => (w, [])
  | .returned => (w, [])

/-- `vom_worker_signal_handler`; a reception it interrupts answers false. -/
def WorkerProcess.signal (w : WorkerProcess) (tick : WorkerTick) : WorkerProcess :=
  let w := { w with running := false }
  match w.phase with
  | .joinWait attempts => { w with phase := afterAttempt tick attempts false }
  | .loopWait last => { w with phase := .loopTop last }
  | .joinReq => w
  | .loopTop _ => w
  | .returned => w

/-- The worker. -/
def workerMain : Machine WorkerProcess MainEvent (List WorkerMessage) where
  step w
    | .go tick => w.go tick
    | .frame tick frame => w.receive tick frame
    | .signal tick => (w.signal tick, [])

/-- The process with its socket connected. -/
def WorkerProcess.connected (workerId : NulBuf 64) : WorkerProcess := ⟨workerId, true, .joinReq⟩

/-! ## 2. What a step does -/

/-- The surroundings of a stretch. -/
def MainEvent.tick : MainEvent → WorkerTick
  | .go tick => tick
  | .frame tick _ => tick
  | .signal tick => tick

/-- What ends a reception. -/
def MainEvent.arrives : MainEvent → Bool
  | .go _ => false
  | .frame _ _ => true
  | .signal _ => true

/-- `g_worker_running` after an event. -/
def MainEvent.keepsRunning : MainEvent → Bool → Bool
  | .go _, running => running
  | .frame _ _, running => running
  | .signal _, _ => false

/-- **Every step of the worker, classified**: the phase it leads to and what it sends. -/
inductive MainStep (w : WorkerProcess) (e : MainEvent) : MainPhase → List WorkerMessage → Prop
  | joins (hphase : w.phase = .joinReq) :
      MainStep w e (.joinWait 0) [⟨w.workerId.str, .joinReq, e.tick.stampMs⟩]
  | fails (hphase : w.phase = .joinReq) : MainStep w e .returned []
  | tries {attempts : Nat} (hphase : w.phase = .joinWait attempts) (harrives : e.arrives = true)
      (joined : Bool) : MainStep w e (afterAttempt e.tick attempts joined) []
  | leaves {last : UInt64} (hphase : w.phase = .loopTop last) : MainStep w e .returned []
  | beats {last : UInt64} (hphase : w.phase = .loopTop last) (hrunning : w.running = true)
      (hdue : heartbeatIntervalMs ≤ e.tick.nowMs - last) :
      MainStep w e (.loopWait e.tick.nowMs) (w.send e.tick .heartbeat)
  | passes {last : UInt64} (hphase : w.phase = .loopTop last) (hrunning : w.running = true) :
      MainStep w e (.loopWait last) []
  | turns {last : UInt64} {ms : List WorkerMessage} (hphase : w.phase = .loopWait last)
      (harrives : e.arrives = true) (hacks : ms = [] ∨ ms = w.send e.tick .chunkAck) :
      MainStep w e (.loopTop last) ms
  | rests : MainStep w e w.phase []

/-- The messages a step sends. -/
def sentBy (w : WorkerProcess) (e : MainEvent) : List WorkerMessage := workerMain.answer w e

theorem mainStep_go (w : WorkerProcess) (tick : WorkerTick) :
    ∃ phase, MainStep w (.go tick) phase (w.go tick).2 ∧ (w.go tick).1 = { w with phase := phase } := by
  unfold WorkerProcess.go
  split
  · rename_i hphase
    split
    · rename_i hok
      unfold WorkerProcess.send
      rw [if_pos hok]
      exact ⟨_, .joins hphase, rfl⟩
    · exact ⟨_, .fails hphase, rfl⟩
  · rename_i last hphase
    split
    · exact ⟨_, .leaves hphase, rfl⟩
    · rename_i hrunning
      have hrunning : w.running = true := by simpa using hrunning
      split
      · rename_i hdue
        exact ⟨_, .beats hphase hrunning hdue, rfl⟩
      · exact ⟨_, .passes hphase hrunning, rfl⟩
  · exact ⟨_, .rests, rfl⟩
  · exact ⟨_, .rests, rfl⟩
  · exact ⟨_, .rests, rfl⟩

theorem mainStep_receive (w : WorkerProcess) (tick : WorkerTick) (frame : Frame) :
    ∃ phase, MainStep w (.frame tick frame) phase (w.receive tick frame).2 ∧
      (w.receive tick frame).1 = { w with phase := phase } := by
  unfold WorkerProcess.receive
  split
  · rename_i attempts hphase
    exact ⟨_, .tries hphase rfl _, rfl⟩
  · rename_i last hphase
    refine ⟨_, .turns hphase rfl ?_, rfl⟩
    split
    · exact Or.inr rfl
    · exact Or.inl rfl
  · exact ⟨_, .rests, rfl⟩
  · exact ⟨_, .rests, rfl⟩
  · exact ⟨_, .rests, rfl⟩

theorem mainStep_signal (w : WorkerProcess) (tick : WorkerTick) :
    ∃ phase, MainStep w (.signal tick) phase [] ∧
      w.signal tick = { w with running := false, phase := phase } := by
  unfold WorkerProcess.signal
  cases hphase : w.phase with
  | joinWait attempts => exact ⟨_, .tries hphase rfl false, rfl⟩
  | loopWait last => exact ⟨_, .turns hphase rfl (Or.inl rfl), rfl⟩
  | joinReq => exact ⟨_, .rests, by rw [hphase]⟩
  | loopTop last => exact ⟨_, .rests, by rw [hphase]⟩
  | returned => exact ⟨_, .rests, by rw [hphase]⟩

theorem mainStep (w : WorkerProcess) (e : MainEvent) :
    ∃ phase, MainStep w e phase (sentBy w e) ∧
      workerMain.next w e = ⟨w.workerId, e.keepsRunning w.running, phase⟩ := by
  cases e with
  | go tick => exact mainStep_go w tick
  | frame tick frame => exact mainStep_receive w tick frame
  | signal tick => exact mainStep_signal w tick

/-! ## 3. Heartbeats -/

/-- A heartbeat: the reading of the loop at which it was due, and the stamp it carries. -/
structure SentBeat where
  dueMs : UInt64
  stampMs : UInt64
  deriving DecidableEq

/-- The heartbeats among the messages of a stretch. -/
def beatsAmong (tick : WorkerTick) (ms : List WorkerMessage) : List SentBeat :=
  (ms.filter fun m => m.code = .heartbeat).map fun m => ⟨tick.nowMs, m.timestampMs⟩

theorem beatsAmong_send (w : WorkerProcess) (tick : WorkerTick) (code : VomRouterMsgCode) :
    beatsAmong tick (w.send tick code) =
      if tick.sendOk = true ∧ code = .heartbeat then [⟨tick.nowMs, tick.stampMs⟩] else [] := by
  unfold WorkerProcess.send
  by_cases hok : tick.sendOk = true
  · by_cases hcode : code = .heartbeat
    · simp [beatsAmong, hok, hcode]
    · simp [beatsAmong, hok, hcode]
  · simp [beatsAmong, hok]

theorem beatsAmong_acks {w : WorkerProcess} {tick : WorkerTick} {ms : List WorkerMessage}
    (hacks : ms = [] ∨ ms = w.send tick .chunkAck) : beatsAmong tick ms = [] := by
  rcases hacks with rfl | rfl
  · rfl
  · rw [beatsAmong_send, if_neg fun h => absurd h.2 (by decide)]

/-- How many heartbeats a process may have sent, `n` receptions having ended. -/
def MainPhase.Paid (beats n : Nat) : MainPhase → Prop
  | .joinReq => beats = 0
  | .joinWait _ => beats = 0
  | .loopTop _ => beats < n
  | .loopWait _ => beats ≤ n
  | .returned => beats ≤ n

theorem MainPhase.Paid.le {beats n : Nat} {phase : MainPhase} (h : phase.Paid beats n) :
    beats ≤ n := by
  cases phase <;> simp only [MainPhase.Paid] at h <;> omega

theorem MainPhase.Paid.mono {beats n n' : Nat} {phase : MainPhase} (h : phase.Paid beats n)
    (hn : n ≤ n') : phase.Paid beats n' := by
  cases phase <;> simp only [MainPhase.Paid] at h ⊢ <;> omega

theorem afterAttempt_paid (tick : WorkerTick) (attempts : Nat) (joined : Bool) (n : Nat) :
    (afterAttempt tick attempts joined).Paid 0 (n + 1) := by
  unfold afterAttempt
  split
  · exact Nat.succ_pos n
  · exact rfl

/-- A reception that ends pays for one heartbeat. -/
theorem MainStep.paid {w : WorkerProcess} {e : MainEvent} {phase : MainPhase}
    {ms : List WorkerMessage} (h : MainStep w e phase ms) {beats n : Nat}
    (hpaid : w.phase.Paid beats n) :
    phase.Paid (beats + (beatsAmong e.tick ms).length) (n + [e].countP (·.arrives)) := by
  have hmore : n ≤ n + [e].countP (·.arrives) := Nat.le_add_right _ _
  have hone : e.arrives = true → n + [e].countP (·.arrives) = n + 1 := fun he => by simp [he]
  cases h with
  | joins hphase =>
    rw [hphase] at hpaid
    exact hpaid
  | fails hphase => exact hpaid.le.trans hmore
  | @tries attempts hphase harrives joined =>
    rw [hphase] at hpaid
    have hnone : beats = 0 := hpaid
    rw [hone harrives, hnone]
    exact afterAttempt_paid e.tick attempts joined n
  | leaves hphase => exact hpaid.le.trans hmore
  | beats hphase hrunning hdue =>
    rw [hphase] at hpaid
    have hless : beats < n := hpaid
    have hsent : (beatsAmong e.tick (w.send e.tick .heartbeat)).length ≤ 1 := by
      rw [beatsAmong_send]
      split <;> simp
    show beats + (beatsAmong e.tick (w.send e.tick .heartbeat)).length ≤ n + [e].countP (·.arrives)
    omega
  | passes hphase hrunning =>
    rw [hphase] at hpaid
    exact (Nat.le_of_lt hpaid).trans hmore
  | turns hphase harrives hacks =>
    have hnone : beatsAmong e.tick ms = [] := beatsAmong_acks hacks
    rw [hphase] at hpaid
    rw [hone harrives, hnone]
    exact Nat.lt_succ_of_le hpaid
  | rests => exact hpaid.mono hmore

/-- Where the heartbeats stand: none before the loop, in it none due after `last_heartbeat_ms`, which
    is a time the process has read. -/
def MainPhase.Spaced (read : List UInt64) (beats : List SentBeat) : MainPhase → Prop
  | .joinReq => beats = []
  | .joinWait _ => beats = []
  | .loopTop last => last ∈ read ∧ ∀ b ∈ beats, b.dueMs ≤ last
  | .loopWait last => last ∈ read ∧ ∀ b ∈ beats, b.dueMs ≤ last
  | .returned => True

theorem MainPhase.Spaced.mono {read : List UInt64} {beats : List SentBeat} {phase : MainPhase}
    (h : phase.Spaced read beats) (more : List UInt64) : phase.Spaced (read ++ more) beats := by
  cases phase with
  | joinReq => exact h
  | joinWait attempts => exact h
  | loopTop last => exact ⟨List.mem_append_left _ h.1, h.2⟩
  | loopWait last => exact ⟨List.mem_append_left _ h.1, h.2⟩
  | returned => trivial

/-- Five seconds and more lie between the readings at which the two were due. -/
def BeatApart (b b' : SentBeat) : Prop := b.dueMs.toNat + 5000 ≤ b'.dueMs.toNat

/-- The stamp is no earlier than the reading. -/
def SentBeat.StampedAfter (b : SentBeat) : Prop := b.dueMs ≤ b.stampMs

theorem apart_of_due {t last now : UInt64} (ht : t ≤ last) (hlast : last ≤ now)
    (hdue : heartbeatIntervalMs ≤ now - last) : t.toNat + 5000 ≤ now.toNat := by
  have hnat : heartbeatIntervalMs.toNat ≤ (now - last).toNat := UInt64.le_iff_toNat_le.mp hdue
  rw [UInt64.toNat_sub_of_le now last hlast] at hnat
  have hinterval : heartbeatIntervalMs.toNat = 5000 := rfl
  have ht := UInt64.le_iff_toNat_le.mp ht
  omega

/-- What is known of the heartbeats of a run. -/
structure Orderly (beats : List SentBeat) : Prop where
  apart : beats.Pairwise BeatApart
  stamped : ∀ b ∈ beats, b.StampedAfter

theorem Orderly.nil : Orderly [] := ⟨List.Pairwise.nil, fun _ hb => absurd hb List.not_mem_nil⟩

theorem Orderly.snoc {beats : List SentBeat} (h : Orderly beats) {b : SentBeat}
    (hlate : ∀ b' ∈ beats, BeatApart b' b) (hstamped : b.StampedAfter) : Orderly (beats ++ [b]) :=
  ⟨List.pairwise_append.mpr ⟨h.apart, List.pairwise_singleton _ _,
      fun b' hb' _ hc => List.mem_singleton.mp hc ▸ hlate b' hb'⟩,
    List.forall_mem_append.mpr ⟨h.stamped, List.forall_mem_singleton.mpr hstamped⟩⟩

/-- The readings of a stretch, in order. -/
def WorkerTick.readings (tick : WorkerTick) : List UInt64 := [tick.nowMs, tick.stampMs]

theorem MainStep.spaced {w : WorkerProcess} {e : MainEvent} {phase : MainPhase}
    {ms : List WorkerMessage} (h : MainStep w e phase ms) {read : List UInt64} {beats : List SentBeat}
    (hforward : ∀ t ∈ read, t ≤ e.tick.nowMs) (hstamp : e.tick.nowMs ≤ e.tick.stampMs)
    (hspaced : w.phase.Spaced read beats) (hbeats : Orderly beats) :
    phase.Spaced (read ++ e.tick.readings) (beats ++ beatsAmong e.tick ms) ∧
      Orderly (beats ++ beatsAmong e.tick ms) := by
  have hnow : e.tick.nowMs ∈ read ++ e.tick.readings := List.mem_append_right _ List.mem_cons_self
  have hsilent : beats ++ beatsAmong e.tick [] = beats := List.append_nil beats
  cases h with
  | joins hphase =>
    rw [hphase] at hspaced
    have hnone : beats = [] := hspaced
    rw [hnone]
    exact ⟨rfl, Orderly.nil⟩
  | fails hphase =>
    rw [hsilent]
    exact ⟨trivial, hbeats⟩
  | @tries attempts hphase harrives joined =>
    rw [hphase] at hspaced
    have hnone : beats = [] := hspaced
    rw [hnone]
    refine ⟨?_, Orderly.nil⟩
    unfold afterAttempt
    split
    · exact ⟨hnow, fun b hb => absurd hb List.not_mem_nil⟩
    · exact rfl
  | leaves hphase =>
    rw [hsilent]
    exact ⟨trivial, hbeats⟩
  | @beats last hphase hrunning hdue =>
    rw [hphase] at hspaced
    obtain ⟨hread, hlast⟩ := hspaced
    have hbefore : ∀ b ∈ beats, b.dueMs ≤ e.tick.nowMs := fun b hb =>
      UInt64.le_trans (hlast b hb) (hforward last hread)
    rw [beatsAmong_send]
    split
    · refine ⟨⟨hnow, ?_⟩, hbeats.snoc (fun b hb =>
        apart_of_due (hlast b hb) (hforward last hread) hdue) hstamp⟩
      exact List.forall_mem_append.mpr ⟨hbefore, List.forall_mem_singleton.mpr (UInt64.le_refl _)⟩
    · rw [List.append_nil]
      exact ⟨⟨hnow, hbefore⟩, hbeats⟩
  | passes hphase hrunning =>
    rw [hphase] at hspaced
    rw [hsilent]
    exact ⟨(show (MainPhase.loopWait _).Spaced _ _ from hspaced).mono _, hbeats⟩
  | turns hphase harrives hacks =>
    rw [hphase] at hspaced
    rw [beatsAmong_acks hacks, List.append_nil]
    exact ⟨(show (MainPhase.loopTop _).Spaced _ _ from hspaced).mono _, hbeats⟩
  | rests =>
    rw [hsilent]
    exact ⟨hspaced.mono _, hbeats⟩

/-- The heartbeats a step sends. -/
def beatsBy (w : WorkerProcess) (e : MainEvent) : List SentBeat := beatsAmong e.tick (sentBy w e)

/-- The heartbeats a worker sends in a run. -/
def heartbeatsOf (workerId : NulBuf 64) (events : List MainEvent) : List SentBeat :=
  workerMain.log beatsBy (.connected workerId) events

theorem heartbeatsOf_snoc (workerId : NulBuf 64) (events : List MainEvent) (e : MainEvent) :
    heartbeatsOf workerId (events ++ [e]) = heartbeatsOf workerId events ++
      beatsAmong e.tick (sentBy (workerMain.run (.connected workerId) events) e) := by
  unfold heartbeatsOf
  rw [Machine.log_append]
  simp only [Machine.log, List.append_nil, beatsBy]

/-- All readings of the clock in a run. -/
def readings (events : List MainEvent) : List UInt64 := events.flatMap (·.tick.readings)

theorem paid_run (workerId : NulBuf 64) (events : List MainEvent) :
    (workerMain.run (.connected workerId) events).phase.Paid (heartbeatsOf workerId events).length
      (events.countP (·.arrives)) := by
  induction events using List.reverseRecOn with
  | nil => exact rfl
  | append_singleton events e ih =>
    obtain ⟨phase, hstep, hnext⟩ := mainStep (workerMain.run (.connected workerId) events) e
    rw [Machine.run_append, Machine.run_cons, Machine.run_nil, hnext, heartbeatsOf_snoc,
      List.length_append, List.countP_append]
    exact hstep.paid ih

theorem spaced_run (workerId : NulBuf 64) (events : List MainEvent)
    (hforward : (readings events).Pairwise (· ≤ ·)) :
    (workerMain.run (.connected workerId) events).phase.Spaced (readings events)
      (heartbeatsOf workerId events) ∧ Orderly (heartbeatsOf workerId events) := by
  induction events using List.reverseRecOn with
  | nil => exact ⟨rfl, Orderly.nil⟩
  | append_singleton events e ih =>
    have hreadings : readings (events ++ [e]) = readings events ++ e.tick.readings := by
      unfold readings
      rw [List.flatMap_append, List.flatMap_singleton]
    rw [hreadings, List.pairwise_append] at hforward
    obtain ⟨hbefore, hpair, hlate⟩ := hforward
    have hstamp : e.tick.nowMs ≤ e.tick.stampMs :=
      (List.pairwise_cons.mp hpair).1 _ (List.mem_singleton_self _)
    obtain ⟨hspaced, hbeats⟩ := ih hbefore
    obtain ⟨phase, hstep, hnext⟩ := mainStep (workerMain.run (.connected workerId) events) e
    rw [Machine.run_append, Machine.run_cons, Machine.run_nil, hnext, heartbeatsOf_snoc, hreadings]
    exact hstep.spaced (fun t ht => hlate t ht _ List.mem_cons_self) hstamp hspaced hbeats

/-- **A worker sends no more heartbeats than it has received frames and signals**: it falls silent
    when the master writes nothing. With a clock that does not go back, the readings of the loop at
    which any two were due are five seconds apart, and each carries a stamp that is no earlier than its
    reading; the stamps themselves may be closer. -/
theorem heartbeats_need_frames (workerId : NulBuf 64) (events : List MainEvent) :
    (heartbeatsOf workerId events).length ≤ events.countP (·.arrives) ∧
    ((readings events).Pairwise (· ≤ ·) →
      (heartbeatsOf workerId events).Pairwise BeatApart ∧
        ∀ b ∈ heartbeatsOf workerId events, b.StampedAfter) :=
  ⟨(paid_run workerId events).le, fun hforward =>
    ⟨(spaced_run workerId events hforward).2.apart, (spaced_run workerId events hforward).2.stamped⟩⟩

/-- A stretch at this time in which sending succeeds. -/
def plainWorkerTick (nowMs : UInt64) : WorkerTick where
  nowMs := nowMs
  stampMs := nowMs
  buf := Vector.replicate receiveBufferLen 0
  sendOk := true

/-- A worker that is answered twice; the first heartbeat is stamped a second after it was due. -/
def answeredTwice : List MainEvent :=
  [.go (plainWorkerTick 1000), .frame (plainWorkerTick 1000) (sendEnvelope .joinResp [] 1000),
    .go { plainWorkerTick 6000 with stampMs := 7000 },
    .frame (plainWorkerTick 7000) (sendEnvelope .joinResp [] 7000), .go (plainWorkerTick 11000)]

theorem heartbeats_need_frames_answeredTwice :
    heartbeatsOf (NulBuf.copy 63 (CStr.upTo [119, 49])) answeredTwice = [⟨6000, 7000⟩, ⟨11000, 11000⟩] ∧
    (heartbeatsOf (NulBuf.copy 63 (CStr.upTo [119, 49])) answeredTwice).length ≤ 2 ∧
    (readings answeredTwice).Pairwise (· ≤ ·) ∧
    (heartbeatsOf (NulBuf.copy 63 (CStr.upTo [119, 49])) answeredTwice).Pairwise BeatApart := by
  have h := heartbeats_need_frames (NulBuf.copy 63 (CStr.upTo [119, 49])) answeredTwice
  have hforward : (readings answeredTwice).Pairwise (· ≤ ·) := by decide
  exact ⟨by decide +kernel, h.1, hforward, (h.2 hforward).1⟩

end VoidOsMerger
