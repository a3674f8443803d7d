/-
  File:      VoidOsMerger/Transport/Faults.lean
  Subject:   THE ROUTER'S SENDS WHEN THE SOCKET FAILS (master/src/router.c against
             worker/src/transport.c).

  `vom_master_router_send_to_worker` sends three frames and returns at the first that fails. It leaves
  the frames before it in the socket, as the beginning of a message that the next send goes on with:
  the next payload that gets through travels to the worker whose identity was sent first. The calls are
  made under `write_lock`, so that the sends of any threads are a list of calls.

  The sockets are taken for the ROUTER/DEALER pair of the documented topology, without loss
  (`dealerInbox`); the type the router passes to `zmq_socket` is that of a REP.

  * `RouterStep` -- what one call does to the router and its socket;
  * `polls_stream` -- what a worker is handed when it polls its socket empty;
  * **`workers_hear_their_own_iff`** -- every worker is handed exactly what was sent to it, exactly when
    no send got through on a message that was opened for another worker.
-/
import VoidOsMerger.Transport.Pairing
import Mathlib.Data.List.Forall2
import Mathlib.Data.List.Induction
import Mathlib.Data.List.Nodup

namespace VoidOsMerger

/-! ## 1. A router and its sockets -/

/-- `vom_master_router_start`; the arguments say whether `zmq_socket` and `zmq_bind` succeed. A socket
    of an earlier start is overwritten, not closed. -/
def vomMasterRouterStart (socketOk bindOk : Bool) (ctx : VomMasterRouter) :
    VomRouterStatus × VomMasterRouter :=
  if !socketOk then (.errSocket, { ctx with hasSock := false })
  else if !bindOk then (.errSocket, { ctx with hasSock := false })
  else (.success, { ctx with hasSock := true, isRunning := true })

/-- A router, with the message open on its socket and all messages it has sent. -/
structure RouterSession where
  router : VomMasterRouter
  out : Outbox
  deriving DecidableEq

inductive RouterOp
  | start (socketOk bindOk : Bool)
  | stop
  | send (workerId : CStr) (call : SendCall) (rc : Nat → Bool)

/-- The calls on a router. No message is open on a socket that was just made. -/
def routerMachine : Machine RouterSession RouterOp VomRouterStatus where
  step s op := match op with
    | .start socketOk bindOk =>
      let r := vomMasterRouterStart socketOk bindOk s.router
      ({ router := r.2, out := { s.out with opened := [] } }, r.1)
    | .stop => ({ s with router := { s.router with isRunning := false } }, .success)
    | .send workerId call rc =>
      let r := vomMasterRouterSendToWorker rc workerId call s.router s.out
      ({ router := r.2.1, out := r.2.2 }, r.1)

/-- `vom_master_router_create` -/
def routerCreated : RouterSession where
  router := { hasSock := false, nextSeqId := 1, isRunning := false }
  out := emptyOutbox

/-- A send that succeeded: the first frame of the message that carried it, the worker it was for, the
    call and its number. -/
structure SentCall where
  opener : Frame
  workerId : CStr
  call : SendCall
  sequenceId : UInt64
  deriving DecidableEq

/-- The envelope and payload of a send. -/
def SentCall.message (d : SentCall) : VomRouterEnvelope × List UInt8 :=
  (d.call.envelope d.sequenceId, d.call.payload)

/-- The send of an operation, if it is one and succeeds. -/
def sentCalls (s : RouterSession) : RouterOp → List SentCall
  | .send workerId call rc =>
    if routerMachine.answer s (.send workerId call rc) = .success then
      [⟨s.out.opened.headD workerId.bytes, workerId, call, s.router.nextSeqId⟩]
    else []
  | .start _ _ => []
  | .stop => []

/-- A send that succeeds finds no open message, or one that was opened for its own worker. -/
def OpensOwn (s : RouterSession) (op : RouterOp) : Prop :=
  ∀ d ∈ sentCalls s op, d.opener = d.workerId.bytes

instance (s : RouterSession) (op : RouterOp) : Decidable (OpensOwn s op) :=
  inferInstanceAs (Decidable (∀ d ∈ sentCalls s op, d.opener = d.workerId.bytes))

/-! ## 2. One call -/

/-- What a call does: nothing to the socket; or it makes a new one; or it leaves its first frames there
    and fails; or it closes the message open there with its own last frame. A call that sends uses up a
    number. -/
inductive RouterStep (s : RouterSession) : RouterSession → List SentCall → Prop
  | quiet (router : VomMasterRouter)
      (hnumber : router.nextSeqId = s.router.nextSeqId ∨ router.nextSeqId = s.router.nextSeqId + 1) :
    RouterStep s ⟨router, s.out⟩ []
  | renewed (router : VomMasterRouter) (hnumber : router.nextSeqId = s.router.nextSeqId) :
    RouterStep s ⟨router, { s.out with opened := [] }⟩ []
  | cut (router : VomMasterRouter) (hnumber : router.nextSeqId = s.router.nextSeqId + 1)
      (frames : List Frame) (hframes : ∀ f ∈ frames, ∀ b ∈ f, b ≠ 0) :
    RouterStep s ⟨router, { s.out with opened := s.out.opened ++ frames }⟩ []
  | sent (router : VomMasterRouter) (hnumber : router.nextSeqId = s.router.nextSeqId + 1)
      (workerId : CStr) (call : SendCall) (hfit : call.payload.length ≤ payloadMaxLen) :
    RouterStep s
      ⟨router, { opened := []
                 sent := s.out.sent ++
                  [s.out.opened ++ [workerId.bytes, [], call.buffer s.router.nextSeqId]] }⟩
      [⟨s.out.opened.headD workerId.bytes, workerId, call, s.router.nextSeqId⟩]

theorem Outbox.send_open (out : Outbox) (first second : Frame) :
    (out.send first true).send second true =
      { out with opened := out.opened ++ [first, second] } := by
  simp [Outbox.send]

theorem Outbox.send_closed (out : Outbox) (first second last : Frame) :
    ((out.send first true).send second true).send last false =
      { opened := [], sent := out.sent ++ [out.opened ++ [first, second, last]] } := by
  simp [Outbox.send]

theorem router_step (s : RouterSession) (op : RouterOp) :
    RouterStep s (routerMachine.next s op) (sentCalls s op) := by
  cases op with
  | start socketOk bindOk =>
    refine .renewed _ ?_
    unfold vomMasterRouterStart
    split
    · rfl
    · split <;> rfl
  | stop => exact .quiet _ (Or.inl rfl)
  | send workerId call rc =>
    unfold sentCalls
    unfold Machine.next Machine.answer routerMachine vomMasterRouterSendToWorker
    dsimp only
    split
    · exact .quiet _ (Or.inl rfl)
    · split
      · exact .quiet _ (Or.inl rfl)
      · rename_i hfit
        split
        · exact .quiet _ (Or.inr rfl)
        · split
          · refine .cut _ rfl [workerId.bytes] fun f hf => ?_
            rw [List.mem_singleton.mp hf]
            exact workerId.noNul
          · split
            · rw [Outbox.send_open]
              refine .cut _ rfl [workerId.bytes, []] fun f hf => ?_
              rcases List.mem_pair.mp hf with rfl | rfl
              · exact workerId.noNul
              · exact noNul_nil
            · rw [Outbox.send_closed]
              exact .sent _ rfl workerId call (Nat.not_lt.mp hfit)

/-! ## 3. The wire -/

/-- A message as a send leaves it: the frame that opened it, what was sent before the last frame, none
    of it with a zero byte, and the buffer of the send. -/
structure Carries (frames : List Frame) (d : SentCall) : Prop where
  split : ∃ before, frames = d.opener :: (before ++ [d.call.buffer d.sequenceId]) ∧
    ∀ f ∈ before, ∀ b ∈ f, b ≠ 0
  fits : d.call.payload.length ≤ payloadMaxLen

/-- The messages on the wire are those of the sends that succeeded; frames of an open message have no
    zero byte. -/
structure Wired (s : RouterSession) (sent : List SentCall) : Prop where
  carries : List.Forall₂ Carries s.out.sent sent
  opened : ∀ f ∈ s.out.opened, ∀ b ∈ f, b ≠ 0

theorem carries_sent {opened : List Frame} (hopened : ∀ f ∈ opened, ∀ b ∈ f, b ≠ 0) (workerId : CStr)
    {call : SendCall} (hfit : call.payload.length ≤ payloadMaxLen) (sequenceId : UInt64) :
    Carries (opened ++ [workerId.bytes, [], call.buffer sequenceId])
      ⟨opened.headD workerId.bytes, workerId, call, sequenceId⟩ := by
  refine ⟨?_, hfit⟩
  cases opened with
  | nil =>
    refine ⟨[[]], rfl, fun f hf => ?_⟩
    rw [List.mem_singleton.mp hf]
    exact noNul_nil
  | cons first rest =>
    refine ⟨rest ++ [workerId.bytes, []], ?_, fun f hf => ?_⟩
    · rw [List.append_assoc]
      rfl
    · rcases List.mem_append.mp hf with hf | hf
      · exact hopened f (List.mem_cons_of_mem _ hf)
      · rcases List.mem_pair.mp hf with rfl | rfl
        · exact workerId.noNul
        · exact noNul_nil

theorem wired_next (s : RouterSession) (op : RouterOp) (sent : List SentCall) (h : Wired s sent) :
    Wired (routerMachine.next s op) (sent ++ sentCalls s op) := by
  have hstep := router_step s op
  generalize routerMachine.next s op = s', sentCalls s op = new at hstep ⊢
  cases hstep with
  | quiet router hnumber =>
    rw [List.append_nil]
    exact ⟨h.carries, h.opened⟩
  | renewed router hnumber =>
    rw [List.append_nil]
    exact ⟨h.carries, fun f hf => absurd hf List.not_mem_nil⟩
  | cut router hnumber frames hframes =>
    rw [List.append_nil]
    refine ⟨h.carries, fun f hf => ?_⟩
    rcases List.mem_append.mp hf with hf | hf
    · exact h.opened f hf
    · exact hframes f hf
  | sent router hnumber workerId call hfit =>
    exact ⟨List.rel_append h.carries (.cons (carries_sent h.opened workerId hfit _) .nil),
      fun f hf => absurd hf List.not_mem_nil⟩

theorem wired_run (ops : List RouterOp) :
    Wired (routerMachine.run routerCreated ops) (routerMachine.log sentCalls routerCreated ops) :=
  routerMachine.invariant_log sentCalls Wired (fun s op sent h _ => wired_next s op sent h)
    ⟨.nil, fun _ hf => absurd hf List.not_mem_nil⟩ (routerMachine.legal_true _ _)

/-! ## 4. A worker polls its socket empty -/

/-- What `vom_worker_transport_poll` hands over for a frame. -/
def frameDelivered (frame : Frame) : List (VomRouterEnvelope × List UInt8) :=
  if WellFramed frame then [(frameHeader frame, receivedPayload frame)] else []

/-- What polls hand over. -/
def pollsDelivered (rs : List Poll) : List (VomRouterEnvelope × List UInt8) :=
  rs.flatMap fun r => r.calls.filterMap TransportCall.delivered

theorem poll_delivered {ctx : VomWorkerTransport} (hs : ctx.hasSock = true) (frame : Frame)
    (more m : Bool) (stream : List (Frame × Bool)) :
    (vomWorkerTransportPoll ctx ⟨(frame, more) :: stream, m⟩).2.calls.filterMap
      TransportCall.delivered = frameDelivered frame := by
  unfold frameDelivered
  rcases poll_spec hs frame more m stream with ⟨hframed, -, h⟩ | ⟨hframed, -, h⟩
  · rw [h, if_pos hframed]
  · rw [h, if_neg hframed]

/-- A poll takes one frame and keeps the socket. -/
theorem poll_takes {ctx : VomWorkerTransport} (hs : ctx.hasSock = true) (frame : Frame)
    (more m : Bool) (stream : List (Frame × Bool)) :
    (vomWorkerTransportPoll ctx ⟨(frame, more) :: stream, m⟩).1.2 = ⟨stream, more⟩ ∧
      (vomWorkerTransportPoll ctx ⟨(frame, more) :: stream, m⟩).1.1.hasSock = true := by
  unfold vomWorkerTransportPoll
  rw [if_neg (by simp [hs])]
  dsimp only [Inbox.recv]
  split
  · exact ⟨rfl, hs⟩
  · split
    · exact ⟨rfl, hs⟩
    · split
      · exact ⟨rfl, hs⟩
      · exact ⟨rfl, (transportAccept_hasSock _ ctx).trans hs⟩

/-- **Polling a socket empty** hands over what its frames are, one by one. -/
theorem polls_stream : ∀ (stream : List (Frame × Bool)) (ctx : VomWorkerTransport) (m : Bool),
    ctx.hasSock = true →
    pollsDelivered (pollTimes stream.length (ctx, ⟨stream, m⟩)).2 =
      (stream.map Prod.fst).flatMap frameDelivered
  | [], _, _, _ => rfl
  | (frame, more) :: stream, ctx, m, hs => by
      obtain ⟨hinbox, hsock⟩ := poll_takes hs frame more m stream
      have hrest := polls_stream stream
        (vomWorkerTransportPoll ctx ⟨(frame, more) :: stream, m⟩).1.1 more hsock
      rw [← hinbox] at hrest
      rw [List.map_cons, List.flatMap_cons, ← hrest, ← poll_delivered hs frame more m stream]
      rfl

/-- A frame without a zero byte is no envelope of version 1. -/
theorem frameDelivered_noNul {frame : Frame} (h : ∀ b ∈ frame, b ≠ 0) : frameDelivered frame = [] := by
  refine if_neg fun hframed => ?_
  have hzero : (0 : UInt8) ∈ frame := by
    rw [← encode_header hframed]
    have hversion : (0 : UInt8) ∈ Codec.u16.enc 1 := by decide
    exact List.mem_append_left _ (List.mem_append_left _ hversion)
  exact h 0 hzero rfl

theorem frameDelivered_buffer {call : SendCall} (hfit : call.payload.length ≤ payloadMaxLen)
    (sequenceId : UInt64) :
    frameDelivered (call.buffer sequenceId) = [(call.envelope sequenceId, call.payload)] := by
  have hlen : (call.buffer sequenceId).length ≤ receiveBufferLen := by
    rw [buffer_eq_encodeMessage, length_encode]
    exact Nat.add_le_add_left hfit _
  have hframed : WellFramed (call.buffer sequenceId) :=
    wellFramed_encode _ _ _ _ (lt_of_le_of_lt hfit (by decide))
  have hheader : frameHeader (call.buffer sequenceId) = call.envelope sequenceId :=
    frameHeader_encode _ _ _ _
  have hpayload : receivedPayload (call.buffer sequenceId) = call.payload :=
    (receivedPayload_fits hlen).trans (drop_encode _ _ _ _)
  rw [frameDelivered, if_pos hframed, hheader, hpayload]

theorem flagged_fst : ∀ frames : List Frame, (flagged frames).map Prod.fst = frames
  | [] => rfl
  | [_] => rfl
  | f :: g :: rest => congrArg (f :: ·) (flagged_fst (g :: rest))

theorem delivered_carried (identity : Frame) {messages : List (List Frame)} {sent : List SentCall}
    (h : List.Forall₂ Carries messages sent) :
    (((messages.filterMap (addressed identity)).flatMap flagged).map Prod.fst).flatMap frameDelivered =
      (sent.filter (·.opener = identity)).map SentCall.message := by
  induction h with
  | nil => rfl
  | @cons frames d messages sent hcarries _ ih =>
    obtain ⟨⟨before, rfl, hbefore⟩, hfit⟩ := hcarries
    by_cases hto : d.opener = identity
    · have haddressed : addressed identity (d.opener :: (before ++ [d.call.buffer d.sequenceId])) =
          some (before ++ [d.call.buffer d.sequenceId]) := if_pos hto
      have hjunk : before.flatMap frameDelivered = [] :=
        List.flatMap_eq_nil_iff.mpr fun f hf => frameDelivered_noNul (hbefore f hf)
      rw [List.filterMap_cons_some haddressed, List.flatMap_cons, List.map_append, flagged_fst,
        List.flatMap_append, ih, List.flatMap_append, hjunk, List.flatMap_singleton,
        frameDelivered_buffer hfit, List.filter_cons_of_pos (by simpa using hto)]
      rfl
    · have haddressed : addressed identity (d.opener :: (before ++ [d.call.buffer d.sequenceId])) =
          none := if_neg hto
      rw [List.filterMap_cons_none haddressed, ih, List.filter_cons_of_neg (by simpa using hto)]

/-- What the worker with this identity is handed when it polls its socket empty. -/
def heardBy (worker : VomWorkerTransport) (identity : Frame) (s : RouterSession) :
    List (VomRouterEnvelope × List UInt8) :=
  let inbox := dealerInbox identity s.out.sent
  pollsDelivered (pollTimes inbox.stream.length (worker, inbox)).2

/-- A worker hears the sends whose messages were opened with its identity. -/
theorem heardBy_eq {worker : VomWorkerTransport} (hs : worker.hasSock = true) (identity : Frame)
    {s : RouterSession} {sent : List SentCall} (h : Wired s sent) :
    heardBy worker identity s = (sent.filter (·.opener = identity)).map SentCall.message := by
  unfold heardBy dealerInbox
  dsimp only
  rw [polls_stream _ _ _ hs]
  exact delivered_carried identity h.carries

/-! ## 5. Numbers -/

/-- The numbers of the sends rise, and stay below the next one, which has not gone round yet. -/
structure Numbered (n : Nat) (s : RouterSession) (sent : List SentCall) : Prop where
  next : s.router.nextSeqId.toNat ≤ n + 1
  below : ∀ d ∈ sent, d.sequenceId.toNat < s.router.nextSeqId.toNat
  rising : sent.Pairwise fun d e => d.sequenceId.toNat < e.sequenceId.toNat

theorem numbered_next {n : Nat} {s : RouterSession} {sent : List SentCall} (h : Numbered n s sent)
    (hn : n + 1 < 2 ^ 64 - 1) (op : RouterOp) :
    Numbered (n + 1) (routerMachine.next s op) (sent ++ sentCalls s op) := by
  have hnext := h.next
  have hsucc : (s.router.nextSeqId + 1).toNat = s.router.nextSeqId.toNat + 1 := by
    rw [UInt64.toNat_add, UInt64.toNat_one]
    exact Nat.mod_eq_of_lt (by omega)
  -- a call without a send keeps the number or counts it up
  have hquiet : ∀ s' : RouterSession, (s'.router.nextSeqId = s.router.nextSeqId ∨
      s'.router.nextSeqId = s.router.nextSeqId + 1) → Numbered (n + 1) s' (sent ++ []) := by
    intro s' hnumber
    rw [List.append_nil]
    have hle : s.router.nextSeqId.toNat ≤ s'.router.nextSeqId.toNat ∧
        s'.router.nextSeqId.toNat ≤ n + 1 + 1 := by
      rcases hnumber with hnumber | hnumber
      · rw [hnumber]
        omega
      · rw [hnumber, hsucc]
        omega
    exact ⟨hle.2, fun d hd => lt_of_lt_of_le (h.below d hd) hle.1, h.rising⟩
  have hstep := router_step s op
  generalize routerMachine.next s op = s', sentCalls s op = new at hstep ⊢
  cases hstep with
  | quiet router hnumber => exact hquiet _ hnumber
  | renewed router hnumber => exact hquiet _ (Or.inl hnumber)
  | cut router hnumber frames hframes => exact hquiet _ (Or.inr hnumber)
  | sent router hnumber workerId call hfit =>
    have hrouter : router.nextSeqId.toNat = s.router.nextSeqId.toNat + 1 := by rw [hnumber, hsucc]
    refine ⟨?_, fun d hd => ?_, ?_⟩
    · change router.nextSeqId.toNat ≤ _
      omega
    · change d.sequenceId.toNat < router.nextSeqId.toNat
      rcases List.mem_append.mp hd with hd | hd
      · have := h.below d hd
        omega
      · rw [List.mem_singleton.mp hd]
        change s.router.nextSeqId.toNat < _
        omega
    · refine List.pairwise_append.mpr ⟨h.rising, List.pairwise_singleton _ _, fun d hd e he => ?_⟩
      rw [List.mem_singleton.mp he]
      exact h.below d hd

theorem numbered_run (ops : List RouterOp) (hlen : ops.length < 2 ^ 64 - 1) :
    Numbered ops.length (routerMachine.run routerCreated ops)
      (routerMachine.log sentCalls routerCreated ops) := by
  induction ops using List.reverseRecOn with
  | nil => exact ⟨Nat.le_refl 1, fun d hd => absurd hd List.not_mem_nil, List.Pairwise.nil⟩
  | append_singleton ops op ih =>
    rw [List.length_append, List.length_singleton] at hlen ⊢
    have h := numbered_next (ih (by omega)) hlen op
    rw [routerMachine.run_append, routerMachine.log_append]
    simpa [Machine.log] using h

theorem Numbered.inj {n : Nat} {s : RouterSession} {sent : List SentCall} (h : Numbered n s sent)
    {d e : SentCall} (hd : d ∈ sent) (he : e ∈ sent) (heq : d.sequenceId = e.sequenceId) : d = e := by
  have hnodup : (sent.map (·.sequenceId)).Nodup := List.pairwise_map.mpr
    (h.rising.imp fun hlt heq => absurd (congrArg UInt64.toNat heq) (Nat.ne_of_lt hlt))
  exact List.inj_on_of_nodup_map hnodup hd he heq

/-! ## 6. Who hears what -/

/-- **Every worker hears its own messages, unless a send goes on with another's.** Over a lossless
    ROUTER/DEALER pair, after any calls on a router, fewer than `2 ^ 64 - 1` of them, whatever the
    sockets answer: every worker, polling its
    socket empty, is handed exactly the messages whose sends to it succeeded, in order, exactly when
    every send that succeeded found no open message on the socket, or one that a send to its own worker
    had opened. -/
theorem workers_hear_their_own_iff (ops : List RouterOp) (hlen : ops.length < 2 ^ 64 - 1)
    (worker : VomWorkerTransport) (hs : worker.hasSock = true) :
    (∀ workerId : CStr, heardBy worker workerId.bytes (routerMachine.run routerCreated ops) =
      ((routerMachine.log sentCalls routerCreated ops).filter (·.workerId = workerId)).map
        SentCall.message) ↔
      routerMachine.Legal OpensOwn routerCreated ops := by
  have hwired := wired_run ops
  have hnumbered := numbered_run ops hlen
  rw [show routerMachine.Legal OpensOwn routerCreated ops ↔ _ from routerMachine.log_iff_legal.symm]
  generalize routerMachine.run routerCreated ops = s,
    routerMachine.log sentCalls routerCreated ops = sent at hwired hnumbered ⊢
  constructor
  · intro h d hd
    -- the message of the send is among those its worker heard, and its number tells which one it is
    have hheard : d.message ∈ heardBy worker d.workerId.bytes s := by
      rw [h d.workerId]
      exact List.mem_map_of_mem (List.mem_filter.mpr ⟨hd, by simp⟩)
    rw [heardBy_eq hs _ hwired] at hheard
    obtain ⟨e, he, hmessage⟩ := List.mem_map.mp hheard
    obtain ⟨he, hopener⟩ := List.mem_filter.mp he
    have hnumber : e.sequenceId = d.sequenceId :=
      congrArg (fun m : VomRouterEnvelope × List UInt8 => m.1.sequenceId) hmessage
    rw [hnumbered.inj he hd hnumber] at hopener
    exact of_decide_eq_true hopener
  · intro h workerId
    rw [heardBy_eq hs _ hwired]
    refine congrArg (List.map SentCall.message) (List.filter_congr fun d hd => ?_)
    rw [h d hd]
    exact decide_eq_decide.mpr ⟨fun e => CStr.ext e, congrArg CStr.bytes⟩

theorem secondId_noNul : ∀ b ∈ ([119, 50] : List UInt8), b ≠ 0 := by simp

/-- A send to the first worker is cut off after the identity, then one to `workerId` succeeds. -/
def cutOffRun (workerId : CStr) : List RouterOp :=
  [.start true true, .send ⟨[119, 49], connectedId_noNul⟩ heartbeatCall (· == 0),
    .send workerId heartbeatCall fun _ => true]

theorem workers_hear_their_own_iff_cutOffRun :
    (∀ workerId : CStr, heardBy connectedWorker workerId.bytes
      (routerMachine.run routerCreated (cutOffRun ⟨[119, 49], connectedId_noNul⟩)) =
        ((routerMachine.log sentCalls routerCreated
          (cutOffRun ⟨[119, 49], connectedId_noNul⟩)).filter (·.workerId = workerId)).map
            SentCall.message) ∧
    ¬ ∀ workerId : CStr, heardBy connectedWorker workerId.bytes
      (routerMachine.run routerCreated (cutOffRun ⟨[119, 50], secondId_noNul⟩)) =
        ((routerMachine.log sentCalls routerCreated
          (cutOffRun ⟨[119, 50], secondId_noNul⟩)).filter (·.workerId = workerId)).map
            SentCall.message :=
  ⟨(workers_hear_their_own_iff _ (by decide) connectedWorker rfl).mpr (by decide),
    mt (workers_hear_their_own_iff _ (by decide) connectedWorker rfl).mp (by decide)⟩

end VoidOsMerger
