/-
  File:      VoidOsMerger/Transport/Pairing.lean
  Subject:   THE TWO ENDS PUT TOGETHER over a lossless ROUTER/DEALER pair.

  The worker sends its buffer as a single frame; the router waits for an empty frame between the
  identity and the buffer. The router sends that empty frame; the worker takes it for a message.

  * **`runOnce_drops`** -- whatever a connected worker sends, `vom_master_router_run_once` drops
    message after message and calls nobody;
  * **`polls_deliver`** -- what the router sends does reach the worker's `msg_cb`, whole and in order,
    with an error before each message;
  * **`pairing_iff`** -- so the two ends understand each other exactly when nothing is sent.
-/
import VoidOsMerger.Transport.Envelope

namespace VoidOsMerger

/-! ## 1. Both sides at work -/

/-- The outcome of a list of `vom_worker_transport_send` calls that the socket accepts. -/
def workerSends : List SendCall → VomWorkerTransport → Outbox → Outbox
  | [], _, out => out
  | c :: cs, ctx, out =>
    let r := vomWorkerTransportSend true c ctx out
    workerSends cs r.2.1 r.2.2

/-- The outcome of a list of `vom_master_router_send_to_worker` calls that the socket accepts. -/
def masterSends (workerId : CStr) : List SendCall → VomMasterRouter → Outbox → Outbox
  | [], _, out => out
  | c :: cs, ctx, out =>
    let r := vomMasterRouterSendToWorker (fun _ => true) workerId c ctx out
    masterSends workerId cs r.2.1 r.2.2

/-- A socket on which nothing has been sent. -/
def emptyOutbox : Outbox := { opened := [], sent := [] }

/-- `n` calls of `vom_master_router_run_once`. -/
def runOnceTimes (ctx : VomMasterRouter) : Nat → Inbox → Option (Inbox × List RunOnce)
  | 0, inbox => some (inbox, [])
  | n + 1, inbox =>
    (vomMasterRouterRunOnce ctx inbox).bind fun r =>
      (runOnceTimes ctx n r.1).map fun rs => (rs.1, r.2 :: rs.2)

/-- `n` calls of `vom_worker_transport_poll`. -/
def pollTimes : Nat → VomWorkerTransport × Inbox → (VomWorkerTransport × Inbox) × List Poll
  | 0, s => (s, [])
  | n + 1, s =>
    let r := vomWorkerTransportPoll s.1 s.2
    let rs := pollTimes n r.1
    (rs.1, r.2 :: rs.2)

/-- The code and payload a `msg_cb` call hands over: `payload_length` bytes at the pointer. -/
def RouterCall.message : RouterCall → Option (UInt16 × List UInt8)
  | .event _ _ => none
  | .msg _ env payload => some (env.messageCode, payload.take env.payloadLength.toNat)

def TransportCall.message : TransportCall → Option (UInt16 × List UInt8)
  | .event _ => none
  | .msg env payload => some (env.messageCode, payload.take env.payloadLength.toNat)

/-- The messages `n` results of `vom_master_router_run_once` hand over. -/
def runOnceMessages (rs : List RunOnce) : List (UInt16 × List UInt8) :=
  rs.flatMap fun r => r.calls.filterMap RouterCall.message

/-- The messages `n` results of `vom_worker_transport_poll` hand over. -/
def pollMessages (rs : List Poll) : List (UInt16 × List UInt8) :=
  rs.flatMap fun r => r.calls.filterMap TransportCall.message

/-- The messages a list of send calls asks for. -/
def sentMessages (cs : List SendCall) : List (UInt16 × List UInt8) :=
  cs.map fun c => (c.code.code, c.payload)

/-- What the master's socket holds after the worker's calls. -/
def masterArrivals (worker : VomWorkerTransport) (cs : List SendCall) : Inbox :=
  routerInbox ((workerSends cs worker emptyOutbox).sent.map fun m => (worker.workerId.str.bytes, m))

/-- What the worker's socket holds after the master's calls. -/
def workerArrivals (router : VomMasterRouter) (worker : VomWorkerTransport) (cs : List SendCall) :
    Inbox :=
  dealerInbox worker.workerId.str.bytes
    (masterSends worker.workerId.str cs router emptyOutbox).sent

/-- Repeated `run_once` calls empty the socket and hand over exactly the messages sent, in order,
    without an error status or a fault event. -/
def MasterReceives (router : VomMasterRouter) (worker : VomWorkerTransport) (cs : List SendCall) :
    Prop :=
  ∃ n inbox rs, runOnceTimes router n (masterArrivals worker cs) = some (inbox, rs) ∧
    inbox.stream = [] ∧ runOnceMessages rs = sentMessages cs ∧ (∀ r ∈ rs, r.status = .success) ∧
    ∀ r ∈ rs, ∀ w, RouterCall.event w .transportFault ∉ r.calls

/-- The same on the worker, for repeated `poll` calls. -/
def WorkerReceives (router : VomMasterRouter) (worker : VomWorkerTransport) (cs : List SendCall) :
    Prop :=
  ∃ n s rs, pollTimes n (worker, workerArrivals router worker cs) = (s, rs) ∧
    s.2.stream = [] ∧ pollMessages rs = sentMessages cs ∧ (∀ r ∈ rs, r.status = .success) ∧
    ∀ r ∈ rs, TransportCall.event .error ∉ r.calls

/-- The buffers of consecutive calls, numbered from `sequenceId` on. -/
def buffersFrom : UInt64 → List SendCall → List Frame
  | _, [] => []
  | sequenceId, c :: cs => c.buffer sequenceId :: buffersFrom (sequenceId + 1) cs

/-! ## 2. From the worker to the master -/

/-- The last frame closes its message. -/
theorem Outbox.send_last (out : Outbox) (ho : out.opened = []) (frame : Frame) :
    out.send frame false = { opened := [], sent := out.sent ++ [[frame]] } := by
  simp [Outbox.send, ho]

theorem Outbox.send_three (out : Outbox) (ho : out.opened = []) (identity delimiter frame : Frame) :
    ((out.send identity true).send delimiter true).send frame false =
      { opened := [], sent := out.sent ++ [[identity, delimiter, frame]] } := by
  simp [Outbox.send, ho]

section Up

/-- A connected worker sends every message as a single frame. -/
theorem workerSends_sent : ∀ (cs : List SendCall) (ctx : VomWorkerTransport) (out : Outbox),
    ctx.hasSock = true → ctx.isConnected = true → out.opened = [] →
    (∀ c ∈ cs, c.payload.length ≤ payloadMaxLen) →
    (workerSends cs ctx out).sent = out.sent ++ (buffersFrom ctx.nextSeqId cs).map ([·])
  | [], _, out, _, _, _, _ => (List.append_nil _).symm
  | c :: cs, ctx, out, hs, hc, ho, hfit => by
      unfold workerSends
      rw [workerSend_eq hs hc (hfit c List.mem_cons_self), out.send_last ho]
      rw [workerSends_sent cs { ctx with nextSeqId := ctx.nextSeqId + 1 } _ hs hc rfl
        fun d hd => hfit d (List.mem_cons_of_mem _ hd), List.append_assoc]
      rfl

/-- A message of identity and buffer: the router takes the buffer for the delimiter, finds no further
    frame, and drops both. -/
theorem runOnce_short {router : VomMasterRouter} (hs : router.hasSock = true)
    (hr : router.isRunning = true) {identity buffer : Frame} (hid : identity.length < routerIdMaxLen)
    (stream : List (Frame × Bool)) (more : Bool) :
    vomMasterRouterRunOnce router ⟨flagged [identity, buffer] ++ stream, more⟩ =
      some (⟨stream, false⟩, ⟨.errSize, []⟩) := by
  simp [vomMasterRouterRunOnce, hs, hr, flagged, Inbox.recv, Nat.not_le.mpr hid]

/-- **Whatever the worker sends, the router calls nobody**: every message is dropped. -/
theorem runOnce_drops {router : VomMasterRouter} (hs : router.hasSock = true)
    (hr : router.isRunning = true) {identity : Frame} (hid : identity.length < routerIdMaxLen) :
    ∀ (n : Nat) (buffers : List Frame) (more : Bool), ∃ inbox rs,
      runOnceTimes router n
        ⟨buffers.flatMap fun b => flagged [identity, b], more⟩ = some (inbox, rs) ∧
      ∀ r ∈ rs, r.calls = []
  | 0, _, _ => ⟨_, [], rfl, by simp⟩
  | n + 1, [], more => by
      have hidle : vomMasterRouterRunOnce router ⟨[], more⟩ = some (⟨[], more⟩, ⟨.success, []⟩) := by
        simp [vomMasterRouterRunOnce, hs, hr, Inbox.recv]
      obtain ⟨inbox, rs, hrun, hcalls⟩ := runOnce_drops hs hr hid n [] more
      refine ⟨inbox, ⟨.success, []⟩ :: rs, ?_, by simpa using hcalls⟩
      rw [List.flatMap_nil] at hrun ⊢
      rw [runOnceTimes, hidle, Option.bind_some, hrun]
      rfl
  | n + 1, b :: bs, more => by
      obtain ⟨inbox, rs, hrun, hcalls⟩ := runOnce_drops hs hr hid n bs false
      refine ⟨inbox, ⟨.errSize, []⟩ :: rs, ?_, by simpa using hcalls⟩
      rw [List.flatMap_cons, runOnceTimes, runOnce_short hs hr hid, Option.bind_some, hrun]
      rfl

/-- The master gets what a worker sends exactly when it sends nothing. -/
theorem masterReceives_iff {router : VomMasterRouter} (hs : router.hasSock = true)
    (hr : router.isRunning = true) {worker : VomWorkerTransport} (hw : worker.hasSock = true)
    (hc : worker.isConnected = true) {cs : List SendCall}
    (hfit : ∀ c ∈ cs, c.payload.length ≤ payloadMaxLen) :
    MasterReceives router worker cs ↔ cs = [] := by
  constructor
  · rintro ⟨n, inbox, rs, hrun, _, hmsgs, _⟩
    have hstream : masterArrivals worker cs = ⟨(buffersFrom worker.nextSeqId cs).flatMap
        fun b => flagged [worker.workerId.str.bytes, b], false⟩ := by
      unfold masterArrivals routerInbox
      rw [workerSends_sent cs worker emptyOutbox hw hc rfl hfit]
      simp [emptyOutbox, List.flatMap_map]
    obtain ⟨inbox', rs', hrun', hcalls⟩ :=
      runOnce_drops hs hr worker.workerId.strlen_lt n (buffersFrom worker.nextSeqId cs) false
    rw [hstream, hrun', Option.some.injEq, Prod.mk.injEq] at hrun
    obtain ⟨-, rfl⟩ := hrun
    have hnone : runOnceMessages rs' = [] :=
      List.flatMap_eq_nil_iff.mpr fun r hmem => by rw [hcalls r hmem]; rfl
    rw [hnone] at hmsgs
    exact List.map_eq_nil_iff.mp hmsgs.symm
  · rintro rfl
    exact ⟨0, _, [], rfl, rfl, rfl, by simp, by simp⟩

end Up

/-! ## 3. From the master to the worker -/

section Down

/-- A running router sends every message as identity, empty frame and buffer. -/
theorem masterSends_sent (workerId : CStr) : ∀ (cs : List SendCall) (ctx : VomMasterRouter)
    (out : Outbox), ctx.hasSock = true → ctx.isRunning = true → out.opened = [] →
    (∀ c ∈ cs, c.payload.length ≤ payloadMaxLen) →
    (masterSends workerId cs ctx out).sent =
      out.sent ++ (buffersFrom ctx.nextSeqId cs).map fun b => [workerId.bytes, [], b]
  | [], _, out, _, _, _, _ => (List.append_nil _).symm
  | c :: cs, ctx, out, hs, hr, ho, hfit => by
      unfold masterSends
      rw [routerSend_eq hs hr workerId (hfit c List.mem_cons_self), out.send_three ho]
      rw [masterSends_sent workerId cs { ctx with nextSeqId := ctx.nextSeqId + 1 } _ hs hr rfl
        fun d hd => hfit d (List.mem_cons_of_mem _ hd), List.append_assoc]
      rfl

theorem workerArrivals_eq {router : VomMasterRouter} (hs : router.hasSock = true)
    (hr : router.isRunning = true) (worker : VomWorkerTransport) {cs : List SendCall}
    (hfit : ∀ c ∈ cs, c.payload.length ≤ payloadMaxLen) :
    workerArrivals router worker cs =
      ⟨(buffersFrom router.nextSeqId cs).flatMap fun b => flagged [[], b], false⟩ := by
  unfold workerArrivals dealerInbox
  rw [masterSends_sent worker.workerId.str cs router emptyOutbox hs hr rfl hfit]
  simp [emptyOutbox, List.filterMap_map, addressed, List.flatMap_map, Function.comp_def]

theorem payloadLength_envelope {c : SendCall} (hfit : c.payload.length ≤ payloadMaxLen)
    (sequenceId : UInt64) : (c.envelope sequenceId).payloadLength.toNat = c.payload.length := by
  have hlt : c.payload.length < 2 ^ 32 := lt_of_le_of_lt hfit (by decide)
  rw [SendCall.envelope, UInt32.toNat_ofNat', Nat.mod_eq_of_lt hlt]

/-- The empty frame: an error, and nothing else. -/
theorem poll_empty {ctx : VomWorkerTransport} (hs : ctx.hasSock = true) (more m : Bool)
    (stream : List (Frame × Bool)) :
    vomWorkerTransportPoll ctx ⟨([], more) :: stream, m⟩ =
      ((ctx, ⟨stream, more⟩), ⟨.errSize, [.event .error]⟩) := by
  simp [vomWorkerTransportPoll, hs, Inbox.recv, envelopeCodec_size]

/-- The buffer: its message is handed over whole. -/
theorem poll_buffer {ctx : VomWorkerTransport} (hs : ctx.hasSock = true) {c : SendCall}
    (hfit : c.payload.length ≤ payloadMaxLen) (sequenceId : UInt64) (more m : Bool)
    (stream : List (Frame × Bool)) :
    vomWorkerTransportPoll ctx ⟨(c.buffer sequenceId, more) :: stream, m⟩ =
      (((transportAccept c.code.code ctx).1, ⟨stream, more⟩),
        ⟨.success, ((transportAccept c.code.code ctx).2.map TransportCall.event).toList ++
          [.msg (c.envelope sequenceId) c.payload]⟩) := by
  have hlen : (c.buffer sequenceId).length = envelopeCodec.size + c.payload.length :=
    length_encode c.code.code sequenceId c.nowMs c.payload
  have hwhole : (c.buffer sequenceId).take receiveBufferLen = c.buffer sequenceId :=
    List.take_of_length_le (by rw [hlen]; exact Nat.add_le_add_left hfit _)
  have henv : envelopeCodec.dec ((c.buffer sequenceId).take envelopeCodec.size) =
      c.envelope sequenceId := frameHeader_encode _ _ _ _
  have hrest : (c.buffer sequenceId).drop envelopeCodec.size = c.payload := drop_encode _ _ _ _
  have hsize : ¬ (c.buffer sequenceId).length < envelopeCodec.size := by omega
  have hversion : ¬ (c.envelope sequenceId).protocolVersion ≠ 1 := not_not.mpr rfl
  have hmatch : ¬ (envelopeCodec.size + (c.envelope sequenceId).payloadLength.toNat ≠
      (c.buffer sequenceId).length) := not_not.mpr (by rw [payloadLength_envelope hfit, hlen])
  unfold vomWorkerTransportPoll
  rw [if_neg (by simp [hs])]
  dsimp only [Inbox.recv]
  rw [hwhole, if_neg hsize, henv, if_neg hversion, if_neg hmatch, hrest]
  rfl

/-- The statuses of polling `n` messages: an error before each. -/
def alternating : Nat → List VomTransportStatus
  | 0 => []
  | n + 1 => .errSize :: .success :: alternating n

theorem transportAccept_hasSock (code : UInt16) (ctx : VomWorkerTransport) :
    (transportAccept code ctx).1.hasSock = ctx.hasSock := by
  unfold transportAccept
  split
  · rfl
  · split
    · rfl
    · split <;> rfl

/-- Of the callbacks for an accepted buffer, one hands over a message: the one that was sent. -/
theorem accepted_messages (sequenceId : UInt64) (ctx : VomWorkerTransport) {c : SendCall}
    (hc : c.payload.length ≤ payloadMaxLen) :
    (((transportAccept c.code.code ctx).2.map TransportCall.event).toList ++
      [TransportCall.msg (c.envelope sequenceId) c.payload]).filterMap TransportCall.message =
      [(c.code.code, c.payload)] := by
  have hmessage : TransportCall.message (.msg (c.envelope sequenceId) c.payload) =
      some (c.code.code, c.payload) := by
    rw [TransportCall.message, payloadLength_envelope hc, List.take_length]
    rfl
  cases (transportAccept c.code.code ctx).2 with
  | none => exact List.filterMap_cons_some hmessage
  | some e =>
      rw [Option.map_some, Option.toList_some, List.singleton_append,
        List.filterMap_cons_none rfl, List.filterMap_cons_some hmessage]
      rfl

/-- **What the router sends is handed over whole and in order, with an error before each message.** -/
theorem polls_deliver : ∀ (cs : List SendCall) (sequenceId : UInt64) (ctx : VomWorkerTransport)
    (m : Bool), ctx.hasSock = true → (∀ c ∈ cs, c.payload.length ≤ payloadMaxLen) →
    ∃ s rs, pollTimes (2 * cs.length)
        (ctx, ⟨(buffersFrom sequenceId cs).flatMap fun b => flagged [[], b], m⟩) = (s, rs) ∧
      s.2.stream = [] ∧ pollMessages rs = sentMessages cs ∧
      rs.map (·.status) = alternating cs.length
  | [], _, ctx, m, _, _ => ⟨_, [], rfl, rfl, rfl, rfl⟩
  | c :: cs, sequenceId, ctx, m, hs, hfit => by
      have hkeep := (transportAccept_hasSock c.code.code ctx).trans hs
      have hc := hfit c List.mem_cons_self
      obtain ⟨s, rs, hrun, hempty, hmsgs, hstatus⟩ := polls_deliver cs (sequenceId + 1)
        (transportAccept c.code.code ctx).1 false hkeep fun d hd => hfit d (List.mem_cons_of_mem _ hd)
      refine ⟨s, ⟨.errSize, [.event .error]⟩ :: ⟨.success,
        ((transportAccept c.code.code ctx).2.map TransportCall.event).toList ++
          [.msg (c.envelope sequenceId) c.payload]⟩ :: rs, ?_, hempty, ?_, ?_⟩
      · show pollTimes (2 * cs.length + 1 + 1) (ctx, ⟨([], true) :: (c.buffer sequenceId, false) ::
          (buffersFrom (sequenceId + 1) cs).flatMap fun b => flagged [[], b], m⟩) = _
        rw [pollTimes, poll_empty hs, pollTimes]
        dsimp only
        rw [poll_buffer hs hc]
        dsimp only
        rw [hrun]
      · show [] ++ (List.filterMap TransportCall.message _ ++ pollMessages rs) = _
        rw [accepted_messages sequenceId ctx hc, hmsgs]
        rfl
      · rw [List.map_cons, List.map_cons, hstatus]
        rfl

/-- The worker gets what the master sends, without an error, exactly when it sends nothing. -/
theorem workerReceives_iff {router : VomMasterRouter} (hs : router.hasSock = true)
    (hr : router.isRunning = true) {worker : VomWorkerTransport} (hw : worker.hasSock = true)
    {cs : List SendCall} (hfit : ∀ c ∈ cs, c.payload.length ≤ payloadMaxLen) :
    WorkerReceives router worker cs ↔ cs = [] := by
  constructor
  · rintro ⟨n, s, rs, hrun, _, hmsgs, hok, _⟩
    cases cs with
    | nil => rfl
    | cons c cs =>
        rw [workerArrivals_eq hs hr worker hfit] at hrun
        cases n with
        | zero =>
            obtain ⟨-, rfl⟩ := Prod.mk.inj hrun
            cases hmsgs
        | succ n =>
            -- the first poll takes the empty frame
            have hfirst : pollTimes (n + 1) (worker, ⟨([], true) ::
                (c.buffer router.nextSeqId, false) ::
                (buffersFrom (router.nextSeqId + 1) cs).flatMap fun b => flagged [[], b], false⟩) =
                (s, rs) := hrun
            rw [pollTimes, poll_empty hw] at hfirst
            obtain ⟨-, rfl⟩ := Prod.mk.inj hfirst
            cases hok _ List.mem_cons_self
  · rintro rfl
    exact ⟨0, _, [], rfl, rfl, rfl, by simp, by simp⟩

end Down

/-! ## 4. Both directions -/

/-- **The two ends understand each other exactly when nothing is sent**, in either direction: with a
    connected worker and a running router, every message up is lost and every message down comes with
    an error. -/
theorem pairing_iff (router : VomMasterRouter) (worker : VomWorkerTransport)
    (hrouter : router.hasSock = true ∧ router.isRunning = true)
    (hworker : worker.hasSock = true ∧ worker.isConnected = true) (up down : List SendCall)
    (hup : ∀ c ∈ up, c.payload.length ≤ payloadMaxLen)
    (hdown : ∀ c ∈ down, c.payload.length ≤ payloadMaxLen) :
    (MasterReceives router worker up ∧ WorkerReceives router worker down) ↔
      (up = [] ∧ down = []) := by
  rw [masterReceives_iff hrouter.1 hrouter.2 hworker.1 hworker.2 hup,
    workerReceives_iff hrouter.1 hrouter.2 hworker.1 hdown]

/-- A router after `vom_master_router_start`. -/
def startedRouter : VomMasterRouter := { hasSock := true, nextSeqId := 1, isRunning := true }

theorem connectedId_noNul : ∀ b ∈ ([119, 49] : List UInt8), b ≠ 0 := by simp

/-- A worker `w1` after `vom_worker_transport_connect`. -/
def connectedWorker : VomWorkerTransport where
  hasSock := true
  workerId := NulBuf.copy 63 ⟨[119, 49], connectedId_noNul⟩
  nextSeqId := 1
  isConnected := true
  isAuthenticated := false
  isJoined := false

/-- A heartbeat without payload. -/
def heartbeatCall : SendCall := { code := .heartbeat, payload := [], nowMs := 1000 }

theorem pairing_iff_heartbeat :
    (MasterReceives startedRouter connectedWorker [heartbeatCall] ∧
      WorkerReceives startedRouter connectedWorker [heartbeatCall]) ↔
      ([heartbeatCall] = [] ∧ [heartbeatCall] = []) :=
  pairing_iff startedRouter connectedWorker ⟨rfl, rfl⟩ ⟨rfl, rfl⟩ [heartbeatCall] [heartbeatCall]
    (by decide) (by decide)

/-- **One heartbeat is enough to see it, in either direction.** -/
theorem heartbeat_not_understood :
    ¬ (∀ (router : VomMasterRouter) (worker : VomWorkerTransport),
      router.hasSock = true ∧ router.isRunning = true →
      worker.hasSock = true ∧ worker.isConnected = true → ∀ up : List SendCall,
      (∀ c ∈ up, c.payload.length ≤ payloadMaxLen) → MasterReceives router worker up) ∧
    ¬ (∀ (router : VomMasterRouter) (worker : VomWorkerTransport),
      router.hasSock = true ∧ router.isRunning = true →
      worker.hasSock = true ∧ worker.isConnected = true → ∀ down : List SendCall,
      (∀ c ∈ down, c.payload.length ≤ payloadMaxLen) → WorkerReceives router worker down) := by
  have hfit : ∀ c ∈ [heartbeatCall], c.payload.length ≤ payloadMaxLen := by decide
  constructor
  · intro h
    have := h startedRouter connectedWorker ⟨rfl, rfl⟩ ⟨rfl, rfl⟩ [heartbeatCall] hfit
    cases (masterReceives_iff rfl rfl rfl rfl hfit).mp this
  · intro h
    have := h startedRouter connectedWorker ⟨rfl, rfl⟩ ⟨rfl, rfl⟩ [heartbeatCall] hfit
    cases (workerReceives_iff rfl rfl rfl hfit).mp this

end VoidOsMerger
