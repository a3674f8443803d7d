/-
  File:      VoidOsMerger/Transport/Model.lean
  Subject:   THE MASTER'S ROUTER AND THE WORKER'S TRANSPORT (master/src/router.c,
             worker/src/transport.c).

  Both ends send an envelope of 24 bytes followed by the payload. The sockets are the frame streams
  of `Base.Frames`. `zmq_recv` copies at most the buffer's size and answers the frame's full size;
  a send that fails leaves the socket as it was. Callbacks are recorded as calls, in order.
-/
import VoidOsMerger.Base.CText
import VoidOsMerger.Base.Codec
import VoidOsMerger.Base.Frames
import VoidOsMerger.Base.Run

namespace VoidOsMerger

/-! ## 1. Envelopes -/

/-- `vom_router_envelope_t`, and `vom_transport_envelope_t` with the same layout. -/
structure VomRouterEnvelope where
  protocolVersion : UInt16
  messageCode : UInt16
  payloadLength : UInt32
  sequenceId : UInt64
  timestampMs : UInt64
  deriving DecidableEq, Repr

/-- The 24 bytes of an envelope; the fields leave no padding. -/
def envelopeCodec : Codec VomRouterEnvelope :=
  (Codec.u16.pair (Codec.u16.pair (Codec.u32.pair (Codec.u64.pair Codec.u64)))).map
    (fun t => ⟨t.1, t.2.1, t.2.2.1, t.2.2.2.1, t.2.2.2.2⟩)
    (fun e => (e.protocolVersion, e.messageCode, e.payloadLength, e.sequenceId, e.timestampMs))
    fun _ => rfl

theorem envelopeCodec_size : envelopeCodec.size = 24 := rfl

/-- `ROUTER_PAYLOAD_MAX_LEN` and `TRANSPORT_BUFFER_MAX` -/
def payloadMaxLen : Nat := 4096

/-- The size of the receive buffers: an envelope and the longest payload. -/
def receiveBufferLen : Nat := envelopeCodec.size + payloadMaxLen

/-- `VomRouterMsgCode`, and `VomMsgCode` with the same values. -/
inductive VomRouterMsgCode
  | authReq | authResp | joinReq | joinResp | heartbeat | chunkAssign | chunkAck | chunkReport
  deriving DecidableEq, Repr

def VomRouterMsgCode.code : VomRouterMsgCode → UInt16
  | .authReq => 1
  | .authResp => 2
  | .joinReq => 3
  | .joinResp => 4
  | .heartbeat => 5
  | .chunkAssign => 6
  | .chunkAck => 7
  | .chunkReport => 8

/-- A call of one of the two send functions: its arguments and the time it reads. -/
structure SendCall where
  code : VomRouterMsgCode
  payload : List UInt8
  nowMs : UInt64
  deriving DecidableEq, Repr

/-- The envelope both ends write. -/
def SendCall.envelope (c : SendCall) (sequenceId : UInt64) : VomRouterEnvelope where
  protocolVersion := 1
  messageCode := c.code.code
  payloadLength := UInt32.ofNat c.payload.length
  sequenceId := sequenceId
  timestampMs := c.nowMs

/-- The message buffer both ends build. -/
def SendCall.buffer (c : SendCall) (sequenceId : UInt64) : Frame :=
  envelopeCodec.enc (c.envelope sequenceId) ++ c.payload

/-! ## 2. The master's router -/

/-- `ROUTER_ID_MAX_LEN` -/
def routerIdMaxLen : Nat := 64

inductive VomRouterEvent
  | workerJoined | workerHeartbeat | chunkProgress | chunkResult | workerFailure | cliControlReq
  | transportFault
  deriving DecidableEq, Repr

inductive VomRouterStatus
  | success | errVersion | errSize | errSocket | errTimeout
  deriving DecidableEq, Repr

structure VomMasterRouter where
  hasSock : Bool
  nextSeqId : UInt64
  isRunning : Bool
  deriving DecidableEq, Repr

/-- `vom_master_router_send_to_worker`; `rc i` says whether the `i`th `zmq_send` succeeds. -/
def vomMasterRouterSendToWorker (rc : Nat → Bool) (workerId : CStr) (c : SendCall)
    (ctx : VomMasterRouter) (out : Outbox) : VomRouterStatus × VomMasterRouter × Outbox :=
  if !ctx.hasSock || !ctx.isRunning then (.errSocket, ctx, out)
  else if c.payload.length > payloadMaxLen then (.errSize, ctx, out)
  else
    let buffer := c.buffer ctx.nextSeqId
    let ctx := { ctx with nextSeqId := ctx.nextSeqId + 1 }
    if !rc 0 then (.errSocket, ctx, out)
    else
      let out := out.send workerId.bytes true
      if !rc 1 then (.errSocket, ctx, out)
      else
        let out := out.send [] true
        if !rc 2 then (.errSocket, ctx, out)
        else (.success, ctx, out.send buffer false)

/-- A call of `event_cb` or `msg_cb`; the payload is what the receive buffer holds of the frame
    after the envelope. -/
inductive RouterCall
  | event (workerId : CStr) (event : VomRouterEvent)
  | msg (workerId : CStr) (envelope : VomRouterEnvelope) (payload : List UInt8)
  deriving DecidableEq

/-- What one `vom_master_router_run_once` answers and calls. -/
structure RunOnce where
  status : VomRouterStatus
  calls : List RouterCall
  deriving DecidableEq

/-- The event a message code raises. -/
def routerEventOf (messageCode : UInt16) : Option VomRouterEvent :=
  if messageCode = VomRouterMsgCode.joinReq.code then some .workerJoined
  else if messageCode = VomRouterMsgCode.heartbeat.code then some .workerHeartbeat
  else if messageCode = VomRouterMsgCode.chunkReport.code then some .chunkResult
  else none

/-- The part of `vom_master_router_run_once` after the payload frame is received into `pbuf`. The
    length check is in `unsigned int`. -/
def routerDecode (workerId : CStr) (frame : Frame) : RunOnce :=
  let pbuf := frame.take receiveBufferLen
  if frame.length < envelopeCodec.size then ⟨.errSize, [.event workerId .transportFault]⟩
  else
    let env := envelopeCodec.dec (pbuf.take envelopeCodec.size)
    if env.protocolVersion ≠ 1 then ⟨.errVersion, [.event workerId .transportFault]⟩
    else if UInt32.ofNat envelopeCodec.size + env.payloadLength ≠ UInt32.ofNat frame.length then
      ⟨.errSize, [.event workerId .transportFault]⟩
    else
      ⟨.success, ((routerEventOf env.messageCode).map (RouterCall.event workerId)).toList ++
        [.msg workerId env (pbuf.drop envelopeCodec.size)]⟩

/-- `vom_master_router_run_once`; `none` when `id_buf[bytes] = '\0'` writes outside `id_buf`. -/
def vomMasterRouterRunOnce (ctx : VomMasterRouter) (inbox : Inbox) : Option (Inbox × RunOnce) :=
  if !ctx.hasSock || !ctx.isRunning then some (inbox, ⟨.errSocket, []⟩)
  else
    match inbox.recv with
    | none => some (inbox, ⟨.success, []⟩)
    | some (idFrame, inbox) =>
      if routerIdMaxLen ≤ idFrame.length then none
      else if !inbox.more then some (inbox, ⟨.errSize, []⟩)
      else
        match inbox.recv with
        | none => some (inbox, ⟨.errSize, []⟩)
        | some (_, inbox) =>
          if !inbox.more then some (inbox, ⟨.errSize, []⟩)
          else
            let workerId := CStr.upTo idFrame
            match inbox.recv with
            | none => some (inbox, ⟨.errSize, [.event workerId .transportFault]⟩)
            | some (frame, inbox) => some (inbox, routerDecode workerId frame)

/-! ## 3. The worker's transport -/

inductive VomTransportEvent
  | connected | authenticated | joined | heartbeatSent | heartbeatAcked | disconnected | reconnecting
  | error
  deriving DecidableEq, Repr

inductive VomTransportStatus
  | success | errVersion | errAuth | errSize | errTimeout | errDisconnect
  deriving DecidableEq, Repr

structure VomWorkerTransport where
  hasSock : Bool
  workerId : NulBuf 64
  nextSeqId : UInt64
  isConnected : Bool
  isAuthenticated : Bool
  isJoined : Bool
  deriving DecidableEq

/-- `vom_worker_transport_send`; `rc` says whether `zmq_send` succeeds. -/
def vomWorkerTransportSend (rc : Bool) (c : SendCall) (ctx : VomWorkerTransport) (out : Outbox) :
    VomTransportStatus × VomWorkerTransport × Outbox :=
  if !ctx.hasSock || !ctx.isConnected then (.errDisconnect, ctx, out)
  else if c.payload.length > payloadMaxLen then (.errSize, ctx, out)
  else
    let buffer := c.buffer ctx.nextSeqId
    let ctx := { ctx with nextSeqId := ctx.nextSeqId + 1 }
    if !rc then (.errDisconnect, ctx, out) else (.success, ctx, out.send buffer false)

/-- A call of the worker's `event_cb` or `msg_cb`. -/
inductive TransportCall
  | event (event : VomTransportEvent)
  | msg (envelope : VomRouterEnvelope) (payload : List UInt8)
  deriving DecidableEq

/-- What one `vom_worker_transport_poll` answers and calls. -/
structure Poll where
  status : VomTransportStatus
  calls : List TransportCall
  deriving DecidableEq

/-- The flag a message code sets, and the event it raises. -/
def transportAccept (messageCode : UInt16) (ctx : VomWorkerTransport) :
    VomWorkerTransport × Option VomTransportEvent :=
  if messageCode = VomRouterMsgCode.authResp.code then
    ({ ctx with isAuthenticated := true }, some .authenticated)
  else if messageCode = VomRouterMsgCode.joinResp.code then
    ({ ctx with isJoined := true }, some .joined)
  else if messageCode = VomRouterMsgCode.heartbeat.code then (ctx, some .heartbeatAcked)
  else (ctx, none)

/-- `vom_worker_transport_poll`. The length check is in `size_t`. -/
def vomWorkerTransportPoll (ctx : VomWorkerTransport) (inbox : Inbox) :
    (VomWorkerTransport × Inbox) × Poll :=
  if !ctx.hasSock then ((ctx, inbox), ⟨.errDisconnect, []⟩)
  else
    match inbox.recv with
    | none => ((ctx, inbox), ⟨.success, []⟩)
    | some (frame, inbox) =>
      let buffer := frame.take receiveBufferLen
      if frame.length < envelopeCodec.size then ((ctx, inbox), ⟨.errSize, [.event .error]⟩)
      else
        let env := envelopeCodec.dec (buffer.take envelopeCodec.size)
        if env.protocolVersion ≠ 1 then ((ctx, inbox), ⟨.errVersion, [.event .error]⟩)
        else if envelopeCodec.size + env.payloadLength.toNat ≠ frame.length then
          ((ctx, inbox), ⟨.errSize, [.event .error]⟩)
        else
          let (ctx, event) := transportAccept env.messageCode ctx
          ((ctx, inbox), ⟨.success, (event.map TransportCall.event).toList ++
            [.msg env (buffer.drop envelopeCodec.size)]⟩)

end VoidOsMerger
