/-
  File:      VoidOsMerger/Master/Loop.lean
  Subject:   THE SHIPPED BINARIES ON THE WIRE: the worker's `send_envelope` (worker/src/main.c) and
             the master's event loop (master/src/main.c).

  One iteration of the loop takes an identity frame, a delimiter frame and a payload frame with three
  `zmq_recv` calls, the last two of which wait; it never asks whether the frames belong together.
  `none` is an iteration that does not end: it waits for a frame that has not come, or it accesses a
  buffer outside its bounds. What the stack buffers hold before the iteration is an argument.
-/
import VoidOsMerger.Base.Scanf
import VoidOsMerger.Transport.Model
import VoidOsMerger.ClusterState.Model

namespace VoidOsMerger

/-! ## 1. The worker's side -/

/-- The frame `send_envelope` sends: no sequence number, the time in whole seconds. -/
def sendEnvelope (code : VomRouterMsgCode) (payload : List UInt8) (timestampMs : UInt64) : Frame :=
  envelopeCodec.enc
    { protocolVersion := 1
      messageCode := code.code
      payloadLength := UInt32.ofNat payload.length
      sequenceId := 0
      timestampMs := timestampMs } ++ payload

/-- The payload of the worker's JOIN_REQ: four cores and 4 GiB. -/
def joinPayload : List UInt8 :=
  Codec.u32.enc 4 ++ Codec.u64.enc (4 * 1024 * 1024 * 1024)

/-- A message a worker sends, with the identity of its socket. -/
structure WorkerMessage where
  identity : CStr
  code : VomRouterMsgCode
  timestampMs : UInt64
  deriving DecidableEq

/-- The single frame of the message: a JOIN_REQ carries the capabilities, a HEARTBEAT nothing. -/
def WorkerMessage.frame (m : WorkerMessage) : Frame :=
  sendEnvelope m.code (if m.code = .joinReq then joinPayload else []) m.timestampMs

/-- A worker: its identity, and when it sends its JOIN_REQ and its HEARTBEATs. -/
structure WorkerRun where
  workerId : NulBuf 64
  joinMs : UInt64
  beatsMs : List UInt64
  deriving DecidableEq

/-- What a worker sends, in order. -/
def WorkerRun.messages (w : WorkerRun) : List WorkerMessage :=
  ⟨w.workerId.str, .joinReq, w.joinMs⟩ :: w.beatsMs.map fun t => ⟨w.workerId.str, .heartbeat, t⟩

/-! ## 2. The master's side -/

/-- `WAL_PATH_DEFAULT` -/
def walPathDefault : CStr :=
  CStr.upTo [109, 97, 115, 116, 101, 114, 95, 99, 108, 117, 115, 116, 101, 114, 46, 119, 97, 108]

/-- The variables of `main` that live across iterations. -/
structure MasterState where
  cluster : ClusterStateSnapshot
  inbox : Inbox
  outbox : Outbox
  files : Files
  lastSchedulerTickMs : UInt64
  lastWalPersistMs : UInt64

/-- What an iteration gets from its surroundings: the time, what the stack buffers hold, which sends
    succeed and what the write of the journal does. -/
structure MasterTick where
  nowMs : UInt64
  idBuf : Vector UInt8 64
  pbuf : Vector UInt8 receiveBufferLen
  sendOk : Nat → Bool
  persist : WriteOutcome

/-- What a buffer holds after `zmq_recv` into its first `n` bytes. -/
def recvInto (n : Nat) (frame : Frame) (old : List UInt8) : List UInt8 :=
  frame.take n ++ old.drop (min n frame.length)

/-- `id_buf` after the identity is received and terminated. -/
def idBufAfter (frame : Frame) (old : List UInt8) : List UInt8 :=
  (recvInto 63 frame old).set frame.length 0

/-- The number the loop takes for the worker: `atoi(id_buf + 7)`, and 1 for 0. -/
def workerNumber (idBuf : List UInt8) : UInt32 :=
  let n := uint32OfInt (atoi (CStr.upTo (idBuf.drop 7)))
  if n = 0 then 1 else n

/-- The resources a JOIN_REQ registers. -/
def joinResources (env : VomRouterEnvelope) (payload : List UInt8) : WorkerResources :=
  if 24 ≤ env.payloadLength then
    { totalMemoryBytes := Codec.u64.dec ((payload.drop 4).take 8)
      reservedMemoryBytes := 0
      totalCores := Codec.u32.dec (payload.take 4)
      reservedCores := 0 }
  else
    { totalMemoryBytes := 4 * 1024 * 1024 * 1024
      reservedMemoryBytes := 0
      totalCores := 4
      reservedCores := 0 }

/-- `zmq_send`, which may fail. -/
def trySend (ok : Bool) (out : Outbox) (f : Frame) (more : Bool) : Outbox :=
  if ok then out.send f more else out

/-- The JOIN_RESP: identity, empty frame, envelope. -/
def sendJoinResp (tick : MasterTick) (idBuf : List UInt8) (env : VomRouterEnvelope) (out : Outbox) :
    Outbox :=
  let resp := { env with
    protocolVersion := 1
    messageCode := VomRouterMsgCode.joinResp.code
    payloadLength := 0
    timestampMs := tick.nowMs }
  let out := trySend (tick.sendOk 0) out (CStr.upTo idBuf).bytes true
  let out := trySend (tick.sendOk 1) out [] true
  trySend (tick.sendOk 2) out (envelopeCodec.enc resp) false

def bumpGeneration (s : ClusterStateSnapshot) : ClusterStateSnapshot :=
  { s with stateGenerationVersion := s.stateGenerationVersion + 1 }

/-- The `switch` on the message code. -/
def handleMessage (tick : MasterTick) (idBuf : List UInt8) (env : VomRouterEnvelope)
    (payload : List UInt8) (s : MasterState) : Option MasterState :=
  if env.messageCode = VomRouterMsgCode.joinReq.code then
    let worker : WorkerMember :=
      { workerId := workerNumber idBuf
        health := .value .online
        lastSeenTimestampMs := tick.nowMs
        resources := joinResources env payload }
    (clusterStateRegisterWorker s.cluster worker).map fun r =>
      { s with
        cluster := bumpGeneration r.2
        outbox := sendJoinResp tick idBuf env s.outbox }
  else if env.messageCode = VomRouterMsgCode.heartbeat.code then
    (clusterStateProcessHeartbeat s.cluster (workerNumber idBuf) tick.nowMs).map fun r =>
      { s with cluster := bumpGeneration r.2 }
  else some s

/-- A message that reached the `switch`: the identity and the code it is taken for. -/
abbrev Processed := CStr × UInt16

/-- The receiving part of an iteration. -/
def receiveMessage (tick : MasterTick) (s : MasterState) : Option (MasterState × Option Processed) :=
  match s.inbox.recv with
  | none => some (s, none)
  | some (idFrame, inbox) =>
    if idFrame.length = 0 then some ({ s with inbox := inbox }, none)
    else if 64 ≤ idFrame.length then none
    else
      let idBuf := idBufAfter idFrame tick.idBuf.toList
      match inbox.recv with
      | none => none
      | some (_, inbox) =>
        match inbox.recv with
        | none => none
        | some (frame, inbox) =>
          let s := { s with inbox := inbox }
          let pbuf := recvInto receiveBufferLen frame tick.pbuf.toList
          if frame.length < envelopeCodec.size then some (s, none)
          else
            let env := envelopeCodec.dec (pbuf.take envelopeCodec.size)
            if env.protocolVersion ≠ 1 then some (s, none)
            else
              (handleMessage tick idBuf env (pbuf.drop envelopeCodec.size) s).map fun s =>
                (s, some (CStr.upTo idBuf, env.messageCode))

/-- One iteration of the event loop. -/
def masterIteration (tick : MasterTick) (s : MasterState) :
    Option (MasterState × Option Processed) :=
  (receiveMessage tick s).map fun r =>
    let s := r.1
    let s := if 1000 ≤ tick.nowMs - s.lastSchedulerTickMs then
      { s with lastSchedulerTickMs := tick.nowMs } else s
    let s := if 1000 ≤ tick.nowMs - s.lastWalPersistMs then
      { s with
        lastWalPersistMs := tick.nowMs
        files := (clusterStatePersistToWal tick.persist walPathDefault s.cluster s.files).2 } else s
    (s, r.2)

/-- The event loop over a list of iterations, with the messages processed. -/
def masterLoop : List MasterTick → MasterState → Option (MasterState × List Processed)
  | [], s => some (s, [])
  | tick :: ticks, s =>
    (masterIteration tick s).bind fun r =>
      (masterLoop ticks r.1).map fun rs => (rs.1, r.2.toList ++ rs.2)

/-- The master before its first iteration, with these messages arrived. -/
def masterStart (cluster : ClusterStateSnapshot) (files : Files) (arrivals : List WorkerMessage) :
    MasterState where
  cluster := cluster
  inbox := routerInbox (arrivals.map fun m => (m.identity.bytes, [m.frame]))
  outbox := { opened := [], sent := [] }
  files := files
  lastSchedulerTickMs := 0
  lastWalPersistMs := 0

/-! ## 3. The worker's receiving side and its identity -/

/-- The payload of a JOIN_REQ with these capabilities. -/
def joinRequest (cores : UInt32) (mem : UInt64) : List UInt8 :=
  Codec.u32.enc cores ++ Codec.u64.enc mem

/-- `recv_envelope`, called with both output pointers, on a frame that has come: the envelope, the
    payload length and that many bytes copied from the stack buffer. `none` is `false`. -/
def recvEnvelope (buf : Vector UInt8 receiveBufferLen) (frame : Frame) :
    Option (VomRouterEnvelope × UInt32 × List UInt8) :=
  let buf := recvInto receiveBufferLen frame buf.toList
  if frame.length < envelopeCodec.size then none
  else
    let env := envelopeCodec.dec (buf.take envelopeCodec.size)
    if UInt32.ofNat payloadMaxLen < env.payloadLength then none
    else some (env, env.payloadLength, (buf.drop envelopeCodec.size).take env.payloadLength.toNat)

/-- `"worker-"` -/
def workerPrefix : List UInt8 := [119, 111, 114, 107, 101, 114, 45]

/-- `generate_worker_id` into a buffer of 64 bytes: the address files of `eth0` and `wlan0`, read with
    `fscanf(f, "%17s", mac)`, then process number and time. `mac` is zero-filled, so `mac + 9` is a
    string whatever was read. -/
def generateWorkerId (eth0 wlan0 : Option (List UInt8)) (pid time : Int) : NulBuf 64 :=
  match (eth0.orElse fun _ => wlan0).bind (scanWord 17) with
  | some (mac, _) => NulBuf.copy 63 (CStr.upTo (workerPrefix ++ (CStr.upTo (mac.drop 9)).bytes))
  | none =>
    NulBuf.copy 63 (CStr.upTo (workerPrefix ++ (toString pid).toUTF8.toList ++ [45] ++
      (toString time).toUTF8.toList))

end VoidOsMerger
