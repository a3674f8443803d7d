/-
  File:      VoidOsMerger/Transport/Envelope.lean
  Subject:   THE ENVELOPE FORMAT: two encoders, two decoders, and the buffers they receive into.

  A frame is well framed when it has a whole envelope of version 1 whose length field is the number of
  bytes after it. The encoders write such frames (`encodeMessage`). The decoders read the envelope from
  their buffer but compare its length field with what `zmq_recv` returns, which is the size of the
  frame, not of the part that fits.

  * `routerDecode_spec`, `poll_spec` -- what either decoder makes of a frame of any size;
  * **`envelope_codec`** -- on frames that fit the buffer the two agree with the format and with the
    encoders;
  * **`receivesSafely_iff`** -- both receive paths stay inside their buffers and deliver what was sent
    exactly for identities below 64 bytes and frames of at most 4120.
-/
import VoidOsMerger.Transport.Model

namespace VoidOsMerger

/-! ## 1. The format -/

/-- A message as both encoders write it. -/
def encodeMessage (messageCode : UInt16) (sequenceId timestampMs : UInt64) (payload : List UInt8) :
    Frame :=
  envelopeCodec.enc
    { protocolVersion := 1
      messageCode := messageCode
      payloadLength := UInt32.ofNat payload.length
      sequenceId := sequenceId
      timestampMs := timestampMs } ++ payload

/-- The envelope at the head of a frame. -/
def frameHeader (frame : Frame) : VomRouterEnvelope :=
  envelopeCodec.dec (frame.take envelopeCodec.size)

/-- A whole envelope of version 1, with the number of bytes after it in its length field. -/
def WellFramed (frame : Frame) : Prop :=
  envelopeCodec.size ≤ frame.length ∧ (frameHeader frame).protocolVersion = 1 ∧
    (frameHeader frame).payloadLength.toNat = frame.length - envelopeCodec.size

instance (frame : Frame) : Decidable (WellFramed frame) :=
  inferInstanceAs (Decidable (_ ∧ _ ∧ _))

theorem envelopeCodec_exact : envelopeCodec.Exact :=
  (Codec.u16_exact.pair (Codec.u16_exact.pair (Codec.u32_exact.pair
    (Codec.u64_exact.pair Codec.u64_exact)))).map fun _ => rfl

theorem buffer_eq_encodeMessage (c : SendCall) (sequenceId : UInt64) :
    c.buffer sequenceId = encodeMessage c.code.code sequenceId c.nowMs c.payload := rfl

section Encode

variable (messageCode : UInt16) (sequenceId timestampMs : UInt64) (payload : List UInt8)

theorem frameHeader_encode :
    frameHeader (encodeMessage messageCode sequenceId timestampMs payload) =
      ⟨1, messageCode, UInt32.ofNat payload.length, sequenceId, timestampMs⟩ :=
  envelopeCodec.dec_take_enc _ _

theorem drop_encode :
    (encodeMessage messageCode sequenceId timestampMs payload).drop envelopeCodec.size = payload :=
  envelopeCodec.drop_enc _ _

theorem length_encode : (encodeMessage messageCode sequenceId timestampMs payload).length =
    envelopeCodec.size + payload.length := by
  rw [encodeMessage, List.length_append, envelopeCodec.length_enc]

theorem wellFramed_encode (h : payload.length < 2 ^ 32) :
    WellFramed (encodeMessage messageCode sequenceId timestampMs payload) := by
  unfold WellFramed
  rw [frameHeader_encode, length_encode]
  refine ⟨Nat.le_add_right _ _, rfl, ?_⟩
  rw [UInt32.toNat_ofNat_of_lt' h, Nat.add_sub_cancel_left]

end Encode

/-- Writing back what a well-framed frame holds gives the frame. -/
theorem encode_header {frame : Frame} (h : WellFramed frame) :
    encodeMessage (frameHeader frame).messageCode (frameHeader frame).sequenceId
      (frameHeader frame).timestampMs (frame.drop envelopeCodec.size) = frame := by
  obtain ⟨hsize, hversion, hlength⟩ := h
  have hlen : UInt32.ofNat (frame.drop envelopeCodec.size).length =
      (frameHeader frame).payloadLength := by
    rw [List.length_drop, ← hlength, UInt32.ofNat_toNat]
  have hhead : envelopeCodec.enc (frameHeader frame) = frame.take envelopeCodec.size :=
    envelopeCodec_exact _ (by rw [List.length_take]; omega)
  unfold encodeMessage
  rw [hlen, ← hversion, hhead, List.take_append_drop]

/-! ## 2. The decoders -/

/-- What a call hands over, if it is one of `msg_cb`. -/
def RouterCall.delivered : RouterCall → Option (VomRouterEnvelope × List UInt8)
  | .event _ _ => none
  | .msg _ env payload => some (env, payload)

def TransportCall.delivered : TransportCall → Option (VomRouterEnvelope × List UInt8)
  | .event _ => none
  | .msg env payload => some (env, payload)

/-- The bytes after the envelope, as far as the receive buffer holds them. -/
def receivedPayload (frame : Frame) : List UInt8 :=
  (frame.take receiveBufferLen).drop envelopeCodec.size

/-- The router's checks; the sum is taken in `unsigned int`. -/
def RouterAccepts (frame : Frame) : Prop :=
  envelopeCodec.size ≤ frame.length ∧ (frameHeader frame).protocolVersion = 1 ∧
    UInt32.ofNat envelopeCodec.size + (frameHeader frame).payloadLength = UInt32.ofNat frame.length

theorem bufferHeader (frame : Frame) :
    envelopeCodec.dec ((frame.take receiveBufferLen).take envelopeCodec.size) = frameHeader frame := by
  have hmin : min envelopeCodec.size receiveBufferLen = envelopeCodec.size :=
    Nat.min_eq_left (Nat.le_add_right _ _)
  rw [List.take_take, hmin]
  rfl

/-- Of the calls for an accepted frame, one hands over a message. -/
theorem delivered_router (workerId : CStr) (e : Option VomRouterEvent) (env : VomRouterEnvelope)
    (payload : List UInt8) :
    ((e.map (RouterCall.event workerId)).toList ++ [RouterCall.msg workerId env payload]).filterMap
      RouterCall.delivered = [(env, payload)] := by
  cases e <;> rfl

theorem delivered_transport (e : Option VomTransportEvent) (env : VomRouterEnvelope)
    (payload : List UInt8) :
    ((e.map TransportCall.event).toList ++ [TransportCall.msg env payload]).filterMap
      TransportCall.delivered = [(env, payload)] := by
  cases e <;> rfl

/-- **The router's decoder**: it accepts the frame and hands over what its buffer holds, or refuses it
    and hands over nothing. -/
theorem routerDecode_spec (workerId : CStr) (frame : Frame) :
    (RouterAccepts frame ∧ (routerDecode workerId frame).status = .success ∧
      (routerDecode workerId frame).calls.filterMap RouterCall.delivered =
        [(frameHeader frame, receivedPayload frame)]) ∨
    (¬ RouterAccepts frame ∧ (routerDecode workerId frame).status ≠ .success ∧
      (routerDecode workerId frame).calls.filterMap RouterCall.delivered = []) := by
  unfold routerDecode
  dsimp only
  rw [bufferHeader]
  split
  · rename_i hshort
    exact Or.inr ⟨fun h => absurd h.1 (Nat.not_le.mpr hshort), nofun, rfl⟩
  · rename_i hsize
    split
    · rename_i hversion
      exact Or.inr ⟨fun h => hversion h.2.1, nofun, rfl⟩
    · rename_i hversion
      split
      · rename_i hlength
        exact Or.inr ⟨fun h => hlength h.2.2, nofun, rfl⟩
      · rename_i hlength
        refine Or.inl ⟨⟨Nat.not_lt.mp hsize, not_not.mp hversion, not_not.mp hlength⟩, rfl, ?_⟩
        exact delivered_router workerId _ _ _

/-- **The worker's decoder**, likewise; its sum is taken in `size_t` and is the format's. -/
theorem poll_spec {ctx : VomWorkerTransport} (hs : ctx.hasSock = true) (frame : Frame) (more m : Bool)
    (stream : List (Frame × Bool)) :
    (WellFramed frame ∧ (vomWorkerTransportPoll ctx ⟨(frame, more) :: stream, m⟩).2.status = .success ∧
      (vomWorkerTransportPoll ctx ⟨(frame, more) :: stream, m⟩).2.calls.filterMap
        TransportCall.delivered = [(frameHeader frame, receivedPayload frame)]) ∨
    (¬ WellFramed frame ∧
      (vomWorkerTransportPoll ctx ⟨(frame, more) :: stream, m⟩).2.status ≠ .success ∧
      (vomWorkerTransportPoll ctx ⟨(frame, more) :: stream, m⟩).2.calls.filterMap
        TransportCall.delivered = []) := by
  unfold vomWorkerTransportPoll
  rw [if_neg (by simp [hs])]
  dsimp only [Inbox.recv]
  rw [bufferHeader]
  split
  · rename_i hshort
    exact Or.inr ⟨fun h => absurd h.1 (Nat.not_le.mpr hshort), nofun, rfl⟩
  · rename_i hsize
    split
    · rename_i hversion
      exact Or.inr ⟨fun h => hversion h.2.1, nofun, rfl⟩
    · rename_i hversion
      split
      · rename_i hlength
        refine Or.inr ⟨fun h => hlength ?_, nofun, rfl⟩
        have hfield := h.2.2
        omega
      · rename_i hlength
        refine Or.inl ⟨⟨Nat.not_lt.mp hsize, not_not.mp hversion, by omega⟩, rfl, ?_⟩
        exact delivered_transport _ _ _

/-- Below `2 ^ 32` bytes the router's sum cannot wrap into agreement. -/
theorem routerAccepts_iff {frame : Frame} (h : frame.length < 2 ^ 32) :
    RouterAccepts frame ↔ WellFramed frame := by
  unfold RouterAccepts WellFramed
  refine and_congr_right fun hsize => and_congr_right fun _ => ?_
  have hfield := (frameHeader frame).payloadLength.toNat_lt
  have hsmall : envelopeCodec.size = 24 := rfl
  rw [← UInt32.toNat_inj, UInt32.toNat_add, UInt32.toNat_ofNat_of_lt' h,
    UInt32.toNat_ofNat_of_lt' (by rw [hsmall]; decide)]
  omega

/-- A frame that fits the buffer is received whole. -/
theorem receivedPayload_fits {frame : Frame} (h : frame.length ≤ receiveBufferLen) :
    receivedPayload frame = frame.drop envelopeCodec.size := by
  rw [receivedPayload, List.take_of_length_le h]

/-! ## 3. Encoders and decoders agree -/

/-- The router's decoder accepts the frame and hands over this envelope and payload. -/
def RouterDecodes (frame : Frame) (env : VomRouterEnvelope) (payload : List UInt8) : Prop :=
  ∀ workerId, (routerDecode workerId frame).status = .success ∧
    (routerDecode workerId frame).calls.filterMap RouterCall.delivered = [(env, payload)]

/-- The worker's decoder does, whatever comes behind the frame. -/
def PollDecodes (frame : Frame) (env : VomRouterEnvelope) (payload : List UInt8) : Prop :=
  ∀ (ctx : VomWorkerTransport) (more m : Bool) (stream : List (Frame × Bool)), ctx.hasSock = true →
    (vomWorkerTransportPoll ctx ⟨(frame, more) :: stream, m⟩).2.status = .success ∧
    (vomWorkerTransportPoll ctx ⟨(frame, more) :: stream, m⟩).2.calls.filterMap
      TransportCall.delivered = [(env, payload)]

/-- A frame that fits the buffers and keeps to the format is decoded, whole, at either end. -/
theorem wellFramed_decodes {frame : Frame} (hfit : frame.length ≤ receiveBufferLen)
    (h : WellFramed frame) :
    RouterDecodes frame (frameHeader frame) (frame.drop envelopeCodec.size) ∧
      PollDecodes frame (frameHeader frame) (frame.drop envelopeCodec.size) := by
  have hlt : frame.length < 2 ^ 32 := lt_of_le_of_lt hfit (by decide)
  rw [← receivedPayload_fits hfit]
  constructor
  · intro workerId
    rcases routerDecode_spec workerId frame with ⟨-, hok⟩ | ⟨hno, -⟩
    · exact hok
    · exact absurd ((routerAccepts_iff hlt).mpr h) hno
  · intro ctx more m stream hs
    rcases poll_spec hs frame more m stream with ⟨-, hok⟩ | ⟨hno, -⟩
    · exact hok
    · exact absurd h hno

/-- What a running router puts on the wire. -/
theorem routerSend_eq {ctx : VomMasterRouter} (hs : ctx.hasSock = true) (hr : ctx.isRunning = true)
    (workerId : CStr) {c : SendCall} (hfit : c.payload.length ≤ payloadMaxLen) (out : Outbox) :
    vomMasterRouterSendToWorker (fun _ => true) workerId c ctx out =
      (.success, { ctx with nextSeqId := ctx.nextSeqId + 1 },
        ((out.send workerId.bytes true).send [] true).send (c.buffer ctx.nextSeqId) false) := by
  simp [vomMasterRouterSendToWorker, hs, hr, Nat.not_lt.mpr hfit]

/-- What a connected worker puts on the wire. -/
theorem workerSend_eq {ctx : VomWorkerTransport} (hs : ctx.hasSock = true)
    (hc : ctx.isConnected = true) {c : SendCall} (hfit : c.payload.length ≤ payloadMaxLen)
    (out : Outbox) :
    vomWorkerTransportSend true c ctx out =
      (.success, { ctx with nextSeqId := ctx.nextSeqId + 1 },
        out.send (c.buffer ctx.nextSeqId) false) := by
  simp [vomWorkerTransportSend, hs, hc, Nat.not_lt.mpr hfit]

/-- **The envelope codec.** Both send functions put the same buffer on the wire, and both decoders get
    from it the code, the sequence number, the time, the length and the payload that went in. Of the
    frames that fit the buffers both decoders accept exactly the well-framed ones, and writing back
    what they decode gives the frame. -/
theorem envelope_codec :
    (∀ (c : SendCall) (sequenceId : UInt64), c.payload.length ≤ payloadMaxLen →
      (∀ (ctx : VomMasterRouter) (workerId : CStr) (out : Outbox), ctx.hasSock = true →
        ctx.isRunning = true → ctx.nextSeqId = sequenceId →
        vomMasterRouterSendToWorker (fun _ => true) workerId c ctx out =
          (.success, { ctx with nextSeqId := sequenceId + 1 },
            ((out.send workerId.bytes true).send [] true).send (c.buffer sequenceId) false)) ∧
      (∀ (ctx : VomWorkerTransport) (out : Outbox), ctx.hasSock = true → ctx.isConnected = true →
        ctx.nextSeqId = sequenceId →
        vomWorkerTransportSend true c ctx out =
          (.success, { ctx with nextSeqId := sequenceId + 1 },
            out.send (c.buffer sequenceId) false)) ∧
      ∃ env, RouterDecodes (c.buffer sequenceId) env c.payload ∧
        PollDecodes (c.buffer sequenceId) env c.payload ∧ env.messageCode = c.code.code ∧
        env.sequenceId = sequenceId ∧ env.timestampMs = c.nowMs ∧
        env.payloadLength.toNat = c.payload.length) ∧
    ∀ b : Frame, b.length ≤ receiveBufferLen →
      (∀ workerId, (routerDecode workerId b).status = .success ↔ WellFramed b) ∧
      (∀ (ctx : VomWorkerTransport) (more m : Bool) (stream : List (Frame × Bool)),
        ctx.hasSock = true →
        ((vomWorkerTransportPoll ctx ⟨(b, more) :: stream, m⟩).2.status = .success ↔
          WellFramed b)) ∧
      (WellFramed b → ∃ env payload, RouterDecodes b env payload ∧ PollDecodes b env payload ∧
        encodeMessage env.messageCode env.sequenceId env.timestampMs payload = b) := by
  constructor
  · intro c sequenceId hfit
    refine ⟨?_, ?_, frameHeader (c.buffer sequenceId), ?_⟩
    · rintro ctx workerId out hs hr rfl
      exact routerSend_eq hs hr workerId hfit out
    · rintro ctx out hs hc rfl
      exact workerSend_eq hs hc hfit out
    · have hlt : c.payload.length < 2 ^ 32 := lt_of_le_of_lt hfit (by decide)
      have hframe := wellFramed_encode c.code.code sequenceId c.nowMs c.payload hlt
      have hlen := length_encode c.code.code sequenceId c.nowMs c.payload
      have hwhole : (c.buffer sequenceId).length ≤ receiveBufferLen := by
        rw [buffer_eq_encodeMessage, hlen]
        exact Nat.add_le_add_left hfit _
      obtain ⟨hrouter, hpoll⟩ := wellFramed_decodes hwhole hframe
      rw [buffer_eq_encodeMessage, drop_encode] at hrouter hpoll
      rw [buffer_eq_encodeMessage]
      refine ⟨hrouter, hpoll, ?_⟩
      rw [frameHeader_encode]
      exact ⟨rfl, rfl, rfl, UInt32.toNat_ofNat_of_lt' hlt⟩
  · intro b hfit
    have hlt : b.length < 2 ^ 32 := lt_of_le_of_lt hfit (by decide)
    refine ⟨fun workerId => ?_, fun ctx more m stream hs => ?_, fun h => ?_⟩
    · rw [← routerAccepts_iff hlt]
      rcases routerDecode_spec workerId b with ⟨hacc, hok, -⟩ | ⟨hno, hbad, -⟩
      · exact iff_of_true hok hacc
      · exact iff_of_false hbad hno
    · rcases poll_spec hs b more m stream with ⟨hacc, hok, -⟩ | ⟨hno, hbad, -⟩
      · exact iff_of_true hok hacc
      · exact iff_of_false hbad hno
    · obtain ⟨hrouter, hpoll⟩ := wellFramed_decodes hfit h
      exact ⟨_, _, hrouter, hpoll, encode_header h⟩

/-! ## 4. The receive buffers -/

/-- What `msg_cb` is given for a frame: a length of at most 4096, and at the payload pointer that many
    bytes, those of the frame after the envelope. -/
def DeliversExactly (frame : Frame) (d : VomRouterEnvelope × List UInt8) : Prop :=
  d.1.payloadLength.toNat ≤ payloadMaxLen ∧ d.1.payloadLength.toNat ≤ d.2.length ∧
    d.2.take d.1.payloadLength.toNat = frame.drop envelopeCodec.size

/-- For these two frames, whatever comes before and after them: `run_once` does not write outside
    `id_buf`, and both ends deliver exactly what was sent or nothing. -/
structure ReceivesSafely (identity frame : Frame) : Prop where
  router : ∀ (ctx : VomMasterRouter) (delimiter : Frame) (stream : List (Frame × Bool)) (m : Bool),
    ∃ inbox r,
      vomMasterRouterRunOnce ctx ⟨flagged [identity, delimiter, frame] ++ stream, m⟩ =
        some (inbox, r) ∧
      ∀ d ∈ r.calls.filterMap RouterCall.delivered, DeliversExactly frame d
  worker : ∀ (ctx : VomWorkerTransport) (more m : Bool) (stream : List (Frame × Bool)),
    ∀ d ∈ (vomWorkerTransportPoll ctx ⟨(frame, more) :: stream, m⟩).2.calls.filterMap
      TransportCall.delivered, DeliversExactly frame d

/-- A message of three frames, up to the payload frame. -/
theorem runOnce_frames {ctx : VomMasterRouter} (hs : ctx.hasSock = true) (hr : ctx.isRunning = true)
    (identity delimiter frame : Frame) (stream : List (Frame × Bool)) (m : Bool) :
    vomMasterRouterRunOnce ctx ⟨flagged [identity, delimiter, frame] ++ stream, m⟩ =
      if routerIdMaxLen ≤ identity.length then none
      else some (⟨stream, false⟩, routerDecode (CStr.upTo identity) frame) := by
  simp [vomMasterRouterRunOnce, hs, hr, flagged, Inbox.recv]

/-- A well-framed frame that fits the buffer is delivered exactly. -/
theorem deliversExactly_fits {frame : Frame} (hfit : frame.length ≤ receiveBufferLen)
    (h : WellFramed frame) : DeliversExactly frame (frameHeader frame, receivedPayload frame) := by
  have hlen : (receivedPayload frame).length = (frameHeader frame).payloadLength.toNat := by
    rw [receivedPayload_fits hfit, List.length_drop, h.2.2]
  have hmax : receiveBufferLen = envelopeCodec.size + payloadMaxLen := rfl
  refine ⟨?_, hlen.ge, ?_⟩
  · show (frameHeader frame).payloadLength.toNat ≤ payloadMaxLen
    rw [h.2.2]
    omega
  · show (receivedPayload frame).take (frameHeader frame).payloadLength.toNat = _
    rw [← hlen, List.take_length, receivedPayload_fits hfit]

/-- The frame fits the buffer, or its header is refused. -/
def FitsOrRefused (frame : Frame) : Prop := frame.length ≤ receiveBufferLen ∨ ¬ RouterAccepts frame

/-- So whatever the router's decoder hands over for such a frame, it hands over exactly. -/
theorem routerDecode_exact {frame : Frame} (h : FitsOrRefused frame) (workerId : CStr) :
    ∀ d ∈ (routerDecode workerId frame).calls.filterMap RouterCall.delivered,
      DeliversExactly frame d := by
  intro d hd
  rcases routerDecode_spec workerId frame with ⟨hacc, -, hcalls⟩ | ⟨-, -, hcalls⟩
  · have hfit : frame.length ≤ receiveBufferLen := h.resolve_right fun hno => hno hacc
    have hlt : frame.length < 2 ^ 32 := lt_of_le_of_lt hfit (by decide)
    rw [hcalls, List.mem_singleton] at hd
    rw [hd]
    exact deliversExactly_fits hfit ((routerAccepts_iff hlt).mp hacc)
  · rw [hcalls] at hd
    exact absurd hd List.not_mem_nil

/-- What the worker's check of the length accepts, the router's accepts too: it compares modulo
    `2 ^ 32`. -/
theorem WellFramed.routerAccepts {frame : Frame} (h : WellFramed frame) : RouterAccepts frame := by
  obtain ⟨hsize, hversion, hlen⟩ := h
  refine ⟨hsize, hversion, ?_⟩
  have hsum : frame.length = envelopeCodec.size + (frameHeader frame).payloadLength.toNat := by omega
  rw [hsum, UInt32.ofNat_add, UInt32.ofNat_toNat]

/-- And the worker's. -/
theorem poll_exact {frame : Frame} (h : FitsOrRefused frame)
    (ctx : VomWorkerTransport) (more m : Bool) (stream : List (Frame × Bool)) :
    ∀ d ∈ (vomWorkerTransportPoll ctx ⟨(frame, more) :: stream, m⟩).2.calls.filterMap
      TransportCall.delivered, DeliversExactly frame d := by
  intro d hd
  cases hs : ctx.hasSock with
  | true =>
    rcases poll_spec hs frame more m stream with ⟨hacc, -, hcalls⟩ | ⟨-, -, hcalls⟩
    · rw [hcalls, List.mem_singleton] at hd
      rw [hd]
      exact deliversExactly_fits (h.resolve_right fun hno => hno hacc.routerAccepts) hacc
    · rw [hcalls] at hd
      exact absurd hd List.not_mem_nil
  | false =>
    -- without a socket nothing is received
    rw [vomWorkerTransportPoll, if_pos (by simp [hs])] at hd
    exact absurd hd List.not_mem_nil

/-- A frame longer than the buffer is never delivered exactly: what the buffer holds is too short. -/
theorem not_deliversExactly_long {frame : Frame} (hlong : receiveBufferLen < frame.length)
    (env : VomRouterEnvelope) : ¬ DeliversExactly frame (env, receivedPayload frame) := by
  intro h
  have hlen := congrArg List.length h.2.2
  have hheld : (receivedPayload frame).length ≤ receiveBufferLen - envelopeCodec.size := by
    rw [receivedPayload, List.length_drop, List.length_take]
    omega
  have hsmall : envelopeCodec.size ≤ receiveBufferLen := Nat.le_add_right _ _
  rw [List.length_take, List.length_drop] at hlen
  have hmin : min env.payloadLength.toNat (receivedPayload frame).length ≤
      (receivedPayload frame).length := Nat.min_le_right _ _
  dsimp only at hlen
  omega

/-- A router that is running. -/
def runningRouter : VomMasterRouter := { hasSock := true, nextSeqId := 1, isRunning := true }

/-- An identity that does not leave room for its terminating NUL. -/
theorem not_receivesSafely_identity {identity : Frame} (hid : routerIdMaxLen ≤ identity.length)
    (frame : Frame) : ¬ ReceivesSafely identity frame := by
  intro h
  obtain ⟨inbox, r, hrun, -⟩ := h.router runningRouter [] [] false
  rw [runOnce_frames rfl rfl, if_pos hid] at hrun
  cases hrun

/-- A frame longer than the buffer whose header is accepted. -/
theorem not_receivesSafely_frame {identity frame : Frame} (hid : identity.length < routerIdMaxLen)
    (hlong : receiveBufferLen < frame.length) (hacc : RouterAccepts frame) :
    ¬ ReceivesSafely identity frame := by
  intro h
  obtain ⟨inbox, r, hrun, hexact⟩ := h.router runningRouter [] [] false
  rw [runOnce_frames rfl rfl, if_neg (Nat.not_le.mpr hid)] at hrun
  obtain ⟨-, rfl⟩ := Prod.mk.inj (Option.some.inj hrun)
  rcases routerDecode_spec (CStr.upTo identity) frame with ⟨-, -, hcalls⟩ | ⟨hno, -⟩
  · rw [hcalls] at hexact
    exact not_deliversExactly_long hlong _ (hexact _ List.mem_cons_self)
  · exact hno hacc

/-- **When the receive paths are safe**: exactly for identities of fewer than 64 bytes with payload
    frames of at most 4120, or with a header that is refused before it comes to the payload. -/
theorem receivesSafely_iff (identity frame : Frame) :
    ReceivesSafely identity frame ↔
      identity.length < routerIdMaxLen ∧ (frame.length ≤ receiveBufferLen ∨ ¬ RouterAccepts frame) := by
  constructor
  · intro h
    have hid : identity.length < routerIdMaxLen := by
      by_contra hid
      exact not_receivesSafely_identity (Nat.not_lt.mp hid) frame h
    refine ⟨hid, ?_⟩
    by_contra hframe
    obtain ⟨hlong, hacc⟩ := not_or.mp hframe
    exact not_receivesSafely_frame hid (Nat.not_le.mp hlong) (not_not.mp hacc) h
  · intro ⟨hid, hframe⟩
    constructor
    · intro ctx delimiter stream m
      by_cases hrun : ctx.hasSock = true ∧ ctx.isRunning = true
      · rw [runOnce_frames hrun.1 hrun.2, if_neg (Nat.not_le.mpr hid)]
        exact ⟨_, _, rfl, routerDecode_exact hframe (CStr.upTo identity)⟩
      · -- without a running socket nothing is received
        have hidle : (!ctx.hasSock || !ctx.isRunning) = true := by
          cases hs : ctx.hasSock <;> cases hr : ctx.isRunning <;> simp_all
        refine ⟨_, ⟨.errSocket, []⟩, by rw [vomMasterRouterRunOnce, if_pos hidle], fun d hd => ?_⟩
        exact absurd hd List.not_mem_nil
    · exact poll_exact hframe

/-- A frame with `n` payload bytes and the right length. -/
def zeroFrame (n : Nat) : Frame := encodeMessage 3 0 0 (List.replicate n 0)

/-- **Two ways out of the buffers**: an identity of 64 bytes, whose terminator is written behind
    `id_buf`, and a frame of 4121 bytes with a matching length field. -/
theorem receive_leaves_buffers :
    ¬ (∀ identity : Frame, 1 ≤ identity.length → identity.length ≤ 255 →
      ReceivesSafely identity (zeroFrame 0)) ∧
    ¬ ∀ frame, ReceivesSafely [97] frame := by
  constructor
  · intro h
    have hlen : (List.replicate 64 (97 : UInt8)).length = 64 := List.length_replicate
    exact not_receivesSafely_identity hlen.ge _ (h _ (by rw [hlen]; decide) (by rw [hlen]; decide))
  · intro h
    have hlen : (List.replicate 4097 (0 : UInt8)).length = 4097 := List.length_replicate
    have hframed : WellFramed (zeroFrame 4097) := wellFramed_encode _ _ _ _ (by rw [hlen]; decide)
    refine not_receivesSafely_frame (by decide) ?_ hframed.routerAccepts (h (zeroFrame 4097))
    rw [zeroFrame, length_encode, hlen]
    decide

end VoidOsMerger
