/-
  File:      VoidOsMerger/Master/Thirds.lean
  Subject:   WHAT THE EVENT LOOP MAKES OF THE MESSAGES THAT COME, in any interleaving.

  A message is two frames and an iteration takes three, so the iterations alternate between two
  positions. From an identity an iteration takes the identity, the buffer and the next identity, and
  drops what it took: an identity is no envelope. From a buffer it takes the buffer for an identity, the
  next identity for the delimiter, and handles the buffer after it.

  * `iteration_arrived`, `iteration_shifted` -- the two iterations, `iteration_waits` -- where one does
    not end;
  * `workerNumber_shifted` -- a buffer taken for an identity is the string `"\x01"` and worker 1;
  * **`loop_handles_thirds`** -- of the messages that have come, every third is handled, under that
    name; the loop waits for ever unless their number is divisible by three.
-/
import VoidOsMerger.Master.Identity

namespace VoidOsMerger

/-! ## 1. Frames -/

/-- What a ROUTER holds once these messages have come. -/
def arrived (ms : List WorkerMessage) : List (Frame × Bool) :=
  ms.flatMap fun m => [(m.identity.bytes, true), (m.frame, false)]

theorem arrived_cons (m : WorkerMessage) (ms : List WorkerMessage) :
    arrived (m :: ms) = (m.identity.bytes, true) :: (m.frame, false) :: arrived ms := rfl

theorem arrived_append (ms ms' : List WorkerMessage) :
    arrived (ms ++ ms') = arrived ms ++ arrived ms' := List.flatMap_append

theorem masterStart_stream (cluster : ClusterStateSnapshot) (files : Files)
    (arrivals : List WorkerMessage) :
    (masterStart cluster files arrivals).inbox.stream = arrived arrivals := by
  show (arrivals.map _).flatMap _ = _
  rw [List.flatMap_map]
  rfl

/-- An identity the sockets deliver as it is: not empty, and `id_buf` holds it. -/
def WorkerMessage.Addressed (m : WorkerMessage) : Prop :=
  0 < m.identity.bytes.length ∧ m.identity.bytes.length < 64

instance (m : WorkerMessage) : Decidable m.Addressed := inferInstanceAs (Decidable (_ ∧ _))

theorem VomRouterMsgCode.code_inj {c d : VomRouterMsgCode} : c.code = d.code ↔ c = d := by
  constructor
  · cases c <;> cases d <;> decide
  · rintro rfl
    rfl

/-- A version is 1 only with a zero in its second byte. -/
theorem version_one {b₀ b₁ : UInt8} (h : Codec.u16.dec [b₀, b₁] = 1) : b₁ = 0 := by
  have hb₀ := b₀.toNat_lt
  have hb₁ := b₁.toNat_lt
  have hnat : (UInt16.ofNat (b₀.toNat + 256 * (b₁.toNat + 256 * 0))).toNat = 1 :=
    congrArg UInt16.toNat h
  rw [UInt16.toNat_ofNat'] at hnat
  have hzero : b₁.toNat = 0 := by omega
  exact UInt8.toNat_inj.mp hzero

/-- An identity has no zero byte, so it is no envelope. -/
theorem identity_unreadable (identity : CStr) : ¬ Readable identity.bytes := by
  rintro ⟨hlen, hversion⟩
  rw [envelopeCodec_size] at hlen
  have hversion : Codec.u16.dec ((identity.bytes.take 24).take 2) = 1 := hversion
  rw [List.take_take] at hversion
  cases hbytes : identity.bytes with
  | nil =>
    rw [hbytes] at hlen
    cases hlen
  | cons b₀ tail =>
    cases htail : tail with
    | nil =>
      rw [hbytes, htail, List.length_singleton] at hlen
      exact absurd hlen (by decide)
    | cons b₁ rest =>
      rw [hbytes, htail] at hversion
      have hmem : b₁ ∈ identity.bytes := by
        rw [hbytes, htail]
        simp
      exact identity.noNul b₁ hmem (version_one hversion)

section Message

variable (m : WorkerMessage)

/-- The payload of a message. -/
def WorkerMessage.payload : List UInt8 := if m.code = .joinReq then joinPayload else []

theorem WorkerMessage.payload_length : m.payload.length = if m.code = .joinReq then 12 else 0 := by
  unfold WorkerMessage.payload
  split
  · exact length_joinRequest 4 _
  · rfl

theorem WorkerMessage.frame_eq :
    m.frame = encodeMessage m.code.code 0 m.timestampMs m.payload := rfl

theorem WorkerMessage.frame_header : frameHeader m.frame =
    ⟨1, m.code.code, UInt32.ofNat m.payload.length, 0, m.timestampMs⟩ :=
  frameHeader_encode m.code.code 0 m.timestampMs m.payload

theorem WorkerMessage.frame_length :
    m.frame.length = if m.code = .joinReq then 36 else 24 := by
  rw [m.frame_eq, length_encode, m.payload_length, envelopeCodec_size]
  split <;> rfl

theorem WorkerMessage.frame_fits : 7 ≤ m.frame.length ∧ m.frame.length < 64 := by
  rw [m.frame_length]
  split <;> decide

theorem WorkerMessage.frame_pos : 0 < m.frame.length := by
  have h := m.frame_fits.1
  omega

theorem WorkerMessage.frame_readable : Readable m.frame := by
  refine ⟨?_, ?_⟩
  · rw [m.frame_length, envelopeCodec_size]
    split <;> decide
  · rw [m.frame_header]

/-- The first eight bytes of a buffer: version, code, length of the payload. -/
theorem WorkerMessage.frame_bytes : ∃ c₀ c₁ l₀ rest,
    m.frame = [1, 0, c₀, c₁, l₀, 0, 0, 0] ++ rest := by
  have hlength : Codec.u32.enc (UInt32.ofNat m.payload.length) =
      [if m.code = .joinReq then 12 else 0, 0, 0, 0] := by
    rw [m.payload_length]
    split <;> decide
  have hcode : Codec.u16.enc m.code.code = [UInt8.ofNat m.code.code.toNat,
      UInt8.ofNat (m.code.code.toNat / 256)] := rfl
  refine ⟨UInt8.ofNat m.code.code.toNat, UInt8.ofNat (m.code.code.toNat / 256),
    if m.code = .joinReq then 12 else 0,
    Codec.u64.enc 0 ++ Codec.u64.enc m.timestampMs ++ m.payload, ?_⟩
  show Codec.u16.enc 1 ++ (Codec.u16.enc m.code.code ++
    (Codec.u32.enc (UInt32.ofNat m.payload.length) ++
      (Codec.u64.enc 0 ++ Codec.u64.enc m.timestampMs))) ++ m.payload = _
  rw [hlength, hcode, show Codec.u16.enc 1 = [1, 0] by decide]
  simp only [List.append_assoc, List.cons_append, List.nil_append]

/-- The string `"\x01"`: the version's low byte, ended by its high byte. -/
def startOfHeading : CStr := CStr.upTo [1]

theorem upTo_frame : CStr.upTo m.frame = startOfHeading := by
  obtain ⟨c₀, c₁, l₀, rest, hframe⟩ := m.frame_bytes
  rw [hframe]
  exact CStr.upTo_append_zero [1] _

/-- **A buffer taken for an identity is worker 1.** -/
theorem workerNumber_shifted (tick : MasterTick) : workerNumber (tick.idAfter m.frame) = 1 := by
  obtain ⟨c₀, c₁, l₀, rest, hframe⟩ := m.frame_bytes
  unfold MasterTick.idAfter
  rw [workerNumber_idBufAfter m.frame_fits.2 _ m.frame_fits.1, hframe]
  -- `atoi` is given the high byte of the payload's length: the empty string
  have hname : CStr.upTo (([1, 0, c₀, c₁, l₀, 0, 0, 0] ++ rest).drop 7) = CStr.upTo [] :=
    CStr.upTo_append_zero [] rest
  unfold workerNumber
  rw [hname]
  rfl

end Message

/-! ## 2. One iteration -/

/-- Three frames, whatever their flags: the iteration asks for none. -/
theorem receiveMessage_three (tick : MasterTick) {s : MasterState} {f₁ f₂ f₃ : Frame}
    {more₁ more₂ more₃ : Bool} {rest : List (Frame × Bool)}
    (hstream : s.inbox.stream = (f₁, more₁) :: (f₂, more₂) :: (f₃, more₃) :: rest)
    (hpos : 0 < f₁.length) (hfit : f₁.length < 64) :
    receiveMessage tick s =
      if Readable f₃ then
        (handleMessage tick (tick.idAfter f₁) (frameHeader f₃) (tick.payloadAfter f₃)
          { s with inbox := ⟨rest, more₃⟩ }).map fun s =>
            (s, some (CStr.upTo f₁, (frameHeader f₃).messageCode))
      else some ({ s with inbox := ⟨rest, more₃⟩ }, none) := by
  unfold receiveMessage Inbox.recv
  simp only [hstream, if_neg (Nat.ne_of_gt hpos), if_neg (Nat.not_le.mpr hfit)]
  by_cases hsize : envelopeCodec.size ≤ f₃.length
  · rw [if_neg (Nat.not_lt.mpr hsize), recvInto_header hsize, upTo_idBufAfter hfit]
    by_cases hversion : (frameHeader f₃).protocolVersion = 1
    · rw [if_neg (not_not.mpr hversion), if_pos ⟨hsize, hversion⟩]
      rfl
    · rw [if_pos hversion, if_neg fun h => hversion h.2]
  · rw [if_pos (Nat.not_le.mp hsize), if_neg fun h => hsize h.1]

/-- The timers of an iteration leave sockets and cluster state alone. -/
theorem masterIteration_receive {tick : MasterTick} {s t : MasterState} {p : Option Processed}
    (h : receiveMessage tick s = some (t, p)) :
    ∃ t', masterIteration tick s = some (t', p) ∧ t'.inbox = t.inbox ∧ t'.cluster = t.cluster ∧
      t'.outbox = t.outbox := by
  unfold masterIteration
  rw [h, Option.map_some]
  refine ⟨_, rfl, ?_⟩
  dsimp only
  split
  · split <;> exact ⟨rfl, rfl, rfl⟩
  · split <;> exact ⟨rfl, rfl, rfl⟩

/-- What the handler sends. -/
theorem handleMessage_outbox {tick : MasterTick} {idBuf payload : List UInt8}
    {env : VomRouterEnvelope} {s s' : MasterState}
    (h : handleMessage tick idBuf env payload s = some s') :
    s'.outbox = if env.messageCode = VomRouterMsgCode.joinReq.code then
      sendJoinResp tick idBuf env s.outbox else s.outbox := by
  unfold handleMessage at h
  split at h
  · rename_i hjoin
    obtain ⟨r, _, rfl⟩ := Option.map_eq_some_iff.mp h
    rw [if_pos hjoin]
  · rename_i hjoin
    rw [if_neg hjoin]
    split at h
    · obtain ⟨r, _, rfl⟩ := Option.map_eq_some_iff.mp h
      rfl
    · cases h
      rfl

/-- **From an identity**: identity, buffer and the next identity are taken, and nothing else
    happens. -/
theorem iteration_arrived (tick : MasterTick) {s : MasterState} {m₁ m₂ : WorkerMessage}
    {ms : List WorkerMessage} (hstream : s.inbox.stream = arrived (m₁ :: m₂ :: ms))
    (h₁ : m₁.Addressed) :
    ∃ s', masterIteration tick s = some (s', none) ∧
      s'.inbox.stream = (m₂.frame, false) :: arrived ms ∧ s'.cluster = s.cluster ∧
      s'.outbox = s.outbox := by
  rw [arrived_cons, arrived_cons] at hstream
  have hreceive := receiveMessage_three tick hstream h₁.1 h₁.2
  rw [if_neg (identity_unreadable m₂.identity)] at hreceive
  obtain ⟨s', hrun, hinbox, hcluster, houtbox⟩ := masterIteration_receive hreceive
  exact ⟨s', hrun, congrArg Inbox.stream hinbox, hcluster, houtbox⟩

/-- **From a buffer**: the next message is handled, with the buffer for its identity. -/
theorem iteration_shifted (tick : MasterTick) {s : MasterState} {taken m : WorkerMessage}
    {ms : List WorkerMessage} (hstream : s.inbox.stream = (taken.frame, false) :: arrived (m :: ms))
    (hcounts : CountsInRange s.cluster) :
    ∃ s', masterIteration tick s = some (s', some (startOfHeading, m.code.code)) ∧
      s'.inbox.stream = arrived ms ∧
      Handled tick (tick.idAfter taken.frame) (frameHeader m.frame) (tick.payloadAfter m.frame)
        s.cluster s'.cluster ∧
      s'.outbox = if m.code = .joinReq then
        sendJoinResp tick (tick.idAfter taken.frame) (frameHeader m.frame) s.outbox else s.outbox := by
  rw [arrived_cons] at hstream
  have hreceive := receiveMessage_three tick hstream taken.frame_pos taken.frame_fits.2
  obtain ⟨t, hhandle, hcase⟩ := handleMessage_cases tick (tick.idAfter taken.frame)
    (frameHeader m.frame) (tick.payloadAfter m.frame)
    { s with inbox := ⟨arrived ms, false⟩ } hcounts
  rw [if_pos m.frame_readable, hhandle, Option.map_some, upTo_frame, m.frame_header] at hreceive
  obtain ⟨s', hrun, hinbox, hcluster, houtbox⟩ := masterIteration_receive hreceive
  refine ⟨s', hrun, ?_, ?_, ?_⟩
  · rw [hinbox, handleMessage_inbox hhandle]
  · rw [hcluster]
    exact hcase
  · have hcode : (frameHeader m.frame).messageCode = VomRouterMsgCode.joinReq.code ↔
        m.code = .joinReq := by
      rw [m.frame_header]
      exact VomRouterMsgCode.code_inj
    rw [houtbox, handleMessage_outbox hhandle]
    by_cases hjoin : m.code = .joinReq
    · rw [if_pos hjoin, if_pos (hcode.mpr hjoin)]
    · rw [if_neg hjoin, if_neg fun h => hjoin (hcode.mp h)]

/-- An iteration that waits for a frame that has not come. -/
theorem iteration_waits (tick : MasterTick) {s : MasterState}
    (hstream : (∃ m : WorkerMessage, m.Addressed ∧ s.inbox.stream = arrived [m]) ∨
      ∃ m : WorkerMessage, s.inbox.stream = [(m.frame, false)]) :
    masterIteration tick s = none := by
  have hreceive : receiveMessage tick s = none := by
    unfold receiveMessage Inbox.recv
    rcases hstream with ⟨m, hm, hstream⟩ | ⟨m, hstream⟩
    · rw [arrived_cons] at hstream
      simp only [hstream, if_neg (Nat.ne_of_gt hm.1), if_neg (Nat.not_le.mpr hm.2)]
      rfl
    · simp only [hstream, if_neg (Nat.ne_of_gt m.frame_pos),
        if_neg (Nat.not_le.mpr m.frame_fits.2)]
  unfold masterIteration
  rw [hreceive]
  rfl

/-! ## 3. The loop -/

/-- The third, the sixth, the ninth, ... -/
def everyThird {α : Type} : List α → List α
  | [] => []
  | [_] => []
  | [_, _] => []
  | _ :: _ :: a :: rest => a :: everyThird rest

/-- What the loop says of the message it handles. -/
def misnamed (m : WorkerMessage) : Processed := (startOfHeading, m.code.code)

/-- One iteration in front of a loop. -/
theorem masterLoop_cons {tick : MasterTick} {ticks : List MasterTick} {s s' : MasterState}
    {p : Option Processed} (h : masterIteration tick s = some (s', p)) :
    (masterLoop (tick :: ticks) s).map (·.2) =
      ((masterLoop ticks s').map (·.2)).map (p.toList ++ ·) := by
  rw [masterLoop, h, Option.bind_some, Option.map_map, Option.map_map]
  rfl

theorem masterLoop_waits {tick : MasterTick} {ticks : List MasterTick} {s : MasterState}
    (h : masterIteration tick s = none) : masterLoop (tick :: ticks) s = none := by
  rw [masterLoop, h]
  rfl

theorem masterLoop_thirds : ∀ (arrivals : List WorkerMessage) (ticks : List MasterTick)
    {s : MasterState}, s.inbox.stream = arrived arrivals → (∀ m ∈ arrivals, m.Addressed) →
    WellFormed s.cluster →
    (masterLoop ticks s).map (·.2) =
      if ticks.length ≤ 2 * arrivals.length / 3 ∨ arrivals.length % 3 = 0 then
        some (((everyThird arrivals).take (ticks.length / 2)).map misnamed)
      else none
  | arrivals, [], s, _, _, _ => by
      have hnone : ([] : List MasterTick).length ≤ 2 * arrivals.length / 3 := Nat.zero_le _
      rw [if_pos (Or.inl hnone)]
      rfl
  | [], tick :: ticks, s, hstream, _, _ => by
      obtain ⟨s', hs'⟩ := masterLoop_idle (tick :: ticks) (s := s) hstream
      rw [hs', if_pos (Or.inr (by rfl)), everyThird, List.take_nil]
      rfl
  | [m], tick :: ticks, s, hstream, haddr, _ => by
      rw [masterLoop_waits (iteration_waits tick (Or.inl ⟨m, haddr m (by simp), hstream⟩)),
        if_neg (by simp)]
      rfl
  | m₁ :: m₂ :: ms, [tick], s, hstream, haddr, _ => by
      obtain ⟨s', hrun, -, -, -⟩ := iteration_arrived tick hstream (haddr m₁ (by simp))
      have hone : [tick].length ≤ 2 * (m₁ :: m₂ :: ms).length / 3 := by
        rw [List.length_singleton, List.length_cons, List.length_cons]
        omega
      have hhalf : [tick].length / 2 = 0 := by rw [List.length_singleton]
      rw [masterLoop_cons hrun, if_pos (Or.inl hone), hhalf]
      rfl
  | [m₁, m₂], tick₁ :: tick₂ :: ticks, s, hstream, haddr, _ => by
      obtain ⟨s', hrun, hstream', -, -⟩ := iteration_arrived tick₁ hstream (haddr m₁ (by simp))
      rw [masterLoop_cons hrun, masterLoop_waits (iteration_waits tick₂ (Or.inr ⟨m₂, hstream'⟩)),
        if_neg (by simp)]
      rfl
  | m₁ :: m₂ :: m₃ :: ms, tick₁ :: tick₂ :: ticks, s, hstream, haddr, hwf => by
      obtain ⟨s₁, hrun₁, hstream₁, hcluster₁, -⟩ :=
        iteration_arrived tick₁ hstream (haddr m₁ (by simp))
      have hwf₁ : WellFormed s₁.cluster := hcluster₁ ▸ hwf
      obtain ⟨s₂, hrun₂, hstream₂, hhandled, -⟩ :=
        iteration_shifted tick₂ hstream₁ hwf₁.countsInRange
      have ih := masterLoop_thirds ms ticks hstream₂ (fun m hm => haddr m (by simp [hm]))
        (hhandled.wellFormed hwf₁)
      -- two iterations for three messages: both conditions are those of the rest
      have hlen : 2 * (m₁ :: m₂ :: m₃ :: ms).length / 3 = 2 * ms.length / 3 + 2 := by
        simp only [List.length_cons]
        omega
      have hcond : ((tick₁ :: tick₂ :: ticks).length ≤ 2 * (m₁ :: m₂ :: m₃ :: ms).length / 3 ∨
          (m₁ :: m₂ :: m₃ :: ms).length % 3 = 0) ↔
          (ticks.length ≤ 2 * ms.length / 3 ∨ ms.length % 3 = 0) := by
        rw [hlen]
        simp only [List.length_cons]
        omega
      have hhalf : (tick₁ :: tick₂ :: ticks).length / 2 = ticks.length / 2 + 1 := by
        simp only [List.length_cons]
        omega
      rw [masterLoop_cons hrun₁, masterLoop_cons hrun₂, ih, hhalf]
      by_cases h : ticks.length ≤ 2 * ms.length / 3 ∨ ms.length % 3 = 0
      · rw [if_pos h, if_pos (hcond.mpr h)]
        rfl
      · rw [if_neg h, if_neg fun h' => h (hcond.mp h')]
        rfl

/-- **The shipped event loop handles every third message, each as one of the worker `"\x01"`**, in
    whatever order the messages of the workers have come before it; where their number is not divisible
    by three it ends up waiting for a frame for ever. -/
theorem loop_handles_thirds (cluster : ClusterStateSnapshot) (files : Files)
    (arrivals : List WorkerMessage) (haddr : ∀ m ∈ arrivals, m.Addressed)
    (hwf : WellFormed cluster) (ticks : List MasterTick) :
    (masterLoop ticks (masterStart cluster files arrivals)).map (·.2) =
      if ticks.length ≤ 2 * arrivals.length / 3 ∨ arrivals.length % 3 = 0 then
        some (((everyThird arrivals).take (ticks.length / 2)).map misnamed)
      else none :=
  masterLoop_thirds arrivals ticks (masterStart_stream cluster files arrivals) haddr hwf

/-- A worker `w1` that joins, sends a heartbeat and joins again. -/
def restartedMessages : List WorkerMessage :=
  lonelyWorker.messages ++ lonelyWorker.messages.take 1

theorem loop_handles_thirds_restarted :
    (∀ m ∈ restartedMessages, m.Addressed) ∧ WellFormed freshCluster ∧
    (masterLoop [plainTick, plainTick]
      (masterStart freshCluster (fun _ => none) restartedMessages)).map (·.2) =
        some [(startOfHeading, VomRouterMsgCode.joinReq.code)] := by
  have haddr : ∀ m ∈ restartedMessages, m.Addressed := by decide +kernel
  have h := loop_handles_thirds freshCluster (fun _ => none) restartedMessages haddr
    (create_wellFormed _ _) [plainTick, plainTick]
  rw [if_pos (by decide)] at h
  exact ⟨haddr, create_wellFormed _ _, h⟩

end VoidOsMerger
