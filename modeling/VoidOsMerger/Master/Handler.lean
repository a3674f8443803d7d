/-
  File:      VoidOsMerger/Master/Handler.lean
  Subject:   A MESSAGE WHOSE THREE FRAMES HAVE COME: what the event loop makes of it.

  The handler reads the identity and the capabilities from stack buffers that `zmq_recv` fills only as
  far as the frame goes.

  * **`receiveMessage_message`, `handleMessage_cases`** -- what an iteration does with the message;
  * **`capacityArrives_iff`** -- the worker's JOIN_REQ has 12 bytes where the handler asks for 24, so
    only the default capabilities arrive;
  * **`decoding_frameOnly_iff`** -- when what is decoded depends on the frame alone.
-/
import VoidOsMerger.Master.Alignment
import VoidOsMerger.Transport.Envelope
import VoidOsMerger.ClusterState.Operations
import VoidOsMerger.Base.Table

namespace VoidOsMerger

/-! ## 1. Buffers -/

section Buffers

variable {n : Nat} {frame : Frame} {old : List UInt8}

/-- What the frame covers is the frame's. -/
theorem recvInto_slice {k l : Nat} (hframe : k + l ≤ frame.length) (hn : k + l ≤ n) :
    ((recvInto n frame old).drop k).take l = (frame.drop k).take l := by
  unfold recvInto
  rw [List.drop_append_of_le_length (by rw [List.length_take]; omega),
    List.take_append_of_le_length (by rw [List.length_drop, List.length_take]; omega),
    List.drop_take, List.take_take]
  congr 1
  omega

theorem recvInto_take {k : Nat} (hframe : k ≤ frame.length) (hn : k ≤ n) :
    (recvInto n frame old).take k = frame.take k := by
  have h : ((recvInto n frame old).drop 0).take k = (frame.drop 0).take k :=
    recvInto_slice (by omega) (by omega)
  rwa [List.drop_zero, List.drop_zero] at h

/-- What it does not cover is what was there. -/
theorem recvInto_stale {i : Nat} (hframe : frame.length ≤ n) (hi : frame.length ≤ i) :
    (recvInto n frame old)[i]? = old[i]? := by
  unfold recvInto
  rw [List.take_of_length_le hframe, Nat.min_eq_right hframe, List.getElem?_append_right hi,
    List.getElem?_drop]
  congr 1
  omega

theorem length_recvInto (hold : old.length = n) : (recvInto n frame old).length = n := by
  unfold recvInto
  rw [List.length_append, List.length_take, List.length_drop]
  omega

/-- The envelope is always the frame's. -/
theorem recvInto_header (h : envelopeCodec.size ≤ frame.length) :
    envelopeCodec.dec ((recvInto receiveBufferLen frame old).take envelopeCodec.size) =
      frameHeader frame := by
  have hn : envelopeCodec.size ≤ receiveBufferLen := Nat.le_add_right _ _
  rw [recvInto_take h hn]
  rfl

end Buffers

section Identity

variable {identity : Frame} (hfit : identity.length < 64) (old : Vector UInt8 64)

include hfit

theorem idBufAfter_eq : idBufAfter identity old.toList =
    identity ++ 0 :: old.toList.drop (identity.length + 1) := by
  unfold idBufAfter recvInto
  have hlen : old.toList.length = 64 := Vector.length_toList
  rw [List.take_of_length_le (by omega), Nat.min_eq_right (by omega),
    List.set_append_right _ _ (Nat.le_refl _), Nat.sub_self,
    List.drop_eq_getElem_cons (by omega : identity.length < old.toList.length), List.set_cons_zero]

/-- The string in `id_buf` is the identity. -/
theorem upTo_idBufAfter : CStr.upTo (idBufAfter identity old.toList) = CStr.upTo identity := by
  rw [idBufAfter_eq hfit, CStr.upTo_append_zero]

/-- An identity of at least seven bytes decides the worker's number. -/
theorem workerNumber_idBufAfter (hlong : 7 ≤ identity.length) :
    workerNumber (idBufAfter identity old.toList) = workerNumber identity := by
  unfold workerNumber
  rw [idBufAfter_eq hfit, List.drop_append_of_le_length hlong, CStr.upTo_append_zero]

end Identity

/-- With a shorter one the number is read behind it, from what the buffer held. -/
theorem workerNumber_stale {identity : Frame} (hshort : identity.length < 7) (old : Vector UInt8 64) :
    workerNumber (idBufAfter identity old.toList) = workerNumber old.toList := by
  unfold workerNumber
  rw [idBufAfter_eq (by omega), List.drop_append, List.drop_of_length_le (by omega), List.nil_append,
    show 7 - identity.length = (6 - identity.length) + 1 by omega, List.drop_succ_cons,
    List.drop_drop, show identity.length + 1 + (6 - identity.length) = 7 by omega]

/-! ## 2. The handler -/

/-- `id_buf` after the identity has come. -/
def MasterTick.idAfter (tick : MasterTick) (identity : Frame) : List UInt8 :=
  idBufAfter identity tick.idBuf.toList

/-- The bytes at `payload_ptr` after the payload frame has come. -/
def MasterTick.payloadAfter (tick : MasterTick) (frame : Frame) : List UInt8 :=
  (recvInto receiveBufferLen frame tick.pbuf.toList).drop envelopeCodec.size

/-- The frames that reach the `switch`. -/
def Readable (frame : Frame) : Prop :=
  envelopeCodec.size ≤ frame.length ∧ (frameHeader frame).protocolVersion = 1

instance (frame : Frame) : Decidable (Readable frame) := inferInstanceAs (Decidable (_ ∧ _))

/-- An iteration on a message whose three frames have come. -/
theorem receiveMessage_message (tick : MasterTick) {s : MasterState}
    {identity delimiter frame : Frame} {rest : List (Frame × Bool)}
    (hstream : s.inbox.stream = flagged [identity, delimiter, frame] ++ rest)
    (hpos : 0 < identity.length) (hfit : identity.length < 64) :
    receiveMessage tick s =
      if Readable frame then
        (handleMessage tick (tick.idAfter identity) (frameHeader frame) (tick.payloadAfter frame)
          { s with inbox := ⟨rest, false⟩ }).map fun s =>
            (s, some (CStr.upTo identity, (frameHeader frame).messageCode))
      else some ({ s with inbox := ⟨rest, false⟩ }, none) := by
  have hstream : s.inbox.stream = (identity, true) :: (delimiter, true) :: (frame, false) :: rest :=
    hstream
  unfold receiveMessage Inbox.recv
  simp only [hstream, if_neg (Nat.ne_of_gt hpos), if_neg (Nat.not_le.mpr hfit)]
  by_cases hsize : envelopeCodec.size ≤ frame.length
  · rw [if_neg (Nat.not_lt.mpr hsize), recvInto_header hsize, upTo_idBufAfter hfit]
    by_cases hversion : (frameHeader frame).protocolVersion = 1
    · rw [if_neg (not_not.mpr hversion), if_pos ⟨hsize, hversion⟩]
      rfl
    · rw [if_pos hversion, if_neg fun h => hversion h.2]
  · rw [if_pos (Nat.not_le.mp hsize), if_neg fun h => hsize h.1]

/-- An identity that is empty or does not fit ends the iteration before any buffer is read. -/
theorem receiveMessage_noIdentity (tick : MasterTick) {s : MasterState}
    {identity delimiter frame : Frame} {rest : List (Frame × Bool)}
    (hstream : s.inbox.stream = flagged [identity, delimiter, frame] ++ rest)
    (hno : ¬ (0 < identity.length ∧ identity.length < 64)) :
    receiveMessage tick s = if identity.length = 0 then
      some ({ s with inbox := ⟨(delimiter, true) :: (frame, false) :: rest, true⟩ }, none)
      else none := by
  have hstream : s.inbox.stream = (identity, true) :: (delimiter, true) :: (frame, false) :: rest :=
    hstream
  unfold receiveMessage Inbox.recv
  simp only [hstream]
  by_cases hpos : identity.length = 0
  · rw [if_pos hpos, if_pos hpos]
  · rw [if_neg hpos, if_neg hpos, if_pos (by omega)]

/-- The member a JOIN_REQ registers. -/
def joinMember (tick : MasterTick) (idBuf : List UInt8) (env : VomRouterEnvelope)
    (payload : List UInt8) : WorkerMember where
  workerId := workerNumber idBuf
  health := .value .online
  lastSeenTimestampMs := tick.nowMs
  resources := joinResources env payload

/-- What a message does to the cluster state. -/
inductive Handled (tick : MasterTick) (idBuf : List UInt8) (env : VomRouterEnvelope)
    (payload : List UInt8) (c : ClusterStateSnapshot) : ClusterStateSnapshot → Prop
  | refused (hcode : env.messageCode = VomRouterMsgCode.joinReq.code)
      (hwhy : c.totalRegisteredWorkers.toInt = clusterMaxWorkers ∨
        ∃ w ∈ c.workers, w.workerId = workerNumber idBuf) :
      Handled tick idBuf env payload c (bumpGeneration c)
  | joined (hcode : env.messageCode = VomRouterMsgCode.joinReq.code)
      (hroom : c.totalRegisteredWorkers.toInt < clusterMaxWorkers)
      (hnew : ∀ w ∈ c.workers, w.workerId ≠ workerNumber idBuf) :
      Handled tick idBuf env payload c
        (bumpGeneration (c.registered (joinMember tick idBuf env payload)))
  | unknown (hcode : env.messageCode = VomRouterMsgCode.heartbeat.code)
      (hnone : ∀ w ∈ c.workers, w.workerId ≠ workerNumber idBuf) :
      Handled tick idBuf env payload c (bumpGeneration c)
  | heard (hcode : env.messageCode = VomRouterMsgCode.heartbeat.code) {i : Nat} {w : WorkerMember}
      (hslot : c.workers[i]? = some w) (hid : w.workerId = workerNumber idBuf) :
      Handled tick idBuf env payload c (bumpGeneration (c.beaten i w tick.nowMs))
  | ignored (hjoin : env.messageCode ≠ VomRouterMsgCode.joinReq.code)
      (hbeat : env.messageCode ≠ VomRouterMsgCode.heartbeat.code) :
      Handled tick idBuf env payload c c

/-- **The handler ends**, and does one of these. -/
theorem handleMessage_cases (tick : MasterTick) (idBuf : List UInt8) (env : VomRouterEnvelope)
    (payload : List UInt8) (s : MasterState) (h : CountsInRange s.cluster) :
    ∃ s', handleMessage tick idBuf env payload s = some s' ∧
      Handled tick idBuf env payload s.cluster s'.cluster := by
  unfold handleMessage
  split
  · rename_i hcode
    dsimp only
    rcases register_cases h (joinMember tick idBuf env payload) with ⟨hrun, hwhy⟩ | ⟨hroom, hnew, hrun⟩
    · unfold joinMember at hrun
      rw [hrun]
      exact ⟨_, rfl, .refused hcode hwhy⟩
    · unfold joinMember at hrun
      rw [hrun]
      exact ⟨_, rfl, .joined hcode hroom hnew⟩
  · rename_i hjoin
    split
    · rename_i hcode
      rcases heartbeat_cases h (workerNumber idBuf) tick.nowMs with
        ⟨hrun, hnone⟩ | ⟨i, w, hslot, hid, hrun⟩
      · rw [hrun]
        exact ⟨_, rfl, .unknown hcode hnone⟩
      · rw [hrun]
        exact ⟨_, rfl, .heard hcode hslot hid⟩
    · rename_i hbeat
      exact ⟨s, rfl, .ignored hjoin hbeat⟩

/-- An iteration on a readable message. -/
theorem receiveMessage_handled (tick : MasterTick) {s : MasterState}
    {identity delimiter frame : Frame} {rest : List (Frame × Bool)}
    (hstream : s.inbox.stream = flagged [identity, delimiter, frame] ++ rest)
    (hpos : 0 < identity.length) (hfit : identity.length < 64) (hread : Readable frame)
    (hcounts : CountsInRange s.cluster) :
    ∃ s' p, receiveMessage tick s = some (s', p) ∧
      Handled tick (tick.idAfter identity) (frameHeader frame) (tick.payloadAfter frame) s.cluster
        s'.cluster := by
  rw [receiveMessage_message tick hstream hpos hfit, if_pos hread]
  obtain ⟨s', hrun, hcase⟩ := handleMessage_cases tick (tick.idAfter identity) (frameHeader frame)
    (tick.payloadAfter frame) { s with inbox := ⟨rest, false⟩ } hcounts
  rw [hrun]
  exact ⟨s', _, rfl, hcase⟩

section Handled

variable {tick : MasterTick} {idBuf payload : List UInt8} {env : VomRouterEnvelope}
  {c c' : ClusterStateSnapshot}

theorem bumpGeneration_workers (c : ClusterStateSnapshot) : (bumpGeneration c).workers = c.workers := rfl

/-- A JOIN_REQ of a new worker, while there is room, appends the member it describes. -/
theorem Handled.workers_joined (h : Handled tick idBuf env payload c c')
    (hcode : env.messageCode = VomRouterMsgCode.joinReq.code) (hcounts : CountsInRange c)
    (hroom : c.totalRegisteredWorkers.toInt < clusterMaxWorkers)
    (hnew : ∀ w ∈ c.workers, w.workerId ≠ workerNumber idBuf) :
    c'.workers = c.workers ++ [joinMember tick idBuf env payload] := by
  cases h with
  | joined _ _ _ =>
    rw [bumpGeneration_workers]
    exact registered_workers hcounts hroom _
  | refused _ hwhy =>
    rcases hwhy with hfull | ⟨w, hw, hid⟩
    · exact absurd hfull (Int.ne_of_lt hroom)
    · exact absurd hid (hnew w hw)
  | unknown hc _ => exact absurd (hcode.symm.trans hc) (by decide)
  | heard hc _ _ => exact absurd (hcode.symm.trans hc) (by decide)
  | ignored hc _ => exact absurd hcode hc

/-- A JOIN_REQ under a number that is taken changes no member. -/
theorem Handled.workers_taken (h : Handled tick idBuf env payload c c')
    (hcode : env.messageCode = VomRouterMsgCode.joinReq.code)
    (htaken : ∃ w ∈ c.workers, w.workerId = workerNumber idBuf) : c'.workers = c.workers := by
  cases h with
  | joined _ _ hnew =>
    obtain ⟨w, hw, hid⟩ := htaken
    exact absurd hid (hnew w hw)
  | refused _ _ => rfl
  | unknown _ _ => rfl
  | heard hc _ _ => exact absurd (hcode.symm.trans hc) (by decide)
  | ignored _ _ => rfl

/-- Any other message leaves every member's resources. -/
theorem Handled.resources_kept (h : Handled tick idBuf env payload c c')
    (hcode : env.messageCode ≠ VomRouterMsgCode.joinReq.code) :
    c'.workers.map (·.resources) = c.workers.map (·.resources) := by
  cases h with
  | joined hc _ _ => exact absurd hc hcode
  | refused hc _ => exact absurd hc hcode
  | unknown _ _ => rfl
  | @heard _ i w hslot _ =>
    rw [bumpGeneration_workers, beaten_workers]
    exact map_set_key (x := w.beat tick.nowMs) (·.resources) hslot rfl
  | ignored _ _ => rfl

end Handled

/-! ## 3. Capabilities -/

/-- From a worker that is not registered, while there is room: the member that the JOIN_REQ with these
    capabilities registers has them. -/
def CapacityArrives (cores : UInt32) (mem : UInt64) : Prop :=
  ∀ (tick : MasterTick) (s : MasterState) (identity delimiter : Frame) (timestampMs : UInt64)
    (rest : List (Frame × Bool)), CountsInRange s.cluster →
    s.cluster.totalRegisteredWorkers.toInt < clusterMaxWorkers →
    0 < identity.length → identity.length < 64 →
    (∀ w ∈ s.cluster.workers, w.workerId ≠ workerNumber (tick.idAfter identity)) →
    s.inbox.stream = flagged
      [identity, delimiter, sendEnvelope .joinReq (joinRequest cores mem) timestampMs] ++ rest →
    ∃ s' p w, receiveMessage tick s = some (s', p) ∧
      s'.cluster.workers = s.cluster.workers ++ [w] ∧
      w.workerId = workerNumber (tick.idAfter identity) ∧
      w.resources.totalCores = cores ∧ w.resources.totalMemoryBytes = mem

section Join

variable (cores : UInt32) (mem timestampMs : UInt64)

theorem length_joinRequest : (joinRequest cores mem).length = 12 := by
  rw [joinRequest, List.length_append, Codec.length_enc, Codec.length_enc]
  rfl

theorem joinFrame_header :
    frameHeader (sendEnvelope .joinReq (joinRequest cores mem) timestampMs) =
      ⟨1, VomRouterMsgCode.joinReq.code, 12, 0, timestampMs⟩ := by
  have h := frameHeader_encode VomRouterMsgCode.joinReq.code 0 timestampMs (joinRequest cores mem)
  rwa [length_joinRequest] at h

theorem joinFrame_readable :
    Readable (sendEnvelope .joinReq (joinRequest cores mem) timestampMs) := by
  have hlen := length_encode VomRouterMsgCode.joinReq.code 0 timestampMs (joinRequest cores mem)
  refine ⟨?_, ?_⟩
  · show envelopeCodec.size ≤ (encodeMessage _ _ _ _).length
    rw [hlen]
    exact Nat.le_add_right _ _
  · rw [joinFrame_header]

/-- Twelve bytes of payload are too few: the defaults. -/
theorem joinFrame_resources (payload : List UInt8) :
    joinResources (frameHeader (sendEnvelope .joinReq (joinRequest cores mem) timestampMs)) payload =
      ⟨4 * 1024 * 1024 * 1024, 0, 4, 0⟩ := by
  rw [joinFrame_header]
  rfl

end Join

/-- A master whose next message this is. -/
def masterWith (cluster : ClusterStateSnapshot) (identity frame : Frame) : MasterState where
  cluster := cluster
  inbox := ⟨flagged [identity, [], frame], false⟩
  outbox := ⟨[], []⟩
  files := fun _ => none
  lastSchedulerTickMs := 0
  lastWalPersistMs := 0

theorem freshCluster_countsInRange : CountsInRange freshCluster := by decide +kernel

theorem freshCluster_room : freshCluster.totalRegisteredWorkers.toInt < clusterMaxWorkers := by
  decide +kernel

theorem freshCluster_workers : freshCluster.workers = [] := by decide +kernel

/-- `"worker-1"` -/
def workerOneId : Frame := workerPrefix ++ [49]

/-- The member that a JOIN_REQ with any capabilities registers. -/
theorem joinFrame_registers (cores : UInt32) (mem : UInt64) (tick : MasterTick) {s : MasterState}
    {identity delimiter : Frame} {timestampMs : UInt64} {rest : List (Frame × Bool)}
    (hcounts : CountsInRange s.cluster)
    (hroom : s.cluster.totalRegisteredWorkers.toInt < clusterMaxWorkers)
    (hpos : 0 < identity.length) (hfit : identity.length < 64)
    (hnew : ∀ w ∈ s.cluster.workers, w.workerId ≠ workerNumber (tick.idAfter identity))
    (hstream : s.inbox.stream = flagged
      [identity, delimiter, sendEnvelope .joinReq (joinRequest cores mem) timestampMs] ++ rest) :
    ∃ s' p, receiveMessage tick s = some (s', p) ∧ s'.cluster.workers = s.cluster.workers ++
      [⟨workerNumber (tick.idAfter identity), .value .online, tick.nowMs,
        ⟨4 * 1024 * 1024 * 1024, 0, 4, 0⟩⟩] := by
  obtain ⟨s', p, hrun, hcase⟩ := receiveMessage_handled tick hstream hpos hfit
    (joinFrame_readable cores mem timestampMs) hcounts
  have hjoined := hcase.workers_joined (by rw [joinFrame_header]) hcounts hroom hnew
  unfold joinMember at hjoined
  rw [joinFrame_resources] at hjoined
  exact ⟨s', p, hrun, hjoined⟩

theorem CapacityArrives.defaults {cores : UInt32} {mem : UInt64} (h : CapacityArrives cores mem) :
    cores = 4 ∧ mem = 4 * 1024 * 1024 * 1024 := by
  have hnew : ∀ w ∈ freshCluster.workers, w.workerId ≠ workerNumber (plainTick.idAfter workerOneId) := by
    rw [freshCluster_workers]
    exact fun w hw => absurd hw List.not_mem_nil
  generalize hs : masterWith freshCluster workerOneId
    (sendEnvelope .joinReq (joinRequest cores mem) 0) = s
  have hcluster : s.cluster = freshCluster := hs ▸ rfl
  have hstream : s.inbox.stream = flagged
    [workerOneId, [], sendEnvelope .joinReq (joinRequest cores mem) 0] ++ [] := hs ▸ rfl
  have hcounts : CountsInRange s.cluster := hcluster ▸ freshCluster_countsInRange
  have hroom : s.cluster.totalRegisteredWorkers.toInt < clusterMaxWorkers :=
    hcluster ▸ freshCluster_room
  rw [← hcluster] at hnew
  obtain ⟨s', p, w, hrun, hworkers, -, hcores, hmem⟩ := h plainTick s workerOneId [] 0 []
    hcounts hroom (by decide) (by decide) hnew hstream
  obtain ⟨t, q, hrun', hjoined⟩ := joinFrame_registers cores mem plainTick
    hcounts hroom (by decide) (by decide) hnew hstream
  have hsame : s' = t := congrArg Prod.fst (Option.some.inj (hrun.symm.trans hrun'))
  rw [hsame, hjoined] at hworkers
  have hw := List.singleton_inj.mp (List.append_cancel_left hworkers)
  rw [← hw] at hcores hmem
  exact ⟨hcores.symm, hmem.symm⟩

/-- **Only the default capabilities arrive.** -/
theorem capacityArrives_iff (cores : UInt32) (mem : UInt64) :
    CapacityArrives cores mem ↔ cores = 4 ∧ mem = 4 * 1024 * 1024 * 1024 := by
  constructor
  · exact CapacityArrives.defaults
  · intro ⟨hcores, hmem⟩ tick s identity delimiter timestampMs rest hcounts hroom hpos hfit hnew hstream
    obtain ⟨s', p, hrun, hjoined⟩ :=
      joinFrame_registers cores mem tick hcounts hroom hpos hfit hnew hstream
    exact ⟨s', p, _, hrun, hjoined, rfl, hcores.symm, hmem.symm⟩

/-- **Eight cores do not arrive.** -/
theorem join_loses_capacity : ¬ ∀ (cores : UInt32) (mem : UInt64), CapacityArrives cores mem := by
  intro h
  exact absurd (h 8 0).defaults.1 (by decide)

/-! ## 4. Decoding and what the buffers held -/

/-- Whatever its buffer held, `recv_envelope` gives the same result on the frame. -/
def RecvFrameOnly (frame : Frame) : Prop :=
  ∀ buf buf' : Vector UInt8 receiveBufferLen, recvEnvelope buf frame = recvEnvelope buf' frame

/-- Whatever the buffers of the master held, the members it has after the message have the same
    resources. -/
def JoinFrameOnly (identity frame : Frame) : Prop :=
  ∀ (tick : MasterTick) (idBuf : Vector UInt8 64) (pbuf : Vector UInt8 receiveBufferLen)
    (s : MasterState) (delimiter : Frame) (rest : List (Frame × Bool)), CountsInRange s.cluster →
    s.inbox.stream = flagged [identity, delimiter, frame] ++ rest →
    (receiveMessage tick s).map (·.1.cluster.workers.map (·.resources)) =
      (receiveMessage { tick with idBuf := idBuf, pbuf := pbuf } s).map
        (·.1.cluster.workers.map (·.resources))

/-- `recv_envelope` on a frame: what its buffer held shows only in the payload. -/
theorem recvEnvelope_eq (buf : Vector UInt8 receiveBufferLen) (frame : Frame) :
    recvEnvelope buf frame =
      if envelopeCodec.size ≤ frame.length ∧ (frameHeader frame).payloadLength.toNat ≤ payloadMaxLen then
        some (frameHeader frame, (frameHeader frame).payloadLength,
          ((recvInto receiveBufferLen frame buf.toList).drop envelopeCodec.size).take
            (frameHeader frame).payloadLength.toNat)
      else none := by
  unfold recvEnvelope
  dsimp only
  by_cases hsize : envelopeCodec.size ≤ frame.length
  · rw [if_neg (Nat.not_lt.mpr hsize), recvInto_header hsize]
    by_cases hmax : (frameHeader frame).payloadLength.toNat ≤ payloadMaxLen
    · have hle : ¬ UInt32.ofNat payloadMaxLen < (frameHeader frame).payloadLength := by
        rw [UInt32.lt_iff_toNat_lt]
        exact Nat.not_lt.mpr hmax
      rw [if_neg hle, if_pos ⟨hsize, hmax⟩]
    · have hlt : UInt32.ofNat payloadMaxLen < (frameHeader frame).payloadLength := by
        rw [UInt32.lt_iff_toNat_lt]
        exact Nat.not_le.mp hmax
      rw [if_pos hlt, if_neg fun h => hmax h.2]
  · rw [if_pos (Nat.not_le.mp hsize), if_neg fun h => hsize h.1]

/-- Two buffers that differ everywhere. -/
theorem replicate_differ {i : Nat} (h : i < receiveBufferLen) :
    (Vector.replicate receiveBufferLen (0 : UInt8)).toList[i]? ≠
      (Vector.replicate receiveBufferLen (1 : UInt8)).toList[i]? := by
  rw [Vector.toList_replicate, Vector.toList_replicate, List.getElem?_replicate_of_lt h,
    List.getElem?_replicate_of_lt h]
  decide

/-- **`recv_envelope` depends on the frame alone** exactly when the frame is refused or has all the
    bytes its envelope declares. -/
theorem recvFrameOnly_iff (frame : Frame) :
    RecvFrameOnly frame ↔ (envelopeCodec.size ≤ frame.length →
      (frameHeader frame).payloadLength.toNat ≤ payloadMaxLen →
      envelopeCodec.size + (frameHeader frame).payloadLength.toNat ≤ frame.length) := by
  have hbuf : receiveBufferLen = envelopeCodec.size + payloadMaxLen := rfl
  constructor
  · intro h hsize hmax
    by_contra hlong
    have heq := h (Vector.replicate _ 0) (Vector.replicate _ 1)
    rw [recvEnvelope_eq, recvEnvelope_eq, if_pos ⟨hsize, hmax⟩, if_pos ⟨hsize, hmax⟩] at heq
    -- the first byte behind the frame
    have hbyte := congrArg (fun r => r.2.2[frame.length - envelopeCodec.size]?) (Option.some.inj heq)
    dsimp only at hbyte
    rw [List.getElem?_take_of_lt (by omega), List.getElem?_take_of_lt (by omega), List.getElem?_drop,
      List.getElem?_drop, Nat.add_sub_cancel' hsize, recvInto_stale (by omega) (Nat.le_refl _),
      recvInto_stale (by omega) (Nat.le_refl _)] at hbyte
    exact replicate_differ (by omega) hbyte
  · intro h buf buf'
    rw [recvEnvelope_eq, recvEnvelope_eq]
    by_cases htaken : envelopeCodec.size ≤ frame.length ∧
        (frameHeader frame).payloadLength.toNat ≤ payloadMaxLen
    · have hall := h htaken.1 htaken.2
      rw [if_pos htaken, if_pos htaken, recvInto_slice hall (by omega), recvInto_slice hall (by omega)]
    · rw [if_neg htaken, if_neg htaken]

/-- A message that reaches the JOIN_REQ branch. -/
def IsJoin (identity frame : Frame) : Prop :=
  (0 < identity.length ∧ identity.length < 64) ∧ Readable frame ∧
    (frameHeader frame).messageCode = VomRouterMsgCode.joinReq.code

/-- The capabilities are read from the frame when it has them all. -/
theorem joinResources_frameOnly {frame : Frame}
    (h : 24 ≤ (frameHeader frame).payloadLength → envelopeCodec.size + 12 ≤ frame.length)
    (old old' : List UInt8) :
    joinResources (frameHeader frame)
        ((recvInto receiveBufferLen frame old).drop envelopeCodec.size) =
      joinResources (frameHeader frame)
        ((recvInto receiveBufferLen frame old').drop envelopeCodec.size) := by
  unfold joinResources
  by_cases hlen : 24 ≤ (frameHeader frame).payloadLength
  · have hall := h hlen
    have hbuf : envelopeCodec.size + 12 ≤ receiveBufferLen := by decide
    rw [if_pos hlen, if_pos hlen, List.drop_drop, List.drop_drop,
      recvInto_slice (by omega) (by omega), recvInto_slice (by omega) (by omega),
      recvInto_slice (by omega) (by omega), recvInto_slice (by omega) (by omega)]
  · rw [if_neg hlen, if_neg hlen]

/-- The last byte of the memory size behind the frame. -/
theorem joinResources_stale {frame : Frame} (hlen : 24 ≤ (frameHeader frame).payloadLength)
    (hshort : frame.length < envelopeCodec.size + 12) {old old' : List UInt8}
    (hold : old.length = receiveBufferLen) (hold' : old'.length = receiveBufferLen)
    (h : joinResources (frameHeader frame)
        ((recvInto receiveBufferLen frame old).drop envelopeCodec.size) =
      joinResources (frameHeader frame)
        ((recvInto receiveBufferLen frame old').drop envelopeCodec.size)) :
    old[envelopeCodec.size + 11]? = old'[envelopeCodec.size + 11]? := by
  have hbuf : envelopeCodec.size + 12 ≤ receiveBufferLen := by decide
  unfold joinResources at h
  rw [if_pos hlen, if_pos hlen, List.drop_drop, List.drop_drop] at h
  have hmem := congrArg (fun r => Codec.u64.enc r.totalMemoryBytes) h
  dsimp only at hmem
  have hu64 : Codec.u64.size = 8 := rfl
  have hlength : ∀ o : List UInt8, o.length = receiveBufferLen →
      (((recvInto receiveBufferLen frame o).drop (envelopeCodec.size + 4)).take 8).length = 8 := by
    intro o ho
    rw [List.length_take, List.length_drop, length_recvInto ho]
    omega
  rw [Codec.u64_exact _ (hlength old hold), Codec.u64_exact _ (hlength old' hold')] at hmem
  have hbyte := congrArg (·[7]?) hmem
  rw [List.getElem?_take_of_lt (by omega), List.getElem?_take_of_lt (by omega), List.getElem?_drop,
    List.getElem?_drop, Nat.add_assoc, recvInto_stale (by omega) (by omega),
    recvInto_stale (by omega) (by omega)] at hbyte
  exact hbyte

/-- A JOIN_REQ is the registration of its member. -/
theorem receiveMessage_join (tick : MasterTick) {s : MasterState} {identity delimiter frame : Frame}
    {rest : List (Frame × Bool)}
    (hstream : s.inbox.stream = flagged [identity, delimiter, frame] ++ rest)
    (hjoin : IsJoin identity frame) :
    (receiveMessage tick s).map (·.1.cluster) =
      (clusterStateRegisterWorker s.cluster (joinMember tick (tick.idAfter identity)
        (frameHeader frame) (tick.payloadAfter frame))).map fun r => bumpGeneration r.2 := by
  obtain ⟨⟨hpos, hfit⟩, hread, hcode⟩ := hjoin
  rw [receiveMessage_message tick hstream hpos hfit, if_pos hread, Option.map_map]
  unfold handleMessage
  rw [if_pos hcode, Option.map_map]
  rfl

/-- Under a long identity, with all that is read in the frame, the member is the frame's. -/
theorem joinMember_frameOnly {identity frame : Frame} (hfit : identity.length < 64)
    (hlong : 7 ≤ identity.length)
    (hwhole : 24 ≤ (frameHeader frame).payloadLength → envelopeCodec.size + 12 ≤ frame.length)
    {tick tick' : MasterTick} (hnow : tick.nowMs = tick'.nowMs) :
    joinMember tick (tick.idAfter identity) (frameHeader frame) (tick.payloadAfter frame) =
      joinMember tick' (tick'.idAfter identity) (frameHeader frame) (tick'.payloadAfter frame) := by
  have hid : ∀ t : MasterTick, workerNumber (t.idAfter identity) = workerNumber identity :=
    fun t => workerNumber_idBufAfter hfit t.idBuf hlong
  have hres : joinResources (frameHeader frame) (tick.payloadAfter frame) =
      joinResources (frameHeader frame) (tick'.payloadAfter frame) :=
    joinResources_frameOnly hwhole _ _
  unfold joinMember
  rw [hid tick, hid tick', hnow, hres]

theorem joinFrameOnly_of {identity frame : Frame}
    (h : IsJoin identity frame → 7 ≤ identity.length ∧
      (24 ≤ (frameHeader frame).payloadLength → envelopeCodec.size + 12 ≤ frame.length)) :
    JoinFrameOnly identity frame := by
  intro tick idBuf pbuf s delimiter rest hcounts hstream
  by_cases hid : 0 < identity.length ∧ identity.length < 64
  · by_cases hread : Readable frame
    · by_cases hcode : (frameHeader frame).messageCode = VomRouterMsgCode.joinReq.code
      · have hjoin : IsJoin identity frame := ⟨hid, hread, hcode⟩
        obtain ⟨hlong, hwhole⟩ := h hjoin
        have hnow : tick.nowMs = MasterTick.nowMs { tick with idBuf := idBuf, pbuf := pbuf } := rfl
        have hcluster : (receiveMessage tick s).map (·.1.cluster) =
            (receiveMessage { tick with idBuf := idBuf, pbuf := pbuf } s).map (·.1.cluster) := by
          rw [receiveMessage_join _ hstream hjoin, receiveMessage_join _ hstream hjoin,
            joinMember_frameOnly hid.2 hlong hwhole hnow]
        have hworkers := congrArg (Option.map fun c => c.workers.map (·.resources)) hcluster
        rwa [Option.map_map, Option.map_map] at hworkers
      · have hkept : ∀ t : MasterTick,
            (receiveMessage t s).map (·.1.cluster.workers.map (·.resources)) =
              some (s.cluster.workers.map (·.resources)) := by
          intro t
          obtain ⟨s', p, hrun, hcase⟩ := receiveMessage_handled t hstream hid.1 hid.2 hread hcounts
          rw [hrun, Option.map_some, hcase.resources_kept hcode]
        rw [hkept, hkept]
    · rw [receiveMessage_message _ hstream hid.1 hid.2, receiveMessage_message _ hstream hid.1 hid.2,
        if_neg hread, if_neg hread]
  · rw [receiveMessage_noIdentity _ hstream hid, receiveMessage_noIdentity _ hstream hid]

/-- An iteration with these stack buffers. -/
def tickWith (idBuf : Vector UInt8 64) (pbuf : Vector UInt8 receiveBufferLen) : MasterTick :=
  { plainTick with idBuf := idBuf, pbuf := pbuf }

/-- Two iterations on a JOIN_REQ that differ in their buffers. -/
theorem JoinFrameOnly.handled {identity frame : Frame} (h : JoinFrameOnly identity frame)
    (hjoin : IsJoin identity frame) {cluster : ClusterStateSnapshot} (hcounts : CountsInRange cluster)
    (idBuf idBuf' : Vector UInt8 64) (pbuf pbuf' : Vector UInt8 receiveBufferLen) :
    ∃ c c', Handled (tickWith idBuf pbuf) ((tickWith idBuf pbuf).idAfter identity)
        (frameHeader frame) ((tickWith idBuf pbuf).payloadAfter frame) cluster c ∧
      Handled (tickWith idBuf' pbuf') ((tickWith idBuf' pbuf').idAfter identity)
        (frameHeader frame) ((tickWith idBuf' pbuf').payloadAfter frame) cluster c' ∧
      c.workers.map (·.resources) = c'.workers.map (·.resources) := by
  obtain ⟨⟨hpos, hfit⟩, hread, -⟩ := hjoin
  have hstream : (masterWith cluster identity frame).inbox.stream =
    flagged [identity, [], frame] ++ [] := rfl
  obtain ⟨s, p, hrun, hcase⟩ :=
    receiveMessage_handled (tickWith idBuf pbuf) hstream hpos hfit hread hcounts
  obtain ⟨s', p', hrun', hcase'⟩ :=
    receiveMessage_handled (tickWith idBuf' pbuf') hstream hpos hfit hread hcounts
  have heq := h (tickWith idBuf pbuf) idBuf' pbuf' _ [] [] hcounts hstream
  have htick : { tickWith idBuf pbuf with idBuf := idBuf', pbuf := pbuf' } = tickWith idBuf' pbuf' := rfl
  rw [htick, hrun, hrun'] at heq
  exact ⟨_, _, hcase, hcase', Option.some.inj heq⟩

/-- A master with one worker, of number 1. -/
def oneWorkerCluster : ClusterStateSnapshot := freshCluster.registered { zeroWorker with workerId := 1 }

theorem oneWorkerCluster_countsInRange : CountsInRange oneWorkerCluster := by decide +kernel

theorem oneWorkerCluster_room :
    oneWorkerCluster.totalRegisteredWorkers.toInt < clusterMaxWorkers := by decide +kernel

theorem oneWorkerCluster_workers : oneWorkerCluster.workers = [{ zeroWorker with workerId := 1 }] := by
  decide +kernel

/-- The number of a short identity is what `id_buf` held: 1, which is taken, or 2. -/
theorem JoinFrameOnly.identity_long {identity frame : Frame} (h : JoinFrameOnly identity frame)
    (hjoin : IsJoin identity frame) : 7 ≤ identity.length := by
  by_contra hlong
  have hshort : identity.length < 7 := Nat.not_le.mp hlong
  let zeros : Vector UInt8 64 := Vector.replicate 64 0
  let two : Vector UInt8 64 := zeros.setIfInBounds 7 50
  let pbuf : Vector UInt8 receiveBufferLen := Vector.replicate receiveBufferLen 0
  obtain ⟨c, c', hcase, hcase', heq⟩ := h.handled hjoin oneWorkerCluster_countsInRange zeros two pbuf pbuf
  have hone : workerNumber ((tickWith zeros pbuf).idAfter identity) = 1 :=
    (workerNumber_stale hshort zeros).trans (by decide +kernel)
  have htwo : workerNumber ((tickWith two pbuf).idAfter identity) = 2 :=
    (workerNumber_stale hshort two).trans (by decide +kernel)
  have hc := hcase.workers_taken hjoin.2.2 (by
    rw [oneWorkerCluster_workers, hone]
    exact ⟨_, List.mem_cons_self, rfl⟩)
  have hc' := hcase'.workers_joined hjoin.2.2 oneWorkerCluster_countsInRange oneWorkerCluster_room (by
    rw [oneWorkerCluster_workers, htwo]
    intro w hw
    rw [List.mem_singleton.mp hw]
    decide)
  have hlen := congrArg List.length heq
  rw [hc, hc', List.length_map, List.length_map, List.length_append, List.length_singleton] at hlen
  omega

/-- The capabilities a frame declares and does not have are what `pbuf` held. -/
theorem JoinFrameOnly.frame_whole {identity frame : Frame} (h : JoinFrameOnly identity frame)
    (hjoin : IsJoin identity frame) (hlen : 24 ≤ (frameHeader frame).payloadLength) :
    envelopeCodec.size + 12 ≤ frame.length := by
  by_contra hwhole
  let idBuf : Vector UInt8 64 := Vector.replicate 64 0
  obtain ⟨c, c', hcase, hcase', heq⟩ := h.handled hjoin freshCluster_countsInRange idBuf idBuf
    (Vector.replicate _ 0) (Vector.replicate _ 1)
  have hnew : ∀ n : UInt32, ∀ w ∈ freshCluster.workers, w.workerId ≠ n := by
    rw [freshCluster_workers]
    exact fun n w hw => absurd hw List.not_mem_nil
  rw [hcase.workers_joined hjoin.2.2 freshCluster_countsInRange freshCluster_room (hnew _),
    hcase'.workers_joined hjoin.2.2 freshCluster_countsInRange freshCluster_room (hnew _),
    freshCluster_workers] at heq
  exact replicate_differ (by decide) (joinResources_stale hlen (Nat.not_le.mp hwhole)
    Vector.length_toList Vector.length_toList (List.singleton_inj.mp heq))

/-- An envelope of a JOIN_REQ that declares this many bytes of payload and has none. -/
def bareJoin (payloadLength : UInt32) : Frame :=
  envelopeCodec.enc ⟨1, VomRouterMsgCode.joinReq.code, payloadLength, 0, 0⟩

end VoidOsMerger
