/-
  File:      VoidOsMerger/Master/Identity.lean
  Subject:   WORKERS AND THEIR NUMBERS: which members the master takes the workers for.

  The master knows a worker by `atoi(id_buf + 7)`, with 1 for 0. Of an identity that
  `generate_worker_id` makes from a hardware address this is the part of the first octet before its
  first hexadecimal letter.

  * `generateWorkerId_hardware` -- the identities a hardware address gives;
  * `Handled.wellFormed`, `Handled.ids_grow` -- no message moves or renames a member;
  * **`notConfused_iff`** -- two hardware identities keep two members exactly when their numbers
    differ.
-/
import VoidOsMerger.Master.Handler
import VoidOsMerger.ClusterState.Invariant

namespace VoidOsMerger

/-! ## 1. Hardware identities -/

/-- A hexadecimal digit, of either case. -/
def isHexDigit (b : UInt8) : Bool :=
  isDigit b || (97 ≤ b && b ≤ 102) || (65 ≤ b && b ≤ 70)

/-- One octet of a hardware address, as text. -/
structure HexPair where
  hi : UInt8
  lo : UInt8
  hiHex : isHexDigit hi = true
  loHex : isHexDigit lo = true
  deriving DecidableEq

def HexPair.bytes (p : HexPair) : List UInt8 := [p.hi, p.lo]

/-- The last three octets of a hardware address. -/
structure HardwareId where
  first : HexPair
  second : HexPair
  third : HexPair
  deriving DecidableEq

/-- `XX:XX:XX` -/
def HardwareId.octets (x : HardwareId) : List UInt8 :=
  x.first.bytes ++ 58 :: x.second.bytes ++ 58 :: x.third.bytes

/-- `worker-XX:XX:XX` -/
def HardwareId.identity (x : HardwareId) : Frame := workerPrefix ++ x.octets

/-- The decimal digits an octet starts with, as a number. -/
def HexPair.lead (p : HexPair) : Nat :=
  if isDigit p.hi then
    if isDigit p.lo then 10 * (p.hi.toNat - 48) + (p.lo.toNat - 48) else p.hi.toNat - 48
  else 0

/-- The number of a hardware identity: never 0. -/
def HardwareId.number (x : HardwareId) : Nat := max 1 x.first.lead

theorem isDigit_iff {b : UInt8} : isDigit b = true ↔ 48 ≤ b.toNat ∧ b.toNat ≤ 57 := by
  unfold isDigit
  rw [Bool.and_eq_true, decide_eq_true_eq, decide_eq_true_eq, UInt8.le_iff_toNat_le,
    UInt8.le_iff_toNat_le]
  exact Iff.rfl

theorem hexDigit_range {b : UInt8} (h : isHexDigit b = true) : 48 ≤ b.toNat ∧ b.toNat ≤ 102 := by
  unfold isHexDigit at h
  simp only [Bool.or_eq_true, isDigit_iff, Bool.and_eq_true, decide_eq_true_eq,
    UInt8.le_iff_toNat_le] at h
  rcases h with (h | ⟨h, h'⟩) | ⟨h, h'⟩
  · omega
  · exact ⟨Nat.le_trans (by decide) h, h'⟩
  · exact ⟨Nat.le_trans (by decide) h, Nat.le_trans h' (by decide)⟩

section Text

variable (x : HardwareId)

theorem octets_range : ∀ b ∈ x.octets, 48 ≤ b.toNat := by
  intro b hb
  have hchar : b = 58 ∨ isHexDigit b = true := by
    simp only [HardwareId.octets, HexPair.bytes, List.cons_append, List.nil_append, List.mem_cons,
      List.not_mem_nil, or_false] at hb
    rcases hb with rfl | rfl | rfl | rfl | rfl | rfl | rfl | rfl
    · exact Or.inr x.first.hiHex
    · exact Or.inr x.first.loHex
    · exact Or.inl rfl
    · exact Or.inr x.second.hiHex
    · exact Or.inr x.second.loHex
    · exact Or.inl rfl
    · exact Or.inr x.third.hiHex
    · exact Or.inr x.third.loHex
  rcases hchar with rfl | hhex
  · decide
  · exact (hexDigit_range hhex).1

theorem ne_zero_of_range {b : UInt8} (h : 48 ≤ b.toNat) : b ≠ 0 := by
  rintro rfl
  exact absurd h (by decide)

theorem upTo_bytes {l : List UInt8} (h : ∀ b ∈ l, b ≠ 0) : (CStr.upTo l).bytes = l :=
  List.takeWhile_eq_self_iff.mpr fun b hb => by simpa using h b hb

theorem octets_str : (CStr.upTo x.octets).bytes = x.octets :=
  upTo_bytes fun b hb => ne_zero_of_range (octets_range x b hb)

theorem identity_noNul : ∀ b ∈ x.identity, b ≠ 0 := by
  intro b hb
  rcases List.mem_append.mp hb with hb | hb
  · intro e
    rw [e] at hb
    exact absurd hb (by decide)
  · exact ne_zero_of_range (octets_range x b hb)

theorem length_identity : x.identity.length = 15 := rfl

/-- The word on a line of its own. -/
theorem scanWord_line {word : List UInt8} (hword : ∀ b ∈ word, 48 ≤ b.toNat) (hne : word ≠ [])
    (hlen : word.length ≤ 17) (rest : List UInt8) :
    scanWord 17 (word ++ 10 :: rest) = some (word, 10 :: rest) :=
  scanWord_append (fun _ hb => absurd hb List.not_mem_nil) hne
    (fun b hb => not_isSpace_of_range (hword b hb)) hlen
    fun b hb => by rw [← Option.some.inj hb]; rfl

/-- **The identities hardware gives**: the address file holds three octets, the three that count, and
    a line end. -/
theorem generateWorkerId_hardware (vendor : HardwareId) (rest : List UInt8)
    (wlan0 : Option (List UInt8)) (pid time : Int) :
    (generateWorkerId (some (vendor.octets ++ 58 :: x.octets ++ 10 :: rest)) wlan0 pid time).str.bytes =
      x.identity := by
  have hword : ∀ b ∈ vendor.octets ++ 58 :: x.octets, 48 ≤ b.toNat := by
    intro b hb
    rcases List.mem_append.mp hb with hb | hb
    · exact octets_range vendor b hb
    · rcases List.mem_cons.mp hb with rfl | hb
      · decide
      · exact octets_range x b hb
  have hmac : (vendor.octets ++ 58 :: x.octets).drop 9 = x.octets := rfl
  have hstr : CStr.upTo (workerPrefix ++ x.octets) = ⟨x.identity, identity_noNul x⟩ :=
    CStr.ext (upTo_bytes (identity_noNul x))
  unfold generateWorkerId
  rw [Option.orElse_some, Option.bind_some, scanWord_line hword nofun (Nat.le_refl 17)]
  dsimp only
  rw [hmac, octets_str, hstr, NulBuf.copy_str]
  show 15 ≤ 63
  decide

end Text

/-! ## 2. Numbers -/

theorem HexPair.lead_lt (p : HexPair) : p.lead < 100 := by
  unfold HexPair.lead
  split
  · rename_i hhi
    have hhi := isDigit_iff.mp hhi
    split
    · rename_i hlo
      have hlo := isDigit_iff.mp hlo
      omega
    · omega
  · decide

/-- The digits end at the first letter of the first octet, at the latest at its colon. -/
theorem digitsValue_octets (x : HardwareId) : digitsValue x.octets = x.first.lead := by
  show digitsValue (x.first.hi :: x.first.lo :: 58 :: _) = _
  unfold digitsValue HexPair.lead
  cases hd : isDigit x.first.hi with
  | false => rw [List.takeWhile_cons_of_neg (by rw [hd]; exact Bool.false_ne_true)]; rfl
  | true =>
    rw [List.takeWhile_cons_of_pos hd]
    cases hl : isDigit x.first.lo with
    | false =>
      rw [List.takeWhile_cons_of_neg (by rw [hl]; exact Bool.false_ne_true)]
      exact Nat.zero_add _
    | true =>
      rw [List.takeWhile_cons_of_pos hl, List.takeWhile_cons_of_neg (by decide)]
      show 10 * (10 * 0 + (x.first.hi.toNat - 48)) + (x.first.lo.toNat - 48) = _
      rw [if_pos rfl, if_pos rfl]
      omega

/-- `atoi` reads the first octet up to its first letter. -/
theorem atoi_octets (x : HardwareId) : atoi (CStr.upTo x.octets) = x.first.lead := by
  rw [atoi_unsigned (octets_str x) (hexDigit_range x.first.hiHex).1]
  exact congrArg Int.ofNat (digitsValue_octets x)

/-- **The number the master takes.** -/
theorem workerNumber_identity (x : HardwareId) : workerNumber x.identity = UInt32.ofNat x.number := by
  have hlt := x.first.lead_lt
  have hword : uint32OfInt (atoi (CStr.upTo x.octets)) = UInt32.ofNat x.first.lead := by
    rw [atoi_octets, uint32OfInt]
    congr 1
    omega
  show (if uint32OfInt (atoi (CStr.upTo x.octets)) = 0 then 1
    else uint32OfInt (atoi (CStr.upTo x.octets))) = UInt32.ofNat x.number
  rw [hword]
  unfold HardwareId.number
  by_cases h0 : x.first.lead = 0
  · rw [h0]
    rfl
  · have hne : UInt32.ofNat x.first.lead ≠ 0 := by
      intro e
      have hnat := congrArg UInt32.toNat e
      rw [UInt32.toNat_ofNat_of_lt' (Nat.lt_trans hlt (by decide))] at hnat
      exact h0 hnat
    rw [if_neg hne, Nat.max_eq_right (Nat.pos_of_ne_zero h0)]

theorem number_eq_iff (x y : HardwareId) :
    workerNumber x.identity = workerNumber y.identity ↔ x.number = y.number := by
  have hlt : ∀ z : HardwareId, z.number < 2 ^ 32 := by
    intro z
    have h := z.first.lead_lt
    unfold HardwareId.number
    omega
  rw [workerNumber_identity, workerNumber_identity]
  constructor
  · intro h
    have hnat := congrArg UInt32.toNat h
    rwa [UInt32.toNat_ofNat_of_lt' (hlt x), UInt32.toNat_ofNat_of_lt' (hlt y)] at hnat
  · intro h
    rw [h]

/-! ## 3. Messages and members -/

section Handled

variable {tick : MasterTick} {idBuf payload : List UInt8} {env : VomRouterEnvelope}
  {c c' : ClusterStateSnapshot} (h : Handled tick idBuf env payload c c')

include h

theorem Handled.wellFormed (hc : WellFormed c) : WellFormed c' := by
  cases h with
  | refused _ _ => exact hc.withGeneration _
  | joined _ hroom hnew => exact (registered_wellFormed hc hroom hnew).withGeneration _
  | unknown _ _ => exact hc.withGeneration _
  | heard _ hslot _ => exact (beaten_wellFormed hc hslot tick.nowMs).withGeneration _
  | ignored _ _ => exact hc

/-- A message at most appends a member. -/
theorem Handled.ids_grow (hc : WellFormed c) :
    c.workers.map (·.workerId) <+: c'.workers.map (·.workerId) := by
  cases h with
  | refused _ _ => exact List.prefix_refl _
  | joined _ hroom _ =>
    rw [bumpGeneration_workers, registered_workers hc.countsInRange hroom, List.map_append]
    exact List.prefix_append _ _
  | unknown _ _ => exact List.prefix_refl _
  | @heard _ i w hslot _ =>
    have hids : (c.beaten i w tick.nowMs).workers.map (·.workerId) = c.workers.map (·.workerId) := by
      rw [beaten_workers]
      exact map_set_key (x := w.beat tick.nowMs) (·.workerId) hslot rfl
    exact ⟨[], (List.append_nil _).trans hids.symm⟩
  | ignored _ _ => exact List.prefix_refl _

/-- After a JOIN_REQ while there is room, a member has the number. -/
theorem Handled.member (hc : WellFormed c)
    (hcode : env.messageCode = VomRouterMsgCode.joinReq.code)
    (hroom : c.totalRegisteredWorkers.toInt < clusterMaxWorkers) :
    workerNumber idBuf ∈ c'.workers.map (·.workerId) := by
  by_cases htaken : ∃ w ∈ c.workers, w.workerId = workerNumber idBuf
  · rw [h.workers_taken hcode htaken]
    obtain ⟨w, hw, hid⟩ := htaken
    exact List.mem_map.mpr ⟨w, hw, hid⟩
  · have hnew : ∀ w ∈ c.workers, w.workerId ≠ workerNumber idBuf :=
      fun w hw hid => htaken ⟨w, hw, hid⟩
    rw [h.workers_joined hcode hc.countsInRange hroom hnew, List.map_append]
    exact List.mem_append_right _ List.mem_cons_self

/-- A HEARTBEAT sets the time of the member with the number. -/
theorem Handled.lastSeen (hc : WellFormed c)
    (hcode : env.messageCode = VomRouterMsgCode.heartbeat.code) {i : Nat}
    (hi : (c.workers.map (·.workerId))[i]? = some (workerNumber idBuf)) :
    c'.workers.map (·.lastSeenTimestampMs) =
      (c.workers.map (·.lastSeenTimestampMs)).set i tick.nowMs := by
  cases h with
  | refused hj _ => exact absurd (hcode.symm.trans hj) (by decide)
  | joined hj _ _ => exact absurd (hcode.symm.trans hj) (by decide)
  | unknown _ hnone =>
    obtain ⟨w, hw, hid⟩ := List.mem_map.mp (List.mem_of_getElem? hi)
    exact absurd hid (hnone w hw)
  | @heard _ k w hslot hid =>
    have hk : (c.workers.map (·.workerId))[k]? = some (workerNumber idBuf) := by
      rw [List.getElem?_map, hslot, Option.map_some, hid]
    obtain ⟨hlt, -⟩ := List.getElem?_eq_some_iff.mp hk
    have hki : k = i := (List.getElem?_inj hlt hc.workerIds).mp (hk.trans hi.symm)
    rw [bumpGeneration_workers, beaten_workers, List.map_set, hki]
    rfl
  | ignored _ hb => exact absurd hcode hb

end Handled

/-- A message that comes as its three frames, and the iteration that takes it. -/
structure Delivery where
  tick : MasterTick
  identity : Frame
  delimiter : Frame
  frame : Frame

/-- The iteration. -/
def Delivery.run (d : Delivery) (s : MasterState) : Option MasterState :=
  (masterIteration d.tick
    { s with inbox := ⟨flagged [d.identity, d.delimiter, d.frame], false⟩ }).map (·.1)

/-- One iteration for each message. -/
def deliver : List Delivery → MasterState → Option MasterState
  | [], s => some s
  | d :: ds, s => (d.run s).bind (deliver ds)

/-- The rest of an iteration does not touch the cluster state. -/
theorem Delivery.run_cluster (d : Delivery) (s : MasterState) :
    (d.run s).map (·.cluster) =
      (receiveMessage d.tick
        { s with inbox := ⟨flagged [d.identity, d.delimiter, d.frame], false⟩ }).map (·.1.cluster) := by
  unfold Delivery.run masterIteration
  rw [Option.map_map, Option.map_map]
  congr 1
  funext r
  dsimp only [Function.comp]
  split
  · split <;> rfl
  · split <;> rfl

theorem Delivery.stream (d : Delivery) (s : MasterState) :
    (MasterState.inbox
      { s with inbox := ⟨flagged [d.identity, d.delimiter, d.frame], false⟩ }).stream =
    flagged [d.identity, d.delimiter, d.frame] ++ [] := (List.append_nil _).symm

/-- A readable message under an identity that fits is handled. -/
theorem Delivery.run_handled (d : Delivery) {s : MasterState} (hc : WellFormed s.cluster)
    (hid : 0 < d.identity.length ∧ d.identity.length < 64) (hread : Readable d.frame) :
    ∃ s', d.run s = some s' ∧ Handled d.tick (d.tick.idAfter d.identity) (frameHeader d.frame)
      (d.tick.payloadAfter d.frame) s.cluster s'.cluster := by
  obtain ⟨t, p, hrun, hcase⟩ :=
    receiveMessage_handled d.tick (d.stream s) hid.1 hid.2 hread hc.countsInRange
  have hcluster := d.run_cluster s
  rw [hrun, Option.map_some] at hcluster
  obtain ⟨s', hs', he⟩ := Option.map_eq_some_iff.mp hcluster
  exact ⟨s', hs', he ▸ hcase⟩

/-- Whatever the message, an iteration that ends keeps the state well-formed and every member where
    it is. -/
theorem Delivery.run_keeps (d : Delivery) {s s' : MasterState} (hc : WellFormed s.cluster)
    (h : d.run s = some s') : WellFormed s'.cluster ∧
      s.cluster.workers.map (·.workerId) <+: s'.cluster.workers.map (·.workerId) := by
  have hcluster := d.run_cluster s
  rw [h, Option.map_some] at hcluster
  by_cases hid : 0 < d.identity.length ∧ d.identity.length < 64
  · by_cases hread : Readable d.frame
    · obtain ⟨t, ht, hcase⟩ := d.run_handled hc hid hread
      obtain rfl : t = s' := Option.some.inj (ht.symm.trans h)
      exact ⟨hcase.wellFormed hc, hcase.ids_grow hc⟩
    · rw [receiveMessage_message _ (d.stream s) hid.1 hid.2, if_neg hread] at hcluster
      rw [Option.some.inj hcluster]
      exact ⟨hc, List.prefix_refl _⟩
  · rw [receiveMessage_noIdentity _ (d.stream s) hid] at hcluster
    split at hcluster
    · rw [Option.some.inj hcluster]
      exact ⟨hc, List.prefix_refl _⟩
    · cases hcluster

/-- **No run moves or renames a member.** -/
theorem deliver_keeps : ∀ (ds : List Delivery) {s s' : MasterState}, WellFormed s.cluster →
    deliver ds s = some s' → WellFormed s'.cluster ∧
      s.cluster.workers.map (·.workerId) <+: s'.cluster.workers.map (·.workerId)
  | [], s, s', hc, h => by
      obtain rfl : s = s' := Option.some.inj h
      exact ⟨hc, List.prefix_refl _⟩
  | d :: ds, s, s', hc, h => by
      obtain ⟨t, ht, hrest⟩ := Option.bind_eq_some_iff.mp h
      obtain ⟨hct, hpre⟩ := d.run_keeps hc ht
      obtain ⟨hc', hpre'⟩ := deliver_keeps ds hct hrest
      exact ⟨hc', hpre.trans hpre'⟩

/-! ## 4. Two workers -/

/-- A HEARTBEAT under this identity sets the time of member `i` and of no other. -/
def BeatsOnly (identity : Frame) (i : Nat) (s : MasterState) : Prop :=
  i < s.cluster.workers.length ∧
  ∀ d : Delivery, d.identity = identity → Readable d.frame →
    (frameHeader d.frame).messageCode = VomRouterMsgCode.heartbeat.code →
    ∃ s', d.run s = some s' ∧ s'.cluster.workers.map (·.lastSeenTimestampMs) =
      (s.cluster.workers.map (·.lastSeenTimestampMs)).set i d.tick.nowMs

def Room (s : MasterState) : Prop := s.cluster.totalRegisteredWorkers.toInt < clusterMaxWorkers

/-- After JOIN_REQs under both identities, in this order and with any messages between and after
    them, there are two members, and every HEARTBEAT under one of the identities is its own member's
    alone. -/
def NotConfused (x y : Frame) : Prop :=
  ∀ (s : MasterState) (dx : Delivery), WellFormed s.cluster → Room s → dx.identity = x →
    IsJoin x dx.frame → ∃ s₁, dx.run s = some s₁ ∧
    ∀ (between : List Delivery) (s₂ : MasterState) (dy : Delivery), deliver between s₁ = some s₂ →
      Room s₂ → dy.identity = y → IsJoin y dy.frame → ∃ s₃, dy.run s₂ = some s₃ ∧
      ∃ i j, i ≠ j ∧ ∀ (later : List Delivery) (s₄ : MasterState), deliver later s₃ = some s₄ →
        BeatsOnly x i s₄ ∧ BeatsOnly y j s₄

/-- A member with the number of an identity is the one its HEARTBEATs set. -/
theorem beatsOnly_of_slot {identity : Frame} (hlong : 7 ≤ identity.length)
    (hfit : identity.length < 64) {s : MasterState} (hc : WellFormed s.cluster) {i : Nat}
    (hi : (s.cluster.workers.map (·.workerId))[i]? = some (workerNumber identity)) :
    BeatsOnly identity i s := by
  constructor
  · obtain ⟨hlt, -⟩ := List.getElem?_eq_some_iff.mp hi
    rwa [List.length_map] at hlt
  · intro d hd hread hcode
    obtain ⟨s', hrun, hcase⟩ := d.run_handled hc (by rw [hd]; omega) hread
    refine ⟨s', hrun, hcase.lastSeen hc hcode ?_⟩
    rw [hi, hd]
    exact congrArg some (workerNumber_idBufAfter hfit d.tick.idBuf hlong).symm

/-- After a JOIN_REQ the number is a member's. -/
theorem Delivery.run_join (d : Delivery) {s : MasterState} (hc : WellFormed s.cluster)
    (hroom : Room s) (hlong : 7 ≤ d.identity.length) (hjoin : IsJoin d.identity d.frame) :
    ∃ s', d.run s = some s' ∧ WellFormed s'.cluster ∧
      s.cluster.workers.map (·.workerId) <+: s'.cluster.workers.map (·.workerId) ∧
      ∃ i : Nat, (s'.cluster.workers.map (·.workerId))[i]? = some (workerNumber d.identity) := by
  obtain ⟨hid, hread, hcode⟩ := hjoin
  obtain ⟨s', hrun, hcase⟩ := d.run_handled hc hid hread
  have hmem := hcase.member hc hcode hroom
  rw [MasterTick.idAfter, workerNumber_idBufAfter hid.2 d.tick.idBuf hlong] at hmem
  exact ⟨s', hrun, hcase.wellFormed hc, hcase.ids_grow hc, List.getElem?_of_mem hmem⟩

theorem getElem?_grown {l l' : List UInt32} (h : l <+: l') {i : Nat} {n : UInt32}
    (hi : l[i]? = some n) : l'[i]? = some n := by
  obtain ⟨hlt, hn⟩ := List.getElem?_eq_some_iff.mp hi
  rw [← hn]
  exact List.prefix_iff_getElem?.mp h i hlt

/-- Two identities with different numbers. -/
theorem notConfused_of_ne {x y : Frame} (hx : 7 ≤ x.length) (hy : 7 ≤ y.length)
    (hne : workerNumber x ≠ workerNumber y) : NotConfused x y := by
  intro s dx hc hroom hdx hjx
  subst hdx
  obtain ⟨s₁, hrun₁, hc₁, -, i, hi⟩ := dx.run_join hc hroom hx hjx
  refine ⟨s₁, hrun₁, ?_⟩
  intro between s₂ dy hbetween hroom₂ hdy hjy
  subst hdy
  obtain ⟨hc₂, hpre₂⟩ := deliver_keeps between hc₁ hbetween
  obtain ⟨s₃, hrun₃, hc₃, hpre₃, j, hj⟩ := dy.run_join hc₂ hroom₂ hy hjy
  have hi₃ := getElem?_grown hpre₃ (getElem?_grown hpre₂ hi)
  refine ⟨s₃, hrun₃, i, j, ?_, ?_⟩
  · intro hij
    rw [hij, hj] at hi₃
    exact hne (Option.some.inj hi₃).symm
  · intro later s₄ hlater
    obtain ⟨hc₄, hpre₄⟩ := deliver_keeps later hc₃ hlater
    exact ⟨beatsOnly_of_slot hx hjx.1.2 hc₄ (getElem?_grown hpre₄ hi₃),
      beatsOnly_of_slot hy hjy.1.2 hc₄ (getElem?_grown hpre₄ hj)⟩

/-- A worker's JOIN_REQ, delivered. -/
def joinDelivery (x : HardwareId) : Delivery :=
  ⟨plainTick, x.identity, [], sendEnvelope .joinReq joinPayload 0⟩

theorem joinDelivery_isJoin (x : HardwareId) :
    IsJoin (joinDelivery x).identity (joinDelivery x).frame := by
  refine ⟨?_, joinFrame_readable 4 (4 * 1024 * 1024 * 1024) 0, ?_⟩
  · show 0 < 15 ∧ 15 < 64
    decide
  · exact congrArg VomRouterEnvelope.messageCode (joinFrame_header 4 (4 * 1024 * 1024 * 1024) 0)

theorem joinDelivery_number (x : HardwareId) :
    workerNumber ((joinDelivery x).tick.idAfter (joinDelivery x).identity) = workerNumber x.identity :=
  workerNumber_idBufAfter (joinDelivery_isJoin x).1.2 _ (show 7 ≤ 15 by decide)

/-- The second of two workers with one number gets no member. -/
theorem confused_of_eq {x y : HardwareId} (heq : x.number = y.number) :
    ¬ NotConfused x.identity y.identity := by
  intro h
  have hjx := joinDelivery_isJoin x
  have hjy := joinDelivery_isJoin y
  generalize hs : masterWith freshCluster [] [] = s at h
  have hcluster : s.cluster = freshCluster := hs ▸ rfl
  have hnone : s.cluster.workers = [] := by rw [hcluster, freshCluster_workers]
  have hc : WellFormed s.cluster := hcluster ▸ create_wellFormed _ _
  have hroom : Room s := by
    unfold Room
    rw [hcluster]
    exact freshCluster_room
  -- the first gets the only member
  obtain ⟨s₁, hrun₁, hrest⟩ := h s (joinDelivery x) hc hroom rfl hjx
  obtain ⟨t, ht, hcase⟩ := (joinDelivery x).run_handled hc hjx.1 hjx.2.1
  obtain rfl : t = s₁ := Option.some.inj (ht.symm.trans hrun₁)
  have hworkers := hcase.workers_joined hjx.2.2 hc.countsInRange hroom (by
    rw [hnone]
    exact fun w hw => absurd hw List.not_mem_nil)
  rw [hnone, List.nil_append] at hworkers
  have hc₁ := hcase.wellFormed hc
  have hroom₁ : Room t := by
    have hlen := hc₁.countsInRange.length_workers
    have hmax : (clusterMaxWorkers : Int) = 32 := rfl
    rw [hworkers, List.length_singleton] at hlen
    unfold Room
    omega
  -- the second is refused
  obtain ⟨s₃, hrun₃, i, j, hij, hbeats⟩ := hrest [] t (joinDelivery y) rfl hroom₁ rfl hjy
  obtain ⟨u, hu, hcase₃⟩ := (joinDelivery y).run_handled hc₁ hjy.1 hjy.2.1
  obtain rfl : u = s₃ := Option.some.inj (hu.symm.trans hrun₃)
  have hworkers₃ := hcase₃.workers_taken hjy.2.2 (by
    rw [hworkers]
    refine ⟨_, List.mem_cons_self, ?_⟩
    rw [joinDelivery_number y, ← (number_eq_iff x y).mpr heq]
    exact joinDelivery_number x)
  obtain ⟨⟨hi, -⟩, ⟨hj, -⟩⟩ := hbeats [] u rfl
  rw [hworkers₃, hworkers, List.length_singleton] at hi hj
  omega

/-- **Which workers are kept apart**: those whose numbers differ. -/
theorem notConfused_iff (x y : HardwareId) :
    NotConfused x.identity y.identity ↔ x.number ≠ y.number := by
  constructor
  · intro h heq
    exact confused_of_eq heq h
  · intro hne
    refine notConfused_of_ne (by rw [length_identity]; decide) (by rw [length_identity]; decide) ?_
    intro heq
    exact hne ((number_eq_iff x y).mp heq)

/-- A pair of digits. -/
def digitPair (hi lo : Fin 10) : HexPair where
  hi := 48 + UInt8.ofNat hi
  lo := 48 + UInt8.ofNat lo
  hiHex := by revert hi; decide
  loHex := by revert lo; decide

/-- **Two workers become one**: `worker-52:54:00` and `worker-52:54:01`. -/
theorem workers_confused : ¬ ∀ x y : HardwareId, x.identity ≠ y.identity →
    NotConfused x.identity y.identity := by
  intro h
  let x : HardwareId := ⟨digitPair 5 2, digitPair 5 4, digitPair 0 0⟩
  let y : HardwareId := ⟨digitPair 5 2, digitPair 5 4, digitPair 0 1⟩
  have hnumber : x.number = y.number := rfl
  exact confused_of_eq hnumber (h x y (by decide +kernel))

end VoidOsMerger
