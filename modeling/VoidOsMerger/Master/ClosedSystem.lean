/-
  File:      VoidOsMerger/Master/ClosedSystem.lean
  Subject:   THE SHIPPED MASTER AND ANY NUMBER OF SHIPPED WORKERS, under any schedule.

  The system is the master's event loop, the workers' `main`s and the frames between them, over a
  lossless ROUTER/DEALER pair. An iteration of the master that waits for a frame has not been made yet:
  the frames are taken in the order they came, so it makes no difference when.

  * `Outbox.Stray` -- everything the master sends is addressed to the empty string, to `"\x01"` or to
    a string with a zero byte;
  * `systemInv_step` -- the invariant of the system;
  * **`no_worker_gets_past_its_join`** -- no worker ever receives a frame or sends anything but its
    JOIN_REQ, and the master never registers a worker other than number 1.
-/
import VoidOsMerger.Master.Thirds
import VoidOsMerger.Worker.MainLoop

namespace VoidOsMerger

/-! ## 1. The system -/

/-- A worker and the number of frames it has taken from its socket. -/
structure Peer where
  process : WorkerProcess
  taken : Nat

structure ShippedSystem where
  master : MasterState
  peers : List Peer

inductive SystemOp
  | master (tick : MasterTick)
  | worker (i : Nat) (tick : WorkerTick)
  | signal (i : Nat) (tick : WorkerTick)

/-- The identity of a worker's socket. -/
def Peer.identity (p : Peer) : Frame := p.process.workerId.str.bytes

/-- Whether the process waits for a frame. -/
def MainPhase.waits : MainPhase → Bool
  | .joinReq => false
  | .joinWait _ => true
  | .loopTop _ => false
  | .loopWait _ => true
  | .returned => false

/-- The next frame for a worker, if one has come. -/
def Peer.nextFrame (p : Peer) (m : MasterState) : Option Frame :=
  ((dealerInbox p.identity m.outbox.sent).stream[p.taken]?).map (·.1)

/-- What happens to a worker when it is its turn: it takes a frame or, not waiting for one, goes on. -/
def Peer.turn (p : Peer) (m : MasterState) (tick : WorkerTick) : Option (MainEvent × Nat) :=
  if p.process.phase.waits then (p.nextFrame m).map fun f => (.frame tick f, p.taken + 1)
  else some (.go tick, p.taken)

/-- Worker `i` makes a step; what it sends reaches the master's socket. -/
def ShippedSystem.move (s : ShippedSystem) (i : Nat) (p : Peer) (e : MainEvent) (taken : Nat) :
    ShippedSystem × List (Nat × WorkerMessage) :=
  let sent := sentBy p.process e
  ({ master := { s.master with inbox := { s.master.inbox with
        stream := s.master.inbox.stream ++ arrived sent } }
     peers := s.peers.set i ⟨workerMain.next p.process e, taken⟩ },
   sent.map fun m => (i, m))

/-- The system; its answers are the messages sent, with the worker that sends them. -/
def shippedSystem : Machine ShippedSystem SystemOp (List (Nat × WorkerMessage)) where
  step s
    | .master tick => match masterIteration tick s.master with
      | none => (s, [])
      | some (m, _) => ({ s with master := m }, [])
    | .worker i tick => match s.peers[i]? with
      | none => (s, [])
      | some p => match p.turn s.master tick with
        | none => (s, [])
        | some (e, taken) => s.move i p e taken
    | .signal i tick => match s.peers[i]? with
      | none => (s, [])
      | some p => s.move i p (.signal tick) p.taken

/-- The master with an empty socket, and workers that have just connected. -/
def shippedStart (cluster : ClusterStateSnapshot) (files : Files) (ids : List (NulBuf 64)) :
    ShippedSystem where
  master := masterStart cluster files []
  peers := ids.map fun id => ⟨.connected id, 0⟩

/-! ## 2. Whom the master writes to -/

/-- No identity a worker can have, except `"\x01"`. -/
def StrayFrame (f : Frame) : Prop := f = [] ∨ f = [1] ∨ 0 ∈ f

/-- Every message, sent or begun, is addressed to no worker. -/
structure Outbox.Stray (o : Outbox) : Prop where
  sent : ∀ message ∈ o.sent, ∃ f rest, message = f :: rest ∧ StrayFrame f
  opened : o.opened = [] ∨ ∃ f rest, o.opened = f :: rest ∧ StrayFrame f

theorem Outbox.Stray.send {o : Outbox} (h : o.Stray) {f : Frame} (hf : StrayFrame f) (more : Bool) :
    (o.send f more).Stray := by
  -- the frame opens a message, or goes behind the address of the one begun
  have hopened : ∃ g rest, o.opened ++ [f] = g :: rest ∧ StrayFrame g := by
    rcases h.opened with hnone | ⟨g, rest, hg, hstray⟩
    · exact ⟨f, [], by rw [hnone]; rfl, hf⟩
    · exact ⟨g, rest ++ [f], by rw [hg]; rfl, hstray⟩
  cases more with
  | true => exact ⟨h.sent, Or.inr hopened⟩
  | false =>
    refine ⟨fun message hm => ?_, Or.inl rfl⟩
    rcases List.mem_append.mp hm with hm | hm
    · exact h.sent message hm
    · rw [List.mem_singleton.mp hm]
      exact hopened

theorem Outbox.Stray.trySend {o : Outbox} (h : o.Stray) {f : Frame} (hf : StrayFrame f)
    (ok more : Bool) : (VoidOsMerger.trySend ok o f more).Stray := by
  unfold VoidOsMerger.trySend
  split
  · exact h.send hf more
  · exact h

/-- An envelope has a zero byte. -/
theorem stray_envelope (env : VomRouterEnvelope) (hversion : env.protocolVersion = 1) :
    StrayFrame (envelopeCodec.enc env) := by
  refine Or.inr (Or.inr ?_)
  show 0 ∈ Codec.u16.enc env.protocolVersion ++ _
  rw [hversion, show Codec.u16.enc 1 = [1, 0] by decide]
  simp

theorem Outbox.Stray.joinResp {o : Outbox} (h : o.Stray) (tick : MasterTick) (taken : WorkerMessage)
    (env : VomRouterEnvelope) : (sendJoinResp tick (tick.idAfter taken.frame) env o).Stray := by
  have hname : (CStr.upTo (tick.idAfter taken.frame)).bytes = [1] := by
    unfold MasterTick.idAfter
    rw [upTo_idBufAfter taken.frame_fits.2, upTo_frame]
    rfl
  unfold sendJoinResp
  rw [hname]
  exact ((h.trySend (Or.inr (Or.inl rfl)) _ _).trySend (Or.inl rfl) _ _).trySend
    (stray_envelope _ rfl) _ _

/-- A worker no stray message reaches. -/
def Peer.Ordinary (p : Peer) : Prop := 0 < p.identity.length ∧ p.identity ≠ [1]

theorem Outbox.Stray.dealerInbox {o : Outbox} (h : o.Stray) {p : Peer} (hp : p.Ordinary) :
    (VoidOsMerger.dealerInbox p.identity o.sent).stream = [] := by
  have hnone : o.sent.filterMap (addressed p.identity) = [] := by
    refine List.filterMap_eq_nil_iff.mpr fun message hm => ?_
    obtain ⟨f, rest, rfl, hstray⟩ := h.sent message hm
    have hne : f ≠ p.identity := by
      rintro rfl
      rcases hstray with hempty | hone | hzero
      · have hpos := hp.1
        rw [hempty] at hpos
        exact absurd hpos (Nat.lt_irrefl 0)
      · exact hp.2 hone
      · exact p.process.workerId.str.noNul 0 hzero rfl
    exact if_neg hne
  unfold VoidOsMerger.dealerInbox
  rw [hnone]
  rfl

theorem nextFrame_none {p : Peer} {m : MasterState} (h : m.outbox.Stray) (hp : p.Ordinary) :
    p.nextFrame m = none := by
  unfold Peer.nextFrame
  rw [h.dealerInbox hp]
  rfl

/-! ## 3. The master's invariant -/

/-- Where the master is: at an identity or, one iteration on, at a buffer. -/
def Unread (stream : List (Frame × Bool)) : Prop :=
  ∃ ms : List WorkerMessage, (∀ m ∈ ms, m.Addressed) ∧
    (stream = arrived ms ∨ ∃ taken : WorkerMessage, stream = (taken.frame, false) :: arrived ms)

theorem Unread.append {stream : List (Frame × Bool)} (h : Unread stream) {ms : List WorkerMessage}
    (hms : ∀ m ∈ ms, m.Addressed) : Unread (stream ++ arrived ms) := by
  obtain ⟨old, hold, hstream⟩ := h
  refine ⟨old ++ ms, List.forall_mem_append.mpr ⟨hold, hms⟩, ?_⟩
  rw [arrived_append]
  rcases hstream with rfl | ⟨taken, rfl⟩
  · exact Or.inl rfl
  · exact Or.inr ⟨taken, rfl⟩

/-- The members the master has: those it started with, and number 1. -/
def OnlyOneNew (start c : ClusterStateSnapshot) : Prop :=
  ∀ w ∈ c.workers, w.workerId ∈ start.workers.map (·.workerId) ∨ w.workerId = 1

structure MasterInv (start : ClusterStateSnapshot) (m : MasterState) : Prop where
  unread : Unread m.inbox.stream
  stray : m.outbox.Stray
  wellFormed : WellFormed m.cluster
  members : OnlyOneNew start m.cluster

theorem Handled.onlyOneNew {tick : MasterTick} {idBuf payload : List UInt8} {env : VomRouterEnvelope}
    {c c' start : ClusterStateSnapshot} (h : Handled tick idBuf env payload c c')
    (hc : WellFormed c) (hnumber : workerNumber idBuf = 1) (hold : OnlyOneNew start c) :
    OnlyOneNew start c' := by
  cases h with
  | refused _ _ => exact hold
  | joined _ hroom _ =>
    intro w hw
    rw [bumpGeneration_workers, registered_workers hc.countsInRange hroom] at hw
    rcases List.mem_append.mp hw with hw | hw
    · exact hold w hw
    · rw [List.mem_singleton.mp hw]
      exact Or.inr hnumber
  | unknown _ _ => exact hold
  | @heard _ i old hslot _ =>
    intro w hw
    rw [bumpGeneration_workers, beaten_workers] at hw
    rcases List.mem_or_eq_of_mem_set hw with hw | rfl
    · exact hold w hw
    · exact hold old (List.mem_of_getElem? hslot)
  | ignored _ _ => exact hold

theorem masterInv_iteration {start : ClusterStateSnapshot} {m m' : MasterState} {tick : MasterTick}
    {p : Option Processed} (h : MasterInv start m) (hrun : masterIteration tick m = some (m', p)) :
    MasterInv start m' := by
  obtain ⟨ms, haddr, hstream⟩ := h.unread
  have hall : ∀ {x y : WorkerMessage} {rest : List WorkerMessage}, ms = x :: y :: rest →
      ∀ z ∈ rest, z.Addressed := fun hms z hz => haddr z (by rw [hms]; simp [hz])
  rcases hstream with hstream | ⟨taken, hstream⟩
  · -- at an identity
    match hms : ms with
    | [] =>
      have hidle : receiveMessage tick m = some (m, none) := by
        unfold receiveMessage Inbox.recv
        rw [hstream]
        rfl
      obtain ⟨t, ht, hinbox, hcluster, houtbox⟩ := masterIteration_receive hidle
      obtain ⟨rfl, rfl⟩ := Prod.mk.inj (Option.some.inj (hrun.symm.trans ht))
      exact ⟨by rw [hinbox]; exact h.unread, by rw [houtbox]; exact h.stray,
        by rw [hcluster]; exact h.wellFormed, by rw [hcluster]; exact h.members⟩
    | [x] =>
      rw [iteration_waits tick (Or.inl ⟨x, haddr x (by simp), hstream⟩)] at hrun
      cases hrun
    | x :: y :: rest =>
      obtain ⟨t, ht, hinbox, hcluster, houtbox⟩ := iteration_arrived tick hstream (haddr x (by simp))
      obtain ⟨rfl, rfl⟩ := Prod.mk.inj (Option.some.inj (hrun.symm.trans ht))
      exact ⟨⟨rest, hall rfl, Or.inr ⟨y, hinbox⟩⟩, by rw [houtbox]; exact h.stray,
        by rw [hcluster]; exact h.wellFormed, by rw [hcluster]; exact h.members⟩
  · -- at a buffer
    match hms : ms with
    | [] =>
      rw [iteration_waits tick (Or.inr ⟨taken, hstream⟩)] at hrun
      cases hrun
    | x :: rest =>
      obtain ⟨t, ht, hinbox, hhandled, houtbox⟩ :=
        iteration_shifted tick hstream h.wellFormed.countsInRange
      obtain ⟨rfl, rfl⟩ := Prod.mk.inj (Option.some.inj (hrun.symm.trans ht))
      refine ⟨⟨rest, fun z hz => haddr z (by simp [hz]), Or.inl hinbox⟩, ?_,
        hhandled.wellFormed h.wellFormed,
        hhandled.onlyOneNew h.wellFormed (workerNumber_shifted taken tick) h.members⟩
      rw [houtbox]
      split
      · exact h.stray.joinResp tick taken _
      · exact h.stray

/-! ## 4. The workers' invariant -/

/-- A worker that has not got past its JOIN_REQ, and how many messages it has sent. -/
def MainPhase.Stuck (running : Bool) (sent : Nat) : MainPhase → Prop
  | .joinReq => sent = 0
  | .joinWait _ => sent ≤ 1
  | .loopTop _ => running = false ∧ sent ≤ 1
  | .loopWait _ => False
  | .returned => sent ≤ 1

theorem MainPhase.Stuck.le {phase : MainPhase} {running : Bool} {sent : Nat}
    (h : phase.Stuck running sent) : sent ≤ 1 := by
  cases phase with
  | joinReq =>
    have hnone : sent = 0 := h
    omega
  | joinWait attempts => exact h
  | loopTop last => exact h.2
  | loopWait last => exact h.elim
  | returned => exact h

/-- A signal ends the loop before it is entered. -/
theorem MainPhase.Stuck.keepsRunning {phase : MainPhase} {running : Bool} {sent : Nat}
    (h : phase.Stuck running sent) (e : MainEvent) : phase.Stuck (e.keepsRunning running) sent := by
  cases e with
  | go tick => exact h
  | frame tick frame => exact h
  | signal tick =>
    cases phase with
    | joinReq => exact h
    | joinWait attempts => exact h
    | loopTop last => exact ⟨rfl, h.2⟩
    | loopWait last => exact h
    | returned => exact h

/-- **Without a frame a worker stays where it is**, and sends at most its JOIN_REQ. -/
theorem stuck_step {w : WorkerProcess} {e : MainEvent} (hnone : ∀ tick frame, e ≠ .frame tick frame)
    {sent : Nat} (h : w.phase.Stuck w.running sent) :
    (workerMain.next w e).phase.Stuck (workerMain.next w e).running (sent + (sentBy w e).length) ∧
    ∀ m ∈ sentBy w e, m.code = .joinReq ∧ m.identity = w.workerId.str := by
  obtain ⟨phase, hstep, hnext⟩ := mainStep w e
  rw [hnext]
  generalize sentBy w e = ms at hstep
  dsimp only
  cases hstep with
  | joins hphase =>
    rw [hphase] at h
    have hsent : sent = 0 := h
    refine ⟨?_, fun m hm => ?_⟩
    · rw [hsent]
      exact Nat.le_refl 1
    · rw [List.mem_singleton.mp hm]
      exact ⟨rfl, rfl⟩
  | fails hphase => exact ⟨h.le, fun m hm => absurd hm List.not_mem_nil⟩
  | @tries attempts hphase harrives joined =>
    refine ⟨?_, fun m hm => absurd hm List.not_mem_nil⟩
    have hstopped : e.keepsRunning w.running = false := by
      cases e with
      | go tick => cases harrives
      | frame tick frame => exact absurd rfl (hnone tick frame)
      | signal tick => rfl
    unfold afterAttempt
    split
    · exact ⟨hstopped, h.le⟩
    · exact h.le
  | leaves hphase => exact ⟨h.le, fun m hm => absurd hm List.not_mem_nil⟩
  | beats hphase hrunning hdue =>
    rw [hphase] at h
    exact absurd (hrunning.symm.trans h.1) (by decide)
  | passes hphase hrunning =>
    rw [hphase] at h
    exact absurd (hrunning.symm.trans h.1) (by decide)
  | turns hphase harrives hacks =>
    rw [hphase] at h
    exact h.elim
  | rests => exact ⟨h.keepsRunning e, fun m hm => absurd hm List.not_mem_nil⟩

/-! ## 5. The system's invariant -/

/-- The messages worker `i` has sent. -/
def sentByWorker (i : Nat) (log : List (Nat × WorkerMessage)) : List WorkerMessage :=
  (log.filter fun x => x.1 = i).map (·.2)

theorem sentByWorker_append (i j : Nat) (log : List (Nat × WorkerMessage)) (ms : List WorkerMessage) :
    sentByWorker i (log ++ ms.map fun m => (j, m)) =
      sentByWorker i log ++ if j = i then ms else [] := by
  unfold sentByWorker
  rw [List.filter_append, List.map_append, List.filter_map]
  congr 1
  by_cases hij : j = i
  · simp [hij, Function.comp_def]
  · simp [hij, Function.comp_def]

structure SystemInv (start : ClusterStateSnapshot) (s : ShippedSystem)
    (log : List (Nat × WorkerMessage)) : Prop where
  master : MasterInv start s.master
  ordinary : ∀ p ∈ s.peers, p.Ordinary
  untouched : ∀ p ∈ s.peers, p.taken = 0
  stuck : ∀ (i : Nat) (p : Peer), s.peers[i]? = some p →
    p.process.phase.Stuck p.process.running (sentByWorker i log).length
  joins : ∀ x ∈ log, x.2.code = .joinReq ∧ x.1 < s.peers.length

/-- The messages a step of the system sends. -/
def systemSends (s : ShippedSystem) (op : SystemOp) : List (Nat × WorkerMessage) :=
  shippedSystem.answer s op

/-- A worker's step that is not the reception of a frame. -/
theorem systemInv_move {start : ClusterStateSnapshot} {s : ShippedSystem}
    {log : List (Nat × WorkerMessage)} (h : SystemInv start s log) {i : Nat} {p : Peer}
    (hp : s.peers[i]? = some p) {e : MainEvent} (hnone : ∀ tick frame, e ≠ .frame tick frame) :
    SystemInv start (s.move i p e p.taken).1 (log ++ (s.move i p e p.taken).2) := by
  have hmem : p ∈ s.peers := List.mem_of_getElem? hp
  have hordinary := h.ordinary p hmem
  obtain ⟨hi, -⟩ := List.getElem?_eq_some_iff.mp hp
  obtain ⟨hstuck, hsent⟩ := stuck_step hnone (h.stuck i p hp)
  have hid : (workerMain.next p.process e).workerId = p.process.workerId := by
    obtain ⟨phase, -, hnext⟩ := mainStep p.process e
    rw [hnext]
  have haddressed : ∀ m ∈ sentBy p.process e, m.Addressed := by
    intro m hm
    unfold WorkerMessage.Addressed
    rw [(hsent m hm).2]
    exact ⟨hordinary.1, p.process.workerId.strlen_lt⟩
  refine ⟨⟨h.master.unread.append haddressed, h.master.stray, h.master.wellFormed, h.master.members⟩,
    fun q hq => ?_, fun q hq => ?_, fun j q hq => ?_, fun x hx => ?_⟩
  · rcases List.mem_or_eq_of_mem_set hq with hq | rfl
    · exact h.ordinary q hq
    · unfold Peer.Ordinary Peer.identity
      dsimp only
      rw [hid]
      exact hordinary
  · rcases List.mem_or_eq_of_mem_set hq with hq | rfl
    · exact h.untouched q hq
    · exact h.untouched p hmem
  · show q.process.phase.Stuck q.process.running
      (sentByWorker j (log ++ (sentBy p.process e).map fun m => (i, m))).length
    rw [sentByWorker_append, List.length_append]
    have hq : (s.peers.set i ⟨workerMain.next p.process e, p.taken⟩)[j]? = some q := hq
    by_cases hij : i = j
    · subst hij
      rw [List.getElem?_set_self hi] at hq
      cases hq
      rw [if_pos rfl]
      exact hstuck
    · rw [List.getElem?_set_ne hij] at hq
      rw [if_neg hij]
      exact h.stuck j q hq
  · show x.2.code = .joinReq ∧ x.1 < (s.peers.set i _).length
    rw [List.length_set]
    rcases List.mem_append.mp hx with hx | hx
    · exact h.joins x hx
    · obtain ⟨m, hm, rfl⟩ := List.mem_map.mp hx
      exact ⟨(hsent m hm).1, hi⟩

theorem systemInv_step (start : ClusterStateSnapshot) (s : ShippedSystem) (op : SystemOp)
    (log : List (Nat × WorkerMessage)) (h : SystemInv start s log) :
    SystemInv start (shippedSystem.next s op) (log ++ systemSends s op) := by
  have hsame : SystemInv start s (log ++ []) := (List.append_nil log).symm ▸ h
  show SystemInv start (shippedSystem.step s op).1 (log ++ (shippedSystem.step s op).2)
  unfold shippedSystem
  cases op with
  | master tick =>
    dsimp only
    cases hrun : masterIteration tick s.master with
    | none => exact hsame
    | some r =>
      exact ⟨masterInv_iteration h.master hrun, hsame.ordinary, hsame.untouched, hsame.stuck, hsame.joins⟩
  | worker i tick =>
    dsimp only
    cases hp : s.peers[i]? with
    | none => exact hsame
    | some p =>
      have hmem : p ∈ s.peers := List.mem_of_getElem? hp
      dsimp only
      unfold Peer.turn
      by_cases hwaits : p.process.phase.waits = true
      · rw [if_pos hwaits, nextFrame_none h.master.stray (h.ordinary p hmem)]
        exact hsame
      · rw [if_neg hwaits]
        exact systemInv_move h hp fun _ _ => nofun
  | signal i tick =>
    dsimp only
    cases hp : s.peers[i]? with
    | none => exact hsame
    | some p => exact systemInv_move h hp fun _ _ => nofun

theorem systemInv_start {cluster : ClusterStateSnapshot} (hwf : WellFormed cluster) (files : Files)
    {ids : List (NulBuf 64)} (hids : ∀ id ∈ ids, 0 < id.str.strlen ∧ id.str.bytes ≠ [1]) :
    SystemInv cluster (shippedStart cluster files ids) [] := by
  refine ⟨⟨⟨[], fun m hm => absurd hm List.not_mem_nil, Or.inl rfl⟩,
    ⟨fun m hm => absurd hm List.not_mem_nil, Or.inl rfl⟩, hwf,
    fun w hw => Or.inl (List.mem_map_of_mem hw)⟩, fun p hp => ?_, fun p hp => ?_, fun i p hp => ?_,
    fun x hx => absurd hx List.not_mem_nil⟩
  · obtain ⟨id, hid, rfl⟩ := List.mem_map.mp hp
    exact hids id hid
  · obtain ⟨id, hid, rfl⟩ := List.mem_map.mp hp
    rfl
  · obtain ⟨id, hid, rfl⟩ := List.mem_map.mp (List.mem_of_getElem? hp)
    rfl

/-- **No worker gets past its JOIN_REQ.** In every run of the shipped binaries over a lossless pair of
    sockets, any number of workers with ids that are neither empty nor `"\x01"`, under any schedule and
    with any signals, no worker ever receives a frame or reaches the reception of its loop; each sends
    at most one message, its JOIN_REQ; and the master registers nobody but worker 1. -/
theorem no_worker_gets_past_its_join (cluster : ClusterStateSnapshot) (files : Files)
    (ids : List (NulBuf 64)) (hwf : WellFormed cluster)
    (hids : ∀ id ∈ ids, 0 < id.str.strlen ∧ id.str.bytes ≠ [1]) (ops : List SystemOp) :
    let s := shippedSystem.run (shippedStart cluster files ids) ops
    let sent := shippedSystem.log systemSends (shippedStart cluster files ids) ops
    (∀ p ∈ s.peers, p.taken = 0 ∧ ∀ last, p.process.phase ≠ .loopWait last) ∧
    (∀ i, (sentByWorker i sent).length ≤ 1) ∧ (∀ x ∈ sent, x.2.code = .joinReq) ∧
    ∀ w ∈ s.master.cluster.workers,
      w.workerId ∈ cluster.workers.map (·.workerId) ∨ w.workerId = 1 := by
  intro s sent
  have h : SystemInv cluster s sent :=
    shippedSystem.invariant_log systemSends (SystemInv cluster)
      (fun s o L hs (_ : (fun _ _ => True) s o) => systemInv_step cluster s o L hs)
      (systemInv_start hwf files hids) (shippedSystem.legal_true _ ops)
  refine ⟨fun p hp => ⟨h.untouched p hp, fun last hlast => ?_⟩, fun i => ?_, fun x hx => (h.joins x hx).1,
    h.master.members⟩
  · obtain ⟨i, hi⟩ := List.mem_iff_getElem?.mp hp
    have hstuck := h.stuck i p hi
    rw [hlast] at hstuck
    exact hstuck
  · cases hp : s.peers[i]? with
    | some p => exact (h.stuck i p hp).le
    | none =>
      have hnone : sentByWorker i sent = [] := by
        unfold sentByWorker
        rw [List.map_eq_nil_iff, List.filter_eq_nil_iff]
        intro x hx hxi
        have hlt := (h.joins x hx).2
        rw [of_decide_eq_true hxi] at hlt
        exact absurd hlt (Nat.not_lt.mpr (List.getElem?_eq_none_iff.mp hp))
      rw [hnone]
      exact Nat.zero_le 1

/-- Three workers, each of which has sent its JOIN_REQ, and the master's two iterations. -/
def threeJoins : List SystemOp :=
  [.worker 0 (plainWorkerTick 1000), .worker 1 (plainWorkerTick 1000), .worker 2 (plainWorkerTick 1000),
    .master plainTick, .master plainTick]

/-- The identities `w1`, `w2` and `w3`. -/
def threeIds : List (NulBuf 64) :=
  [NulBuf.copy 63 (CStr.upTo [119, 49]), NulBuf.copy 63 (CStr.upTo [119, 50]),
    NulBuf.copy 63 (CStr.upTo [119, 51])]

theorem no_worker_gets_past_its_join_three :
    WellFormed freshCluster ∧ (∀ id ∈ threeIds, 0 < id.str.strlen ∧ id.str.bytes ≠ [1]) ∧
    ∀ w ∈ (shippedSystem.run (shippedStart freshCluster (fun _ => none) threeIds)
      threeJoins).master.cluster.workers,
        w.workerId ∈ freshCluster.workers.map (·.workerId) ∨ w.workerId = 1 := by
  have hids : ∀ id ∈ threeIds, 0 < id.str.strlen ∧ id.str.bytes ≠ [1] := by decide
  exact ⟨create_wellFormed _ _, hids, (no_worker_gets_past_its_join freshCluster (fun _ => none)
    threeIds (create_wellFormed _ _) hids threeJoins).2.2.2⟩

end VoidOsMerger
