/-
  File:      VoidOsMerger/Transport/Session.lean
  Subject:   A WORKER'S TRANSPORT OVER ITS WHOLE LIFE (worker/src/transport.c), and the sockets both ends
             leave behind.

  `vom_worker_transport_connect` and `vom_master_router_start` put a new socket over the one they have
  and do not close it, and only `vom_worker_transport_disconnect` takes the flags of a session back.

  * `transportMachine` -- configure, connect, disconnect, send and poll, in any order;
  * **`flags_read_off_history`** -- connected, authenticated and joined say what happened since the last
    disconnect, on whatever socket;
  * **`destroy_returns_iff`** -- `zmq_ctx_destroy` waits for every socket of its context: the destroy
    functions return exactly when no socket was made over another.
-/
import VoidOsMerger.Transport.Faults
import VoidOsMerger.Base.History

namespace VoidOsMerger

/-! ## 1. The calls -/

/-- `vom_worker_transport_connect`; the arguments say whether `zmq_socket` and `zmq_connect` succeed. -/
def vomWorkerTransportConnect (socketOk connectOk : Bool) (ctx : VomWorkerTransport) :
    VomTransportStatus × VomWorkerTransport :=
  if !socketOk then (.errDisconnect, { ctx with hasSock := false })
  else if !connectOk then (.errDisconnect, { ctx with hasSock := false })
  else (.success, { ctx with hasSock := true, isConnected := true })

/-- `vom_worker_transport_disconnect` -/
def vomWorkerTransportDisconnect (ctx : VomWorkerTransport) : VomTransportStatus × VomWorkerTransport :=
  if !ctx.hasSock then (.errDisconnect, ctx)
  else
    (.success, { ctx with
      hasSock := false
      isConnected := false
      isAuthenticated := false
      isJoined := false })

/-- A transport and what it has sent, on all its sockets. -/
structure TransportSession where
  ctx : VomWorkerTransport
  out : Outbox

inductive TransportOp
  | configure (workerId : NulBuf 64)
  | connect (socketOk connectOk : Bool)
  | disconnect
  | send (rc : Bool) (call : SendCall)
  | poll (inbox : Inbox)

/-- The calls on a transport; a poll finds in its socket what has arrived. -/
def transportMachine : Machine TransportSession TransportOp VomTransportStatus where
  step s op := match op with
    | .configure workerId => ({ s with ctx := { s.ctx with workerId := workerId } }, .success)
    | .connect socketOk connectOk =>
      let r := vomWorkerTransportConnect socketOk connectOk s.ctx
      ({ s with ctx := r.2 }, r.1)
    | .disconnect =>
      let r := vomWorkerTransportDisconnect s.ctx
      ({ s with ctx := r.2 }, r.1)
    | .send rc call =>
      let r := vomWorkerTransportSend rc call s.ctx s.out
      ({ ctx := r.2.1, out := r.2.2 }, r.1)
    | .poll inbox =>
      let r := vomWorkerTransportPoll s.ctx inbox
      ({ s with ctx := r.1.1 }, r.2.status)

/-- `vom_worker_transport_create`; `calloc` leaves an empty identity. -/
def transportCreated : TransportSession where
  ctx :=
    { hasSock := false
      workerId := NulBuf.copy 63 ⟨[], noNul_nil⟩
      nextSeqId := 1
      isConnected := false
      isAuthenticated := false
      isJoined := false }
  out := emptyOutbox

/-! ## 2. One call -/

/-- The call connects. -/
def Connects (_ : TransportSession) (op : TransportOp) : Prop := op = .connect true true

/-- The call closes the session: a disconnect that has a socket. -/
def Closes (s : TransportSession) (op : TransportOp) : Prop :=
  op = .disconnect ∧ s.ctx.hasSock = true

/-- The call is a poll that finds a well-framed message with this code. -/
def Accepts (code : UInt16) (s : TransportSession) (op : TransportOp) : Prop :=
  s.ctx.hasSock = true ∧ ∃ frame more stream m, op = .poll ⟨(frame, more) :: stream, m⟩ ∧
    WellFramed frame ∧ (frameHeader frame).messageCode = code

/-- The connected, authenticated and joined flags. -/
def VomWorkerTransport.flags (ctx : VomWorkerTransport) : Bool × Bool × Bool :=
  (ctx.isConnected, ctx.isAuthenticated, ctx.isJoined)

/-- What a call does to the flags. -/
inductive FlagStep (s : TransportSession) (op : TransportOp) (ctx : VomWorkerTransport) : Prop
  | kept (hconnect : ¬ Connects s op) (hclose : ¬ Closes s op) (haccept : ∀ code, ¬ Accepts code s op)
      (hflags : ctx.flags = s.ctx.flags)
  | connected (hop : op = .connect true true)
      (hflags : ctx.flags = (true, s.ctx.isAuthenticated, s.ctx.isJoined))
  | closed (hclose : Closes s op) (hflags : ctx.flags = (false, false, false))
  | accepted (frame : Frame) (haccept : Accepts (frameHeader frame).messageCode s op)
      (hflags : ctx.flags = (transportAccept (frameHeader frame).messageCode s.ctx).1.flags)

theorem poll_ctx {ctx : VomWorkerTransport} (hs : ctx.hasSock = true) (frame : Frame) (more m : Bool)
    (stream : List (Frame × Bool)) :
    (vomWorkerTransportPoll ctx ⟨(frame, more) :: stream, m⟩).1.1 =
      if WellFramed frame then (transportAccept (frameHeader frame).messageCode ctx).1 else ctx := by
  unfold vomWorkerTransportPoll
  rw [if_neg (by simp [hs])]
  dsimp only [Inbox.recv]
  rw [bufferHeader]
  split
  · rename_i hshort
    rw [if_neg fun h => absurd h.1 (Nat.not_le.mpr hshort)]
  · rename_i hsize
    split
    · rename_i hversion
      rw [if_neg fun h => hversion h.2.1]
    · rename_i hversion
      split
      · rename_i hlength
        refine (if_neg fun h => hlength ?_).symm
        have hfield := h.2.2
        omega
      · rename_i hlength
        refine (if_pos ⟨Nat.not_lt.mp hsize, not_not.mp hversion, ?_⟩).symm
        omega

theorem not_accepts {s : TransportSession} {op : TransportOp} (hop : ∀ inbox, op ≠ .poll inbox)
    (code : UInt16) : ¬ Accepts code s op := by
  rintro ⟨-, frame, more, stream, m, heq, -⟩
  exact hop _ heq

theorem send_flags (rc : Bool) (call : SendCall) (ctx : VomWorkerTransport) (out : Outbox) :
    ∃ n, (vomWorkerTransportSend rc call ctx out).2.1 = { ctx with nextSeqId := n } := by
  unfold vomWorkerTransportSend
  split
  · exact ⟨ctx.nextSeqId, rfl⟩
  · split
    · exact ⟨ctx.nextSeqId, rfl⟩
    · dsimp only
      split <;> exact ⟨ctx.nextSeqId + 1, rfl⟩

theorem flag_step (s : TransportSession) (op : TransportOp) :
    FlagStep s op (transportMachine.next s op).ctx := by
  cases op with
  | configure workerId =>
    exact .kept TransportOp.noConfusion (fun h => TransportOp.noConfusion h.1)
      (not_accepts fun _ => TransportOp.noConfusion) rfl
  | connect socketOk connectOk =>
    change FlagStep s _ (vomWorkerTransportConnect socketOk connectOk s.ctx).2
    cases socketOk <;> cases connectOk
    case true.true => exact .connected rfl rfl
    all_goals
      exact .kept (fun h => nomatch h) (fun h => TransportOp.noConfusion h.1)
        (not_accepts fun _ => TransportOp.noConfusion) rfl
  | disconnect =>
    change FlagStep s _ (vomWorkerTransportDisconnect s.ctx).2
    unfold vomWorkerTransportDisconnect
    cases hs : s.ctx.hasSock with
    | true => exact .closed ⟨rfl, hs⟩ rfl
    | false =>
      exact .kept TransportOp.noConfusion (fun h => Bool.false_ne_true (hs.symm.trans h.2))
        (not_accepts fun _ => TransportOp.noConfusion) rfl
  | send rc call =>
    change FlagStep s _ (vomWorkerTransportSend rc call s.ctx s.out).2.1
    obtain ⟨n, hn⟩ := send_flags rc call s.ctx s.out
    rw [hn]
    exact .kept TransportOp.noConfusion (fun h => TransportOp.noConfusion h.1)
      (not_accepts fun _ => TransportOp.noConfusion) rfl
  | poll inbox =>
    have hclose : ¬ Closes s (.poll inbox) := fun h => TransportOp.noConfusion h.1
    have hquiet : (∀ code, ¬ Accepts code s (.poll inbox)) →
        FlagStep s (.poll inbox) s.ctx := fun h =>
      .kept TransportOp.noConfusion hclose h rfl
    change FlagStep s _ (vomWorkerTransportPoll s.ctx inbox).1.1
    cases hs : s.ctx.hasSock with
    | false =>
      have hpoll : (vomWorkerTransportPoll s.ctx inbox).1.1 = s.ctx := by
        unfold vomWorkerTransportPoll
        rw [if_pos (by simp [hs])]
      rw [hpoll]
      exact hquiet fun code h => Bool.false_ne_true (hs.symm.trans h.1)
    | true =>
      obtain ⟨_ | ⟨⟨frame, more⟩, stream⟩, m⟩ := inbox
      · have hpoll : (vomWorkerTransportPoll s.ctx ⟨[], m⟩).1.1 = s.ctx := by
          simp [vomWorkerTransportPoll, Inbox.recv, hs]
        rw [hpoll]
        refine hquiet fun code h => ?_
        obtain ⟨-, frame, more, stream, m', heq, -⟩ := h
        exact absurd (congrArg Inbox.stream (TransportOp.poll.inj heq)) (List.cons_ne_nil _ _).symm
      · rw [poll_ctx hs]
        split
        · rename_i hframed
          exact .accepted frame ⟨hs, frame, more, stream, m, rfl, hframed, rfl⟩ rfl
        · rename_i hframed
          refine hquiet fun code h => ?_
          obtain ⟨-, frame', more', stream', m', heq, hframed', -⟩ := h
          have hframe := (List.cons.inj (congrArg Inbox.stream (TransportOp.poll.inj heq))).1
          exact hframed ((Prod.mk.inj hframe).1 ▸ hframed')

/-! ## 3. The flags -/

theorem accepts_unique {s : TransportSession} {op : TransportOp} {code code' : UInt16}
    (h : Accepts code s op) (h' : Accepts code' s op) : code = code' := by
  obtain ⟨-, frame, more, stream, m, rfl, -, hcode⟩ := h
  obtain ⟨-, frame', more', stream', m', heq, -, hcode'⟩ := h'
  have hframe := (List.cons.inj (congrArg Inbox.stream (TransportOp.poll.inj heq))).1
  rw [← hcode, ← hcode', (Prod.mk.inj hframe).1]

/-- A response raises its own flag and leaves the others. -/
theorem accept_flags (code : UInt16) (ctx : VomWorkerTransport) :
    (transportAccept code ctx).1.isConnected = ctx.isConnected ∧
    ((transportAccept code ctx).1.isAuthenticated = true ↔
      code = VomRouterMsgCode.authResp.code ∨ ctx.isAuthenticated = true) ∧
    ((transportAccept code ctx).1.isJoined = true ↔
      code = VomRouterMsgCode.joinResp.code ∨ ctx.isJoined = true) := by
  unfold transportAccept
  split
  · rename_i hauth
    refine ⟨rfl, iff_of_true rfl (Or.inl hauth), (or_iff_right fun hjoin => ?_).symm⟩
    exact absurd (hauth.symm.trans hjoin) (by decide)
  · rename_i hauth
    split
    · rename_i hjoin
      exact ⟨rfl, (or_iff_right hauth).symm, iff_of_true rfl (Or.inl hjoin)⟩
    · rename_i hjoin
      split <;> exact ⟨rfl, (or_iff_right hauth).symm, (or_iff_right hjoin).symm⟩

theorem not_accepts_of_closes {s : TransportSession} {op : TransportOp} (h : Closes s op)
    (code : UInt16) : ¬ Accepts code s op :=
  not_accepts (fun _ heq => TransportOp.noConfusion (h.1.symm.trans heq)) code

theorem not_closes_of_accepts {s : TransportSession} {op : TransportOp} {code : UInt16}
    (h : Accepts code s op) : ¬ Closes s op := fun hclose => not_accepts_of_closes hclose code h

section Flags

variable (s : TransportSession) (op : TransportOp)

theorem connected_next : (transportMachine.next s op).ctx.isConnected = true ↔
    Connects s op ∨ (s.ctx.isConnected = true ∧ ¬ Closes s op) := by
  change (transportMachine.next s op).ctx.flags.1 = true ↔ _
  cases flag_step s op with
  | kept hconnect hclose _ hflags =>
    rw [hflags, or_iff_right hconnect, and_iff_left hclose]
    exact Iff.rfl
  | connected hop hflags =>
    rw [hflags]
    exact iff_of_true rfl (Or.inl hop)
  | closed hclose hflags =>
    rw [hflags]
    refine iff_of_false Bool.false_ne_true ?_
    rintro (hconnect | ⟨-, hopen⟩)
    · exact TransportOp.noConfusion (hclose.1.symm.trans hconnect)
    · exact hopen hclose
  | accepted frame haccept hflags =>
    rw [hflags, and_iff_left (not_closes_of_accepts haccept), or_iff_right]
    · exact Eq.congr_left (accept_flags _ s.ctx).1
    · rintro rfl
      exact not_accepts (fun _ => TransportOp.noConfusion) _ haccept

/-- A flag that a response raises and a connection leaves alone. -/
theorem answered_next (flag : Bool × Bool × Bool → Bool) {code : UInt16}
    (hconnected : ∀ b, flag (b, s.ctx.isAuthenticated, s.ctx.isJoined) = flag s.ctx.flags)
    (hclosed : flag (false, false, false) = false)
    (haccepted : ∀ c, flag (transportAccept c s.ctx).1.flags = true ↔
      c = code ∨ flag s.ctx.flags = true) :
    flag (transportMachine.next s op).ctx.flags = true ↔
      Accepts code s op ∨ (flag s.ctx.flags = true ∧ ¬ Closes s op) := by
  cases flag_step s op with
  | kept _ hclose haccept hflags =>
    rw [hflags, or_iff_right (haccept code), and_iff_left hclose]
  | connected hop hflags =>
    subst hop
    have hclose : ¬ Closes s (.connect true true) := fun h => TransportOp.noConfusion h.1
    rw [hflags, hconnected, or_iff_right (not_accepts (fun _ => TransportOp.noConfusion) code),
      and_iff_left hclose]
  | closed hclose hflags =>
    rw [hflags, hclosed, or_iff_right (not_accepts_of_closes hclose code)]
    exact iff_of_false Bool.false_ne_true fun h => h.2 hclose
  | accepted frame haccept hflags =>
    rw [hflags, haccepted, and_iff_left (not_closes_of_accepts haccept)]
    refine or_congr_left ⟨fun hcode => hcode ▸ haccept, fun h => accepts_unique haccept h⟩

end Flags

/-- **The flags read off the history.** After any calls on a transport, whatever the sockets answered and
    whatever arrived: it is connected when a connect succeeded, authenticated when an AUTH_RESP was
    polled and joined when a JOIN_RESP was polled, since the last disconnect that had a socket. A new
    connection takes nothing back. -/
theorem flags_read_off_history (ops : List TransportOp) :
    let ctx := (transportMachine.run transportCreated ops).ctx
    (ctx.isConnected = true ↔ transportMachine.Since Connects Closes transportCreated ops) ∧
    (ctx.isAuthenticated = true ↔
      transportMachine.Since (Accepts VomRouterMsgCode.authResp.code) Closes transportCreated ops) ∧
    (ctx.isJoined = true ↔
      transportMachine.Since (Accepts VomRouterMsgCode.joinResp.code) Closes transportCreated ops) := by
  intro ctx
  refine ⟨?_, ?_, ?_⟩
  · exact transportMachine.flag_iff_since (fun s => s.ctx.isConnected = true) connected_next
      Bool.false_ne_true ops
  · refine transportMachine.flag_iff_since (fun s => s.ctx.isAuthenticated = true) (fun s op => ?_)
      Bool.false_ne_true ops
    exact answered_next s op (·.2.1) (fun _ => rfl) rfl fun c => (accept_flags c s.ctx).2.1
  · refine transportMachine.flag_iff_since (fun s => s.ctx.isJoined = true) (fun s op => ?_)
      Bool.false_ne_true ops
    exact answered_next s op (·.2.2) (fun _ => rfl) rfl fun c => (accept_flags c s.ctx).2.2

/-! ## 4. Sockets left behind -/

/-- What a call does with the socket. -/
def TransportOp.socket : TransportOp → HolderOp
  | .connect socketOk connectOk => .acquire socketOk connectOk
  | .disconnect => .release
  | _ => .keep

/-- What a call on a router does with the socket. -/
def RouterOp.socket : RouterOp → HolderOp
  | .start socketOk bindOk => .acquire socketOk bindOk
  | _ => .keep

/-- The sockets of a context after calls that did this with them. -/
def socketsAfter (ops : List HolderOp) : Holder := Holder.machine.run Holder.empty ops

theorem poll_hasSock (ctx : VomWorkerTransport) (inbox : Inbox) :
    (vomWorkerTransportPoll ctx inbox).1.1.hasSock = ctx.hasSock := by
  cases hs : ctx.hasSock with
  | false =>
    unfold vomWorkerTransportPoll
    rw [if_pos (by simp [hs])]
    exact hs
  | true =>
    obtain ⟨_ | ⟨⟨frame, more⟩, stream⟩, m⟩ := inbox
    · simp [vomWorkerTransportPoll, Inbox.recv, hs]
    · exact (poll_takes hs frame more m stream).2

theorem transport_holds (s : TransportSession) (h : Holder) (op : TransportOp)
    (hheld : s.ctx.hasSock = h.held) :
    (transportMachine.next s op).ctx.hasSock = (h.step op.socket).held := by
  cases op with
  | configure workerId => exact hheld
  | connect socketOk connectOk => cases socketOk <;> cases connectOk <;> rfl
  | disconnect =>
    change (vomWorkerTransportDisconnect s.ctx).2.hasSock = false
    unfold vomWorkerTransportDisconnect
    cases hs : s.ctx.hasSock with
    | true => rfl
    | false => exact hs
  | send rc call =>
    change (vomWorkerTransportSend rc call s.ctx s.out).2.1.hasSock = h.held
    obtain ⟨n, hn⟩ := send_flags rc call s.ctx s.out
    rw [hn]
    exact hheld
  | poll inbox =>
    exact (poll_hasSock s.ctx inbox).trans hheld

theorem router_holds (s : RouterSession) (h : Holder) (op : RouterOp)
    (hheld : s.router.hasSock = h.held) :
    (routerMachine.next s op).router.hasSock = (h.step op.socket).held := by
  cases op with
  | start socketOk bindOk => cases socketOk <;> cases bindOk <;> rfl
  | stop => exact hheld
  | send workerId call rc =>
    refine Eq.trans ?_ hheld
    change (vomMasterRouterSendToWorker rc workerId call s.router s.out).2.1.hasSock = _
    unfold vomMasterRouterSendToWorker
    split
    · rfl
    · split
      · rfl
      · dsimp only
        split
        · rfl
        · split
          · rfl
          · split <;> rfl

/-- **When the destroy functions return.** `zmq_ctx_destroy` waits until every socket of its context is
    closed. After any calls on a transport, or on a router, the sockets of the context are all closed
    once the one held is, exactly when every connect, or start, came while none was held. -/
theorem destroy_returns_iff :
    (∀ ops : List TransportOp, (socketsAfter (ops.map TransportOp.socket)).Clean ↔
      transportMachine.Legal (fun s op => ∀ socketOk connectOk, op = .connect socketOk connectOk →
        s.ctx.hasSock = false) transportCreated ops) ∧
    ∀ ops : List RouterOp, (socketsAfter (ops.map RouterOp.socket)).Clean ↔
      routerMachine.Legal (fun s op => ∀ socketOk bindOk, op = .start socketOk bindOk →
        s.router.hasSock = false) routerCreated ops := by
  constructor
  · intro ops
    refine (Holder.clean_run_iff transportMachine (·.ctx.hasSock) TransportOp.socket transport_holds
      rfl ops).trans (transportMachine.legal_iff fun s op => ?_)
    cases op <;> simp [TransportOp.socket]
  · intro ops
    refine (Holder.clean_run_iff routerMachine (·.router.hasSock) RouterOp.socket router_holds
      rfl ops).trans (routerMachine.legal_iff fun s op => ?_)
    cases op <;> simp [RouterOp.socket]

end VoidOsMerger
