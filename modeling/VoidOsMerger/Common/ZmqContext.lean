/-
  File:      VoidOsMerger/Common/ZmqContext.lean
  Subject:   THE SHARED ZEROMQ CONTEXT AND ITS REFERENCE COUNT (common/src/zmq_context.c,
             common/src/zmq_sockets.c), in one process.

  `vom_zmq_make_socket` takes a reference before anything can fail, and gives none back. What the
  library answers (`zmq_ctx_new`, `zmq_socket`, `zmq_bind`, `zmq_connect`) is part of a call. A pointer
  is `none` for `NULL`; the count is an `int`.

  * `context_cases`, `makeSocket_eq` -- what the two functions do, case by case;
  * `ContextAccounted` -- the count is the number of outstanding acquisitions, and the context lives
    while there is one;
  * **`references_balanced_iff`** -- when this holds all along a run, and a call that returns `NULL`
    leaves the count as it was.
-/
import VoidOsMerger.Base.CText
import VoidOsMerger.Base.Run

namespace VoidOsMerger

/-! ## 1. The functions -/

/-- `g_zmq_context`, `g_context_ref_count`, `g_context_owner_pid` -/
structure ZmqGlobals where
  context : Option Nat
  refCount : Int32
  ownerPid : Int32
  deriving DecidableEq

/-- The globals of a new process. -/
def zmqStart : ZmqGlobals := { context := none, refCount := 0, ownerPid := 0 }

/-- `vom_zmq_context` -/
def vomZmqContext (currentPid : Int32) (g : ZmqGlobals) (ctxNew : Option Nat) :
    ZmqGlobals × Option Nat :=
  let g := if g.context ≠ none ∧ currentPid ≠ g.ownerPid then { g with context := none, refCount := 0 }
    else g
  match g.context with
  | none =>
    match ctxNew with
    | some p => ({ context := some p, refCount := 1, ownerPid := currentPid }, some p)
    | none => (g, none)
  | some p => ({ g with refCount := g.refCount + 1 }, some p)

/-- `vom_zmq_context_term`, with the context given to `zmq_ctx_term`. -/
def vomZmqContextTerm (currentPid : Int32) (g : ZmqGlobals) : ZmqGlobals × Option Nat :=
  match g.context with
  | none => (g, none)
  | some p =>
    if currentPid = g.ownerPid then
      let refCount := g.refCount - 1
      if refCount ≤ 0 then ({ context := none, refCount := 0, ownerPid := 0 }, some p)
      else ({ g with refCount := refCount }, none)
    else (g, none)

/-- The arguments of a `vom_zmq_make_socket`, and what the library answers to its calls. -/
structure SocketCall where
  endpoint : Option CStr
  isBind : Int32
  ctxNew : Option Nat
  socket : Option Nat
  bindStatus : Int32
  connectStatus : Int32

/-- `vom_zmq_make_socket` -/
def vomZmqMakeSocket (currentPid : Int32) (g : ZmqGlobals) (c : SocketCall) :
    ZmqGlobals × Option Nat :=
  let (g, localCtx) := vomZmqContext currentPid g c.ctxNew
  if localCtx = none ∨ c.endpoint = none then (g, none)
  else
    match c.socket with
    | none => (g, none)
    | some sock =>
      let status := if c.isBind ≠ 0 then c.bindStatus else c.connectStatus
      if status ≠ 0 then (g, none) else (g, some sock)

inductive ZmqOp
  | context (ctxNew : Option Nat)
  | makeSocket (call : SocketCall)
  | contextTerm

/-- The globals and, beside them, the acquisitions not yet matched by a `vom_zmq_context_term`. -/
structure ZmqProcess where
  globals : ZmqGlobals
  outstanding : Nat

/-- One call: the pointer answered is a context or a socket acquired, or the context terminated. -/
def zmqMachine (currentPid : Int32) : Machine ZmqProcess ZmqOp (Option Nat) where
  step s
    | .context ctxNew =>
      let r := vomZmqContext currentPid s.globals ctxNew
      (⟨r.1, if r.2 = none then s.outstanding else s.outstanding + 1⟩, r.2)
    | .makeSocket call =>
      let r := vomZmqMakeSocket currentPid s.globals call
      (⟨r.1, if r.2 = none then s.outstanding else s.outstanding + 1⟩, r.2)
    | .contextTerm =>
      let r := vomZmqContextTerm currentPid s.globals
      (⟨r.1, s.outstanding - 1⟩, r.2)

def ZmqProcess.start : ZmqProcess := ⟨zmqStart, 0⟩

/-! ## 2. What a call does -/

/-- A context belongs to the process. -/
def ZmqGlobals.Owned (currentPid : Int32) (g : ZmqGlobals) : Prop :=
  g.context ≠ none → g.ownerPid = currentPid

/-- The call gets a context: there is one, or `zmq_ctx_new` makes one. -/
def GetsContext (g : ZmqGlobals) (ctxNew : Option Nat) : Prop := g.context ≠ none ∨ ctxNew ≠ none

/-- One of the failures of `vom_zmq_make_socket` behind the context. -/
def SocketCall.Fails (c : SocketCall) : Prop :=
  c.endpoint = none ∨ c.socket = none ∨ (if c.isBind ≠ 0 then c.bindStatus else c.connectStatus) ≠ 0

section Cases

variable {currentPid : Int32} {g : ZmqGlobals} (howned : g.Owned currentPid)

include howned

/-- **The three cases of `vom_zmq_context`**: one reference more, the first one, or nothing. -/
theorem context_cases (ctxNew : Option Nat) :
    (∃ p, g.context = some p ∧
      vomZmqContext currentPid g ctxNew = ({ g with refCount := g.refCount + 1 }, some p)) ∨
    (∃ p, g.context = none ∧ ctxNew = some p ∧
      vomZmqContext currentPid g ctxNew =
        ({ context := some p, refCount := 1, ownerPid := currentPid }, some p)) ∨
    (g.context = none ∧ ctxNew = none ∧ vomZmqContext currentPid g ctxNew = (g, none)) := by
  have hsame : ¬ (g.context ≠ none ∧ currentPid ≠ g.ownerPid) := by
    intro h
    exact h.2 (howned h.1).symm
  obtain ⟨context, refCount, ownerPid⟩ := g
  unfold vomZmqContext
  rw [if_neg hsame]
  cases context with
  | some p => exact Or.inl ⟨p, rfl, rfl⟩
  | none =>
    cases ctxNew with
    | some p => exact Or.inr (Or.inl ⟨p, rfl, rfl, rfl⟩)
    | none => exact Or.inr (Or.inr ⟨rfl, rfl, rfl⟩)

theorem context_answer_iff (ctxNew : Option Nat) :
    (vomZmqContext currentPid g ctxNew).2 ≠ none ↔ GetsContext g ctxNew := by
  unfold GetsContext
  rcases context_cases howned ctxNew with ⟨p, hctx, heq⟩ | ⟨p, hctx, rfl, heq⟩ | ⟨hctx, rfl, heq⟩ <;>
    simp [hctx, heq]

end Cases

/-- `vom_zmq_make_socket` leaves the globals as its call of `vom_zmq_context` does, and answers `NULL`
    without a context and after a failure. -/
theorem makeSocket_eq (currentPid : Int32) (g : ZmqGlobals) (c : SocketCall) :
    (vomZmqMakeSocket currentPid g c).1 = (vomZmqContext currentPid g c.ctxNew).1 ∧
      ((vomZmqMakeSocket currentPid g c).2 = none ↔
        (vomZmqContext currentPid g c.ctxNew).2 = none ∨ c.Fails) := by
  unfold vomZmqMakeSocket SocketCall.Fails
  dsimp only
  by_cases hguard : (vomZmqContext currentPid g c.ctxNew).2 = none ∨ c.endpoint = none
  · rw [if_pos hguard]
    exact ⟨rfl, iff_of_true rfl (hguard.imp_right Or.inl)⟩
  · rw [if_neg hguard]
    obtain ⟨hctx, hend⟩ := not_or.mp hguard
    cases hsock : c.socket with
    | none => exact ⟨rfl, iff_of_true rfl (Or.inr (Or.inr (Or.inl rfl)))⟩
    | some sock =>
      dsimp only
      by_cases hstatus : (if c.isBind ≠ 0 then c.bindStatus else c.connectStatus) ≠ 0
      · rw [if_pos hstatus]
        exact ⟨rfl, iff_of_true rfl (Or.inr (Or.inr (Or.inr hstatus)))⟩
      · rw [if_neg hstatus]
        refine ⟨rfl, iff_of_false (Option.some_ne_none sock) ?_⟩
        intro h
        rcases h with h | h | h | h
        · exact hctx h
        · exact hend h
        · cases h
        · exact hstatus h

/-! ## 3. The books -/

/-- The count is the number of outstanding acquisitions, and there is a context while there is one. -/
structure ContextAccounted (s : ZmqProcess) : Prop where
  counted : s.globals.refCount.toInt = s.outstanding
  alive : s.globals.context ≠ none ↔ 0 < s.outstanding

/-- A `vom_zmq_make_socket` that returns `NULL` leaves the count as it was. -/
def NullKeepsCount (currentPid : Int32) (s : ZmqProcess) (o : ZmqOp) : Prop :=
  ∀ call, o = .makeSocket call → (zmqMachine currentPid).answer s o = none →
    ((zmqMachine currentPid).next s o).globals.refCount = s.globals.refCount

/-- The call takes a reference inside. -/
def TakesReference (s : ZmqProcess) : ZmqOp → Prop
  | .context ctxNew => GetsContext s.globals ctxNew
  | .makeSocket call => GetsContext s.globals call.ctxNew
  | .contextTerm => False

/-- No failure behind the context. -/
def ZmqOp.Succeeds : ZmqOp → Prop
  | .makeSocket call => ¬ call.Fails
  | _ => True

/-- A reference is only taken by a call that succeeds, and while the `int` can count it. -/
def TakesWhatSucceeds (s : ZmqProcess) (o : ZmqOp) : Prop :=
  TakesReference s o → o.Succeeds ∧ s.outstanding + 1 < 2 ^ 31

theorem int32_succ_iff (n : Int32) : (n + 1).toInt = n.toInt + 1 ↔ n.toInt + 1 < 2 ^ 31 := by
  have hone : (1 : Int32).toInt = 1 := rfl
  have hlow := Int32.le_toInt n
  have hhigh := Int32.toInt_lt n
  rw [Int32.toInt_add, hone, Int.bmod_def]
  split <;> omega

theorem int32_succ_ne (n : Int32) : n + 1 ≠ n := by
  intro h
  have hone : (1 : Int32).toInt = 1 := rfl
  have hint := congrArg Int32.toInt h
  have hlow := Int32.le_toInt n
  have hhigh := Int32.toInt_lt n
  rw [Int32.toInt_add, hone, Int.bmod_def] at hint
  split at hint <;> omega

section Step

variable {currentPid : Int32} {s : ZmqProcess} (howned : s.globals.Owned currentPid)
  (hbooks : ContextAccounted s)

include howned hbooks

/-- **A reference taken**: the count changes, and it is right for one acquisition more unless it
    overflows. -/
theorem reference_taken {ctxNew : Option Nat} (hgets : GetsContext s.globals ctxNew) :
    (vomZmqContext currentPid s.globals ctxNew).1.refCount ≠ s.globals.refCount ∧
      (ContextAccounted ⟨(vomZmqContext currentPid s.globals ctxNew).1, s.outstanding + 1⟩ ↔
        s.outstanding + 1 < 2 ^ 31) := by
  rcases context_cases howned ctxNew with ⟨p, hctx, heq⟩ | ⟨p, hctx, rfl, heq⟩ | ⟨hctx, rfl, heq⟩
  · rw [heq]
    refine ⟨int32_succ_ne _, ?_⟩
    have hsucc := int32_succ_iff s.globals.refCount
    rw [hbooks.counted] at hsucc
    constructor
    · intro h
      have hcount := hsucc.mp h.counted
      omega
    · intro h
      refine ⟨hsucc.mpr (by omega), ?_⟩
      simp [hctx]
  · have hnone : s.outstanding = 0 := by
      by_contra hpos
      exact hbooks.alive.mpr (Nat.pos_of_ne_zero hpos) hctx
    have hzero : s.globals.refCount = 0 := by
      have hcounted := hbooks.counted
      rw [hnone] at hcounted
      exact Int32.toInt_inj.mp hcounted
    rw [heq, hnone, hzero]
    have hfirst : (1 : Int32) ≠ 0 := by decide
    exact ⟨hfirst, iff_of_true ⟨rfl, by simp⟩ (by decide)⟩
  · exact absurd hgets (by simp [GetsContext, hctx])

omit hbooks in
/-- Without a context nothing changes. -/
theorem no_reference {ctxNew : Option Nat} (hgets : ¬ GetsContext s.globals ctxNew) :
    vomZmqContext currentPid s.globals ctxNew = (s.globals, none) := by
  unfold GetsContext at hgets
  rcases context_cases howned ctxNew with ⟨p, hctx, heq⟩ | ⟨p, hctx, rfl, heq⟩ | ⟨hctx, rfl, heq⟩
  · simp [hctx] at hgets
  · simp at hgets
  · exact heq

theorem term_accounted : ContextAccounted ((zmqMachine currentPid).next s .contextTerm) := by
  obtain ⟨⟨context, refCount, ownerPid⟩, outstanding⟩ := s
  obtain ⟨hcounted, halive⟩ := hbooks
  dsimp only at hcounted halive
  cases context with
  | none =>
    have hnone : outstanding = 0 := by simpa using halive
    subst hnone
    exact ⟨hcounted, by simp [Machine.next, zmqMachine, vomZmqContextTerm]⟩
  | some p =>
    have hpos : 0 < outstanding := by simpa using halive
    have hpid : currentPid = ownerPid := (howned (Option.some_ne_none p)).symm
    have hone : (1 : Int32).toInt = 1 := rfl
    have hzero : (0 : Int32).toInt = 0 := rfl
    have hhigh := Int32.toInt_lt refCount
    have hpred : (refCount - 1).toInt = outstanding - 1 := by
      rw [Int32.toInt_sub, hone, Int.bmod_def, hcounted]
      split <;> omega
    show ContextAccounted ⟨(vomZmqContextTerm currentPid ⟨some p, refCount, ownerPid⟩).1, outstanding - 1⟩
    unfold vomZmqContextTerm
    dsimp only
    rw [if_pos hpid]
    by_cases hlast : refCount - 1 ≤ 0
    · rw [if_pos hlast]
      rw [Int32.le_iff_toInt_le, hpred, hzero] at hlast
      have hend : outstanding - 1 = 0 := by omega
      rw [hend]
      exact ⟨rfl, by simp⟩
    · rw [if_neg hlast]
      rw [Int32.le_iff_toInt_le, hpred, hzero] at hlast
      refine ⟨?_, ?_⟩
      · dsimp only
        omega
      · simp
        omega

theorem context_books_iff (ctxNew : Option Nat) :
    (ContextAccounted ((zmqMachine currentPid).next s (.context ctxNew)) ∧
      NullKeepsCount currentPid s (.context ctxNew)) ↔ TakesWhatSucceeds s (.context ctxNew) := by
  have hquiet : NullKeepsCount currentPid s (.context ctxNew) := fun call h => nomatch h
  rw [and_iff_left hquiet]
  by_cases hgets : GetsContext s.globals ctxNew
  · have hanswer := (context_answer_iff howned ctxNew).mpr hgets
    show ContextAccounted ⟨_, if (vomZmqContext currentPid s.globals ctxNew).2 = none then _ else _⟩ ↔ _
    rw [if_neg hanswer, (reference_taken howned hbooks hgets).2]
    exact ⟨fun h _ => ⟨trivial, h⟩, fun h => (h hgets).2⟩
  · have hsame : (zmqMachine currentPid).next s (.context ctxNew) = s := by
      simp [Machine.next, zmqMachine, no_reference howned hgets]
    rw [hsame]
    exact iff_of_true hbooks fun h => absurd h hgets

theorem makeSocket_books_iff (call : SocketCall) :
    (ContextAccounted ((zmqMachine currentPid).next s (.makeSocket call)) ∧
      NullKeepsCount currentPid s (.makeSocket call)) ↔ TakesWhatSucceeds s (.makeSocket call) := by
  obtain ⟨hglobals, hnull⟩ := makeSocket_eq currentPid s.globals call
  by_cases hgets : GetsContext s.globals call.ctxNew
  · obtain ⟨hchanged, haccounted⟩ := reference_taken howned hbooks hgets
    have hanswer := (context_answer_iff howned call.ctxNew).mpr hgets
    rw [or_iff_right hanswer] at hnull
    by_cases hfails : call.Fails
    · refine iff_of_false (fun h => ?_) fun h => (h hgets).1 hfails
      have hkept := h.2 call rfl (hnull.mpr hfails)
      exact hchanged (hglobals ▸ hkept)
    · have hsome := mt hnull.mp hfails
      have hquiet : NullKeepsCount currentPid s (.makeSocket call) := fun _ _ h => absurd h hsome
      rw [and_iff_left hquiet]
      show ContextAccounted ⟨_, if (vomZmqMakeSocket currentPid s.globals call).2 = none then _ else _⟩ ↔ _
      rw [if_neg hsome, hglobals, haccounted]
      exact ⟨fun h _ => ⟨hfails, h⟩, fun h => (h hgets).2⟩
  · have hquiet := no_reference howned hgets
    have hnone : (vomZmqMakeSocket currentPid s.globals call).2 = none :=
      hnull.mpr (Or.inl (by rw [hquiet]))
    have hkept : (vomZmqMakeSocket currentPid s.globals call).1 = s.globals := by rw [hglobals, hquiet]
    have hsame : (zmqMachine currentPid).next s (.makeSocket call) = s := by
      simp [Machine.next, zmqMachine, hnone, hkept]
    unfold NullKeepsCount
    rw [hsame]
    exact iff_of_true ⟨hbooks, fun _ _ _ => rfl⟩ fun h => absurd h hgets

/-- **One call.** -/
theorem step_books_iff (o : ZmqOp) :
    (ContextAccounted ((zmqMachine currentPid).next s o) ∧ NullKeepsCount currentPid s o) ↔
      TakesWhatSucceeds s o := by
  cases o with
  | context ctxNew => exact context_books_iff howned hbooks ctxNew
  | makeSocket call => exact makeSocket_books_iff howned hbooks call
  | contextTerm =>
    exact iff_of_true ⟨term_accounted howned hbooks, fun call h => nomatch h⟩ fun h => h.elim

omit hbooks in
/-- A context always belongs to the one process. -/
theorem owned_next (o : ZmqOp) : ((zmqMachine currentPid).next s o).globals.Owned currentPid := by
  have hcontext : ∀ ctxNew, (vomZmqContext currentPid s.globals ctxNew).1.Owned currentPid := by
    intro ctxNew
    rcases context_cases howned ctxNew with ⟨p, hctx, heq⟩ | ⟨p, hctx, rfl, heq⟩ | ⟨hctx, rfl, heq⟩
    · rw [heq]
      exact howned
    · rw [heq]
      exact fun _ => rfl
    · rw [heq]
      exact howned
  cases o with
  | context ctxNew => exact hcontext ctxNew
  | makeSocket call =>
    show (vomZmqMakeSocket currentPid s.globals call).1.Owned currentPid
    rw [(makeSocket_eq currentPid s.globals call).1]
    exact hcontext call.ctxNew
  | contextTerm =>
    show (vomZmqContextTerm currentPid s.globals).1.Owned currentPid
    unfold vomZmqContextTerm
    dsimp only
    split
    · exact howned
    · split
      · split
        · exact fun h => absurd rfl h
        · exact howned
      · exact howned

end Step

/-! ## 4. Runs -/

/-- **When no reference leaks.** In every run of one process, all along it the count is the number of
    outstanding acquisitions with a context exactly while there is one, and every
    `vom_zmq_make_socket` that returns `NULL` leaves the count as it was, exactly when no call of the
    run takes a reference and then fails (or takes one more than an `int` counts). -/
theorem references_balanced_iff (currentPid : Int32) (ops : List ZmqOp) :
    ((∀ pre, pre <+: ops → ContextAccounted ((zmqMachine currentPid).run ZmqProcess.start pre)) ∧
      (zmqMachine currentPid).Legal (NullKeepsCount currentPid) ZmqProcess.start ops) ↔
    (zmqMachine currentPid).Legal TakesWhatSucceeds ZmqProcess.start ops := by
  have hstart : ContextAccounted ZmqProcess.start := ⟨rfl, by simp [ZmqProcess.start, zmqStart]⟩
  have howned : ZmqProcess.start.globals.Owned currentPid := fun h => absurd rfl h
  rw [Machine.prefix_iff_legal, and_iff_right hstart, Machine.legal_and_iff]
  exact (zmqMachine currentPid).legal_congr
    (fun s => s.globals.Owned currentPid ∧ ContextAccounted s)
    (fun s o h _ => step_books_iff h.1 h.2 o) (fun s o h _ hnext => ⟨owned_next h.1 o, hnext.1⟩)
    ⟨howned, hstart⟩ ((zmqMachine currentPid).legal_true _ ops)

/-- A socket whose endpoint is in use. -/
def boundTwice : SocketCall where
  endpoint := some ⟨[], noNul_nil⟩
  isBind := 1
  ctxNew := some 1
  socket := some 2
  bindStatus := -1
  connectStatus := 0

/-- **A bind that fails.** The call returns `NULL` and leaves a count of one. -/
theorem failed_bind_leaks : ¬ ∀ (currentPid : Int32) (ops : List ZmqOp),
    (∀ pre, pre <+: ops → ContextAccounted ((zmqMachine currentPid).run ZmqProcess.start pre)) ∧
      (zmqMachine currentPid).Legal (NullKeepsCount currentPid) ZmqProcess.start ops := by
  intro h
  have hkept := (h 7 [.makeSocket boundTwice]).2.1 boundTwice rfl rfl
  exact absurd hkept (by decide)

end VoidOsMerger
