/-
  File:      VoidOsMerger/Agent/Capabilities.lean
  Subject:   THE AGENT'S PROBE THREAD (agent/src/capabilities.c, and again in agent/src/heartbeat.c).

  `vom_caps_init` collects the capabilities and starts a thread that collects them again every thirty
  seconds; `vom_caps_deinit` clears a flag and joins the thread. Only the cache is under the mutex: the
  flag is also read by the probe thread and read and cleared by `vom_caps_deinit` outside of it, and so
  is the handle of the thread. A critical section is one step; it touches the flag once.

  * `capsMachine` -- any number of threads that call init, deinit and snapshot, and the probe threads;
  * **`one_probe_thread`** -- where calls of init and deinit do not overlap there is at most one probe
    thread, no thread is joined twice, and between calls it runs exactly while the flag is up;
  * **`deinit_returns`** -- a deinit waits for at most three steps of the probe thread;
  * `overlapping_calls_leave_two_probes` -- where they overlap, none of this holds.
-/
import VoidOsMerger.Registry.Model
import Mathlib.Data.List.Basic
import Mathlib.Logic.Function.Basic

namespace VoidOsMerger

/-! ## 1. The capabilities -/

/-- Static memory before the first call. -/
def noCapabilities : VomWorkerCapabilities :=
  ⟨.x86_64, 0, 0, 0, 0, 0, 0, false, false, false, 0, 0, false, .eth, 0⟩

/-- `vom_sys_info_collect`; the feature bitmap stays what it was. -/
def agentSysInfoCollect (out : VomWorkerCapabilities) : VomWorkerCapabilities :=
  { out with
    arch := .x86_64
    coresOnline := 8
    coresTotal := 8
    ramTotalMb := 16384
    ramFreeMb := 8192
    batteryPercent := 95
    isCharging := true
    isAcOnline := true
    displayAttached := true
    displayWidth := 1920
    displayHeight := 1080
    touchSupported := true
    networkLinkType := .eth
    networkBandwidthKbps := 1000000 }

/-! ## 2. The threads -/

/-- Where a thread that calls init and deinit stands: between calls; in init, about to create the probe
    thread; in deinit, about to clear the flag, to read the handle, or to join that thread. -/
inductive ControlPc
  | idle | creating | stopping | joining | joiningOn (p : Nat)
  deriving DecidableEq, Repr

/-- Where a probe thread stands: at the head of its loop, about to store what it collected, in the loop
    that sleeps, or at its end. -/
inductive ProbePc
  | head | storing (freshCaps : VomWorkerCapabilities) | sleeping (i : Nat) | exited
  deriving DecidableEq

structure ProbeThread where
  pc : ProbePc
  joined : Bool
  deriving DecidableEq

/-- A probe thread that has come to its end and was joined. -/
def ProbeThread.finished : ProbeThread := ⟨.exited, true⟩

/-- The static variables, the threads, and whether a thread was joined that could not be. -/
structure CapsState where
  cachedCaps : VomWorkerCapabilities
  active : Bool
  probeThread : Option Nat
  controls : Nat → ControlPc
  probes : List ProbeThread
  fault : Bool

/-- A step of a thread: the critical section of init, its `pthread_create`; the three steps of deinit
    after its test of the flag, and that test; a step of a probe thread, with what its stack held; the
    critical section of snapshot. -/
inductive CapsOp
  | init (c : Nat)
  | create (c : Nat) (ok : Bool)
  | deinit (c : Nat)
  | stop (c : Nat)
  | reach (c : Nat)
  | join (c : Nat)
  | probe (p : Nat) (stack : VomWorkerCapabilities)
  | snapshot

/-- A step of the probe thread. -/
def ProbePc.step (active : Bool) (stack : VomWorkerCapabilities) : ProbePc → ProbePc
  | .head => if active then .storing (agentSysInfoCollect stack) else .exited
  | .storing _ => .sleeping 0
  | .sleeping i => if i < 30 && active then .sleeping (i + 1) else .head
  | .exited => .exited

/-- The cache after a step of the probe thread. -/
def ProbePc.stored (cachedCaps : VomWorkerCapabilities) : ProbePc → VomWorkerCapabilities
  | .storing freshCaps => freshCaps
  | _ => cachedCaps

/-- The control thread goes on to `pc`. -/
def CapsState.goto (s : CapsState) (c : Nat) (pc : ControlPc) : CapsState :=
  { s with controls := Function.update s.controls c pc }

/-- `pthread_join` on probe thread `p`: it waits, or it reaps the thread; a thread that was joined
    already, or none, is a fault. -/
def CapsState.pthreadJoin (s : CapsState) (c p : Nat) : CapsState :=
  match s.probes[p]? with
  | none => { s.goto c .idle with fault := true }
  | some t =>
    if t.joined then { s.goto c .idle with fault := true }
    else if t.pc = .exited then
      { s.goto c .idle with probes := s.probes.set p ProbeThread.finished }
    else s

/-- The threads of an agent. A step that is not the next one of its thread does nothing. -/
def capsMachine : Machine CapsState CapsOp (Option VomWorkerCapabilities) where
  step s op := match op with
    | .init c =>
      if s.controls c = .idle && !s.active then
        ({ s.goto c .creating with cachedCaps := agentSysInfoCollect s.cachedCaps, active := true }, none)
      else (s, none)
    | .create c ok =>
      if s.controls c = .creating then
        if ok then
          ({ s.goto c .idle with
              probeThread := some s.probes.length
              probes := s.probes ++ [⟨.head, false⟩] }, none)
        else ({ s.goto c .idle with active := false }, none)
      else (s, none)
    | .deinit c =>
      if s.controls c = .idle && s.active then (s.goto c .stopping, none) else (s, none)
    | .stop c =>
      if s.controls c = .stopping then ({ s.goto c .joining with active := false }, none) else (s, none)
    | .reach c =>
      if s.controls c = .joining then
        match s.probeThread with
        | none => ({ s.goto c .idle with fault := true }, none)
        | some p => (s.goto c (.joiningOn p), none)
      else (s, none)
    | .join c =>
      match s.controls c with
      | .joiningOn p => (s.pthreadJoin c p, none)
      | _ => (s, none)
    | .probe p stack =>
      match s.probes[p]? with
      | none => (s, none)
      | some t =>
        ({ s with
            cachedCaps := t.pc.stored s.cachedCaps
            probes := s.probes.set p { t with pc := t.pc.step s.active stack } }, none)
    | .snapshot => (s, some s.cachedCaps)

/-- An agent before the first call. -/
def capsStart : CapsState where
  cachedCaps := noCapabilities
  active := false
  probeThread := none
  controls := fun _ => .idle
  probes := []
  fault := false

/-- The thread whose step is part of a call of init or deinit. -/
def CapsOp.control : CapsOp → Option Nat
  | .init c | .create c _ | .deinit c | .stop c | .reach c | .join c => some c
  | .probe _ _ | .snapshot => none

/-- No other thread is inside init or deinit. -/
def NoOverlap (s : CapsState) (op : CapsOp) : Prop :=
  ∀ c ∈ op.control, ∀ d, d ≠ c → s.controls d = .idle

/-! ## 3. The invariant -/

/-- All probe threads are finished. -/
def CapsState.Done (s : CapsState) : Prop := ∀ t ∈ s.probes, t = .finished

/-- The handle names the one probe thread that is not finished; while the flag is up it has not come to
    its end. -/
structure CapsState.Watched (s : CapsState) (p : Nat) : Prop where
  handle : s.probeThread = some p
  unjoined : ∃ t, s.probes[p]? = some t ∧ t.joined = false ∧ (s.active = true → t.pc ≠ .exited)
  others : ∀ q t, s.probes[q]? = some t → q ≠ p → t = .finished

/-- What holds while a control thread stands here and no other is inside a call. -/
def CapsState.PhaseOk (s : CapsState) : ControlPc → Prop
  | .idle => if s.active then ∃ p, s.Watched p else s.Done
  | .creating => s.active = true ∧ s.Done
  | .stopping => s.active = true ∧ ∃ p, s.Watched p
  | .joining => s.active = false ∧ ∃ p, s.Watched p
  | .joiningOn p => s.active = false ∧ s.Watched p

theorem phaseOk_up {s : CapsState} (h : s.active = true) : s.PhaseOk .idle ↔ ∃ p, s.Watched p := by
  unfold CapsState.PhaseOk
  rw [if_pos h]

theorem phaseOk_down {s : CapsState} (h : s.active = false) : s.PhaseOk .idle ↔ s.Done := by
  unfold CapsState.PhaseOk
  rw [if_neg (by rw [h]; exact Bool.false_ne_true)]

structure CapsInv (s : CapsState) : Prop where
  sound : s.fault = false
  phase : ∃ c, (∀ d, d ≠ c → s.controls d = .idle) ∧ s.PhaseOk (s.controls c)

theorem CapsInv.at {s : CapsState} (h : CapsInv s) {c : Nat} (hidle : ∀ d, d ≠ c → s.controls d = .idle) :
    s.PhaseOk (s.controls c) := by
  obtain ⟨c₀, hothers, hphase⟩ := h.phase
  by_cases hc : c = c₀
  · rw [hc]
    exact hphase
  · rw [hidle c₀ fun e => hc e.symm] at hphase
    rw [hothers c hc]
    exact hphase

/-- A control thread goes on, the others are between calls. -/
theorem capsInv_goto {s : CapsState} {c : Nat} {pc : ControlPc} {controls : Nat → ControlPc}
    (hidle : ∀ d, d ≠ c → controls d = .idle) (hcontrols : s.controls = Function.update controls c pc)
    (hsound : s.fault = false) (hphase : s.PhaseOk pc) : CapsInv s := by
  refine ⟨hsound, c, fun d hd => ?_, ?_⟩
  · rw [hcontrols, Function.update_of_ne hd]
    exact hidle d hd
  · rw [hcontrols, Function.update_self]
    exact hphase

/-! ## 4. One step -/

/-- While the flag is up a probe thread does not come to its end. -/
theorem step_alive (stack : VomWorkerCapabilities) {pc : ProbePc} (h : pc ≠ .exited) :
    pc.step true stack ≠ .exited := by
  cases pc with
  | head => exact ProbePc.noConfusion
  | storing freshCaps => exact ProbePc.noConfusion
  | sleeping i =>
    unfold ProbePc.step
    dsimp only
    split <;> exact ProbePc.noConfusion
  | exited => exact absurd rfl h

/-- The state after a step of probe thread `p`. -/
def CapsState.probed (s : CapsState) (p : Nat) (t : ProbeThread) (stack : VomWorkerCapabilities) :
    CapsState :=
  { s with
    cachedCaps := t.pc.stored s.cachedCaps
    probes := s.probes.set p { t with pc := t.pc.step s.active stack } }

theorem done_probed {s : CapsState} (h : s.Done) {p : Nat} {t : ProbeThread}
    (ht : s.probes[p]? = some t) (stack : VomWorkerCapabilities) : (s.probed p t stack).Done := by
  intro u hu
  rcases List.mem_or_eq_of_mem_set hu with hu | rfl
  · exact h u hu
  · rw [h t (List.mem_of_getElem? ht)]
    rfl

theorem watched_probed {s : CapsState} {p : Nat} (h : s.Watched p) {q : Nat} {t : ProbeThread}
    (ht : s.probes[q]? = some t) (stack : VomWorkerCapabilities) : (s.probed q t stack).Watched p := by
  obtain ⟨hhandle, ⟨u, hu, hjoined, halive⟩, hothers⟩ := h
  have hlt : q < s.probes.length := (List.getElem?_eq_some_iff.mp ht).1
  refine ⟨hhandle, ?_, fun r v hr hne => ?_⟩
  · by_cases hqp : q = p
    · subst hqp
      obtain rfl := Option.some.inj (ht.symm.trans hu)
      refine ⟨_, List.getElem?_set_self hlt, hjoined, fun hactive => ?_⟩
      change t.pc.step s.active stack ≠ .exited
      rw [show s.active = true from hactive]
      exact step_alive stack (halive hactive)
    · exact ⟨u, (List.getElem?_set_ne hqp).trans hu, hjoined, halive⟩
  · change (s.probes.set q _)[r]? = some v at hr
    by_cases hqr : q = r
    · subst hqr
      rw [List.getElem?_set_self hlt] at hr
      rw [← Option.some.inj hr, hothers q t ht hne]
      rfl
    · rw [List.getElem?_set_ne hqr] at hr
      exact hothers r v hr hne

theorem phaseOk_probed {s : CapsState} {pc : ControlPc} (h : s.PhaseOk pc) {p : Nat} {t : ProbeThread}
    (ht : s.probes[p]? = some t) (stack : VomWorkerCapabilities) :
    (s.probed p t stack).PhaseOk pc := by
  cases pc with
  | idle =>
    cases hactive : s.active with
    | true =>
      obtain ⟨q, hq⟩ := (phaseOk_up hactive).mp h
      exact (phaseOk_up (s := s.probed p t stack) hactive).mpr ⟨q, watched_probed hq ht stack⟩
    | false =>
      exact (phaseOk_down (s := s.probed p t stack) hactive).mpr
        (done_probed ((phaseOk_down hactive).mp h) ht stack)
  | creating => exact ⟨h.1, done_probed h.2 ht stack⟩
  | stopping =>
    obtain ⟨hactive, q, hq⟩ := h
    exact ⟨hactive, q, watched_probed hq ht stack⟩
  | joining =>
    obtain ⟨hactive, q, hq⟩ := h
    exact ⟨hactive, q, watched_probed hq ht stack⟩
  | joiningOn q => exact ⟨h.1, watched_probed h.2 ht stack⟩

/-- The thread that init creates is the one the handle names. -/
theorem watched_created {s : CapsState} (h : s.Done) {s' : CapsState}
    (hhandle : s'.probeThread = some s.probes.length)
    (hprobes : s'.probes = s.probes ++ [⟨.head, false⟩]) : s'.Watched s.probes.length := by
  refine ⟨hhandle, ⟨⟨.head, false⟩, ?_, rfl, fun _ => ProbePc.noConfusion⟩, fun q t ht hne => ?_⟩
  · rw [hprobes, List.getElem?_concat_length]
  · rw [hprobes] at ht
    have hlt := (List.getElem?_eq_some_iff.mp ht).1
    rw [List.length_append, List.length_singleton] at hlt
    rw [List.getElem?_append_left (by omega)] at ht
    exact h t (List.mem_of_getElem? ht)

/-- The join finds the thread that is not finished, and waits for it or leaves none. -/
theorem capsInv_join {s : CapsState} (h : CapsInv s) {c p : Nat}
    (hidle : ∀ d, d ≠ c → s.controls d = .idle) (hpc : s.controls c = .joiningOn p) :
    CapsInv (s.pthreadJoin c p) := by
  have hphase := h.at hidle
  rw [hpc] at hphase
  obtain ⟨hactive, -, ⟨t, ht, hjoined, -⟩, hothers⟩ := hphase
  have hunjoined : ¬ t.joined = true := by rw [hjoined]; exact Bool.false_ne_true
  have hlt : p < s.probes.length := (List.getElem?_eq_some_iff.mp ht).1
  unfold CapsState.pthreadJoin
  rw [ht]
  dsimp only
  rw [if_neg hunjoined]
  split
  · refine capsInv_goto hidle rfl h.sound ?_
    refine (phaseOk_down ?_).mpr fun u hu => ?_
    · exact hactive
    obtain ⟨q, hq⟩ := List.getElem?_of_mem hu
    change (s.probes.set p _)[q]? = some u at hq
    by_cases hpq : p = q
    · subst hpq
      rw [List.getElem?_set_self hlt] at hq
      exact (Option.some.inj hq).symm
    · rw [List.getElem?_set_ne hpq] at hq
      exact hothers q u hq fun e => hpq e.symm
  · exact h

/-- **A step keeps the invariant**, as long as calls do not overlap. -/
theorem capsInv_next (s : CapsState) (op : CapsOp) (h : CapsInv s) (hop : NoOverlap s op) :
    CapsInv (capsMachine.next s op) := by
  unfold Machine.next capsMachine
  cases op with
  | init c =>
    have hidle := hop c rfl
    dsimp only
    split
    · rename_i hguard
      rw [Bool.and_eq_true, decide_eq_true_eq, Bool.not_eq_true'] at hguard
      have hphase := h.at hidle
      rw [hguard.1, phaseOk_down hguard.2] at hphase
      exact capsInv_goto hidle rfl h.sound ⟨rfl, hphase⟩
    · exact h
  | create c ok =>
    have hidle := hop c rfl
    dsimp only
    split
    · rename_i hguard
      have hphase := h.at hidle
      rw [hguard] at hphase
      cases ok with
      | true =>
        refine capsInv_goto hidle rfl h.sound ?_
        refine (phaseOk_up ?_).mpr ⟨s.probes.length, watched_created hphase.2 rfl rfl⟩
        exact hphase.1
      | false => exact capsInv_goto hidle rfl h.sound ((phaseOk_down rfl).mpr hphase.2)
    · exact h
  | deinit c =>
    have hidle := hop c rfl
    dsimp only
    split
    · rename_i hguard
      rw [Bool.and_eq_true, decide_eq_true_eq] at hguard
      have hphase := h.at hidle
      rw [hguard.1, phaseOk_up hguard.2] at hphase
      obtain ⟨p, hp⟩ := hphase
      exact capsInv_goto hidle rfl h.sound ⟨hguard.2, p, hp.handle, hp.unjoined, hp.others⟩
    · exact h
  | stop c =>
    have hidle := hop c rfl
    dsimp only
    split
    · rename_i hguard
      have hphase := h.at hidle
      rw [hguard] at hphase
      obtain ⟨-, p, hhandle, ⟨t, ht, hjoined, -⟩, hothers⟩ := hphase
      exact capsInv_goto hidle rfl h.sound
        ⟨rfl, p, hhandle, ⟨t, ht, hjoined, fun hup => absurd hup Bool.false_ne_true⟩, hothers⟩
    · exact h
  | reach c =>
    have hidle := hop c rfl
    dsimp only
    split
    · rename_i hguard
      have hphase := h.at hidle
      rw [hguard] at hphase
      obtain ⟨hactive, p, hp⟩ := hphase
      rw [hp.handle]
      exact capsInv_goto hidle rfl h.sound ⟨hactive, hp.handle, hp.unjoined, hp.others⟩
    · exact h
  | join c =>
    have hidle := hop c rfl
    dsimp only
    split
    · rename_i p hpc
      exact capsInv_join h hidle hpc
    · exact h
  | probe p stack =>
    dsimp only
    split
    · exact h
    · rename_i t ht
      obtain ⟨hsound, c, hidle, hphase⟩ := h
      exact ⟨hsound, c, hidle, phaseOk_probed hphase ht stack⟩
  | snapshot => exact h

theorem capsInv_start : CapsInv capsStart :=
  ⟨rfl, 0, fun _ _ => rfl, (phaseOk_down rfl).mpr fun _ ht => absurd ht List.not_mem_nil⟩

/-! ## 5. Whole runs -/

theorem capsInv_run {ops : List CapsOp} (h : capsMachine.Legal NoOverlap capsStart ops) :
    CapsInv (capsMachine.run capsStart ops) :=
  capsMachine.invariant CapsInv capsInv_next capsInv_start h

theorem CapsInv.done_or_watched {s : CapsState} (h : CapsInv s) : s.Done ∨ ∃ p, s.Watched p := by
  obtain ⟨c, -, hphase⟩ := h.phase
  cases hpc : s.controls c with
  | idle =>
    rw [hpc] at hphase
    cases hactive : s.active with
    | true => exact Or.inr ((phaseOk_up hactive).mp hphase)
    | false => exact Or.inl ((phaseOk_down hactive).mp hphase)
  | creating =>
    rw [hpc] at hphase
    exact Or.inl hphase.2
  | stopping =>
    rw [hpc] at hphase
    exact Or.inr hphase.2
  | joining =>
    rw [hpc] at hphase
    exact Or.inr hphase.2
  | joiningOn p =>
    rw [hpc] at hphase
    exact Or.inr ⟨p, hphase.2⟩

/-- A thread that has not come to its end. -/
def ProbeThread.alive (t : ProbeThread) : Bool := t.pc != .exited

theorem not_alive_finished : ProbeThread.finished.alive = false := rfl

/-- Of two threads that have not come to their end one would not be watched. -/
theorem CapsInv.alive_unique {s : CapsState} (h : CapsInv s) {p q : Nat} {t u : ProbeThread}
    (ht : s.probes[p]? = some t) (hu : s.probes[q]? = some u) (hat : t.alive = true)
    (hau : u.alive = true) : p = q := by
  have hfinished : ∀ {v : ProbeThread}, v.alive = true → v ≠ .finished := fun hv e =>
    Bool.false_ne_true (not_alive_finished.symm.trans (e ▸ hv))
  rcases h.done_or_watched with hdone | ⟨r, hr⟩
  · exact absurd (hdone t (List.mem_of_getElem? ht)) (hfinished hat)
  · have hp : p = r := Classical.byContradiction fun hne => hfinished hat (hr.others p t ht hne)
    have hq : q = r := Classical.byContradiction fun hne => hfinished hau (hr.others q u hu hne)
    rw [hp, hq]

/-- **One probe thread.** In every interleaving of threads that call init, deinit and snapshot and of the
    probe threads, in which calls of init and deinit do not overlap: no thread is joined that could not
    be, at most one probe thread has not come to its end, and when no call is under way there is one
    exactly while the flag is up. -/
theorem one_probe_thread (ops : List CapsOp) (h : capsMachine.Legal NoOverlap capsStart ops) :
    let s := capsMachine.run capsStart ops
    s.fault = false ∧
    (∀ (p q : Nat) (t u : ProbeThread), s.probes[p]? = some t → s.probes[q]? = some u →
      t.alive = true → u.alive = true → p = q) ∧
    ((∀ c, s.controls c = .idle) → (s.active = true ↔ ∃ t ∈ s.probes, t.alive = true)) := by
  intro s
  have hinv := capsInv_run h
  refine ⟨hinv.sound, fun p q t u => hinv.alive_unique, fun hidle => ?_⟩
  have hphase := hinv.at (c := 0) fun d _ => hidle d
  rw [show s.controls 0 = .idle from hidle 0] at hphase
  cases hactive : s.active with
  | true =>
    obtain ⟨p, -, ⟨t, ht, -, halive⟩, -⟩ := (phaseOk_up hactive).mp hphase
    refine iff_of_true rfl ⟨t, List.mem_of_getElem? ht, ?_⟩
    exact bne_iff_ne.mpr (halive hactive)
  | false =>
    refine iff_of_false Bool.false_ne_true fun hex => ?_
    obtain ⟨t, ht, halive⟩ := hex
    rw [(phaseOk_down hactive).mp hphase t ht, not_alive_finished] at halive
    exact Bool.false_ne_true halive

/-! ## 6. One thread that calls -/

theorem controls_next (s : CapsState) (op : CapsOp) {d : Nat} (hd : d ∉ op.control) :
    (capsMachine.next s op).controls d = s.controls d := by
  have hgoto : ∀ {c : Nat} (pc : ControlPc), op.control = some c →
      (s.goto c pc).controls d = s.controls d := fun pc hc =>
    Function.update_of_ne (fun e => hd (hc.trans (congrArg some e.symm))) _ _
  unfold Machine.next capsMachine
  cases op with
  | init c =>
    dsimp only
    split
    · exact hgoto _ rfl
    · rfl
  | create c ok =>
    dsimp only
    split
    · split
      · exact hgoto _ rfl
      · exact hgoto _ rfl
    · rfl
  | deinit c =>
    dsimp only
    split
    · exact hgoto _ rfl
    · rfl
  | stop c =>
    dsimp only
    split
    · exact hgoto _ rfl
    · rfl
  | reach c =>
    dsimp only
    split
    · split
      · exact hgoto _ rfl
      · exact hgoto _ rfl
    · rfl
  | join c =>
    dsimp only
    split
    · unfold CapsState.pthreadJoin
      split
      · exact hgoto _ rfl
      · split
        · exact hgoto _ rfl
        · split
          · exact hgoto _ rfl
          · rfl
    · rfl
  | probe p stack =>
    dsimp only
    split <;> rfl
  | snapshot => rfl

theorem controls_run {s : CapsState} {rest : List CapsOp} (h : ∀ op ∈ rest, op.control = none)
    (d : Nat) : (capsMachine.run s rest).controls d = s.controls d := by
  induction rest generalizing s with
  | nil => rfl
  | cons op rest ih =>
    have hop : d ∉ op.control := by rw [h op List.mem_cons_self]; exact Option.not_mem_none d
    rw [capsMachine.run_cons, ih fun o ho => h o (List.mem_cons_of_mem _ ho), controls_next s op hop]

/-- Calls of one thread do not overlap. -/
theorem legal_one_thread {c : Nat} {s : CapsState} (hidle : ∀ d, d ≠ c → s.controls d = .idle)
    {ops : List CapsOp} (h : ∀ op ∈ ops, ∀ d ∈ op.control, d = c) :
    capsMachine.Legal NoOverlap s ops := by
  induction ops generalizing s with
  | nil => trivial
  | cons op ops ih =>
    have hop := h op List.mem_cons_self
    refine ⟨fun d hd e he => hidle e fun hc => he (hc.trans (hop d hd).symm), ih (fun d hd => ?_) ?_⟩
    · rw [controls_next s op fun hmem => hd (hop d hmem)]
      exact hidle d hd
    · exact fun o ho => h o (List.mem_cons_of_mem _ ho)

/-- The agent's main thread starts the probe thread, which collects once, and ends it. -/
def startAndStop : List CapsOp :=
  [.init 0, .create 0 true, .probe 0 noCapabilities, .probe 0 noCapabilities, .deinit 0, .stop 0,
    .reach 0, .probe 0 noCapabilities, .probe 0 noCapabilities, .join 0]

theorem one_probe_thread_startAndStop :
    (capsMachine.run capsStart startAndStop).probes = [.finished] ∧
      (capsMachine.run capsStart startAndStop).fault = false :=
  ⟨rfl, (one_probe_thread startAndStop
    (legal_one_thread (c := 0) (fun _ _ => rfl) (by decide))).1⟩

/-! ## 7. How long a deinit waits -/

/-- The steps a probe thread takes to its end once the flag is down. -/
def ProbePc.rank : ProbePc → Nat
  | .storing _ => 3
  | .sleeping _ => 2
  | .head => 1
  | .exited => 0

theorem rank_step (stack : VomWorkerCapabilities) (pc : ProbePc) :
    (pc.step false stack).rank = pc.rank - 1 := by
  cases pc with
  | sleeping i =>
    unfold ProbePc.step
    dsimp only
    rw [Bool.and_false, if_neg Bool.false_ne_true]
    rfl
  | _ => rfl

theorem rank_zero {pc : ProbePc} (h : pc.rank = 0) : pc = .exited := by
  cases pc with
  | exited => rfl
  | _ => exact absurd h (Nat.succ_ne_zero _)

theorem rank_le (pc : ProbePc) : pc.rank ≤ 3 := by
  cases pc with
  | _ => exact Nat.le_of_ble_eq_true rfl

/-- The step is one of probe thread `p`. -/
def CapsOp.isProbe (p : Nat) : CapsOp → Bool
  | .probe q _ => q == p
  | _ => false

/-- What the waiting deinit sees: the flag down, itself at its join, the thread it joins and how far that
    is from its end. -/
structure Waiting (c p n : Nat) (s : CapsState) : Prop where
  down : s.active = false
  joining : s.controls c = .joiningOn p
  near : ∃ t, s.probes[p]? = some t ∧ t.joined = false ∧ t.pc.rank ≤ n

theorem waiting_next {c p n : Nat} {s : CapsState} (h : Waiting c p n s) {op : CapsOp}
    (hop : op.control = none) :
    Waiting c p (n - if op.isProbe p then 1 else 0) (capsMachine.next s op) := by
  obtain ⟨hdown, hjoining, t, ht, hjoined, hrank⟩ := h
  have hlt : p < s.probes.length := (List.getElem?_eq_some_iff.mp ht).1
  cases op with
  | probe q stack =>
    unfold Machine.next capsMachine
    dsimp only
    by_cases hqp : q = p
    · subst hqp
      rw [ht]
      refine ⟨hdown, hjoining, _, List.getElem?_set_self hlt, hjoined, ?_⟩
      change (t.pc.step s.active stack).rank ≤ _
      rw [hdown, rank_step, show CapsOp.isProbe q (.probe q stack) = true from beq_self_eq_true q,
        if_pos rfl]
      omega
    · have hother : CapsOp.isProbe p (.probe q stack) = false := beq_eq_false_iff_ne.mpr hqp
      rw [hother, if_neg Bool.false_ne_true]
      cases hq : s.probes[q]? with
      | none => exact ⟨hdown, hjoining, t, ht, hjoined, hrank⟩
      | some u =>
        exact ⟨hdown, hjoining, t, (List.getElem?_set_ne hqp).trans ht, hjoined, hrank⟩
  | snapshot => exact ⟨hdown, hjoining, t, ht, hjoined, hrank⟩
  | _ => exact absurd hop (Option.some_ne_none _)

theorem waiting_run {c p n : Nat} {s : CapsState} (h : Waiting c p n s) {rest : List CapsOp}
    (hrest : ∀ op ∈ rest, op.control = none) :
    Waiting c p (n - rest.countP (CapsOp.isProbe p)) (capsMachine.run s rest) := by
  induction rest generalizing s n with
  | nil => exact h
  | cons op rest ih =>
    have hnext := ih (waiting_next h (hrest op List.mem_cons_self))
      fun o ho => hrest o (List.mem_cons_of_mem _ ho)
    rw [List.countP_cons, Nat.add_comm, ← Nat.sub_sub]
    exact hnext

theorem join_next {c p : Nat} {s : CapsState} (h : s.controls c = .joiningOn p) :
    capsMachine.next s (.join c) = s.pthreadJoin c p := by
  unfold Machine.next capsMachine
  dsimp only
  rw [h]

/-- The join of a thread that has come to its end. -/
theorem pthreadJoin_exited {c p : Nat} {s : CapsState} {t : ProbeThread} (ht : s.probes[p]? = some t)
    (hjoined : t.joined = false) (hexited : t.pc = .exited) :
    s.pthreadJoin c p =
      { s.goto c .idle with probes := s.probes.set p ProbeThread.finished } := by
  unfold CapsState.pthreadJoin
  rw [ht]
  dsimp only
  rw [hjoined, if_neg Bool.false_ne_true, if_pos hexited]

/-- **A deinit waits for at most three steps of the probe thread.** Wherever calls of init and deinit do
    not overlap and a deinit has come to its join: once the probe thread it joins has taken three more
    steps, whatever other probe threads and snapshots do meanwhile, the join returns, and all probe
    threads are finished. -/
theorem deinit_returns (ops : List CapsOp) (h : capsMachine.Legal NoOverlap capsStart ops) (c p : Nat)
    (hjoin : (capsMachine.run capsStart ops).controls c = .joiningOn p) (rest : List CapsOp)
    (hrest : ∀ op ∈ rest, op.control = none) (hsteps : 3 ≤ rest.countP (CapsOp.isProbe p)) :
    let s := capsMachine.run capsStart (ops ++ rest ++ [.join c])
    s.controls c = .idle ∧ s.Done ∧ s.fault = false := by
  intro s
  have hinv := capsInv_run h
  -- the thread at its join is the one that is inside a call
  obtain ⟨c₀, hothers, hphase⟩ := hinv.phase
  have hc : c = c₀ := Classical.byContradiction fun hne =>
    ControlPc.noConfusion ((hothers c hne).symm.trans hjoin)
  rw [← hc, hjoin] at hphase
  rw [← hc] at hothers
  obtain ⟨hdown, -, ⟨t, ht, hjoined, -⟩, -⟩ := hphase
  have hwait := waiting_run ⟨hdown, hjoin, t, ht, hjoined, rank_le t.pc⟩ hrest
  obtain ⟨hdown', hjoin', u, hu, hujoined, hurank⟩ := hwait
  have hexited : u.pc = .exited := rank_zero (by omega)
  have hs : s = { (capsMachine.run (capsMachine.run capsStart ops) rest).goto c .idle with
      probes := (capsMachine.run (capsMachine.run capsStart ops) rest).probes.set p .finished } := by
    rw [← pthreadJoin_exited hu hujoined hexited, ← join_next hjoin']
    change capsMachine.run capsStart (ops ++ rest ++ [.join c]) = _
    rw [capsMachine.run_append, capsMachine.run_append, capsMachine.run_cons, capsMachine.run_nil]
  have hlegal : capsMachine.Legal NoOverlap capsStart (ops ++ rest ++ [.join c]) := by
    rw [capsMachine.legal_append, capsMachine.legal_append]
    refine ⟨⟨h, capsMachine.legal_iff_split.mpr fun pre op post heq d hd => ?_⟩,
      fun d hd e he => ?_, trivial⟩
    · rw [hrest op (heq ▸ List.mem_append_right pre List.mem_cons_self)] at hd
      exact absurd hd (Option.not_mem_none d)
    · rw [capsMachine.run_append, controls_run hrest]
      exact hothers e fun hec => he (hec.trans (Option.some.inj hd))
  have hinv' : CapsInv s := capsInv_run hlegal
  have hidle : s.controls c = .idle := by
    rw [hs]
    exact Function.update_self c _ _
  have hactive : s.active = false := by
    rw [hs]
    exact hdown'
  have hrestIdle : ∀ d, d ≠ c → s.controls d = .idle := by
    intro d hd
    rw [hs]
    refine (Function.update_of_ne hd _ _).trans ?_
    rw [controls_run hrest]
    exact hothers d hd
  have hphase' := hinv'.at hrestIdle
  rw [hidle] at hphase'
  exact ⟨hidle, (phaseOk_down hactive).mp hphase', hinv'.sound⟩

theorem deinit_returns_startAndStop :
    (capsMachine.run capsStart
      (startAndStop.take 7 ++ List.replicate 3 (.probe 0 noCapabilities) ++ [.join 0])).controls 0 =
        .idle :=
  (deinit_returns (startAndStop.take 7) (legal_one_thread (c := 0) (fun _ _ => rfl) (by decide)) 0 0 rfl
    (List.replicate 3 (.probe 0 noCapabilities)) (by decide) (by decide)).1

/-! ## 8. Calls that overlap -/

/-- While one thread is in deinit and the probe thread sleeps, another calls init. -/
def overlappingCalls : List CapsOp :=
  [.init 0, .create 0 true, .probe 0 noCapabilities, .probe 0 noCapabilities, .deinit 0, .stop 0,
    .init 1, .create 1 true, .reach 0, .probe 0 noCapabilities]

/-- **Calls that overlap leave two probe threads**, and the deinit waits for the wrong one. -/
theorem overlapping_calls_leave_two_probes :
    (capsMachine.run capsStart overlappingCalls).probes.map ProbeThread.alive = [true, true] ∧
      (capsMachine.run capsStart overlappingCalls).controls 0 = .joiningOn 1 ∧
      (capsMachine.run capsStart overlappingCalls).active = true :=
  ⟨rfl, rfl, rfl⟩

end VoidOsMerger
