/-
  File:      VoidOsMerger/Base/Run.lean
  Subject:   RUNS OF A MACHINE. A machine answers operations one at a time; a run is the list of the
             operations, in order.

  * `Machine.run` -- the state after a run, `Machine.answers` -- what the operations answered;
  * `Machine.Legal ok s ops` -- every operation of the run meets `ok` in the state it is applied to;
  * `Machine.invariant` -- what holds at the start and is kept by every legal step holds after every
    legal run. A prefix of a legal run is legal (`legal_append`), so this is every state the run
    passes through;
  * `Machine.prefix_iff_legal`, `Machine.between_iff_legal`, `Machine.legal_congr` -- what holds of
    every state, or between any two states, of a run as a condition on its steps, and when two such
    conditions are met by the same runs;
  * `Machine.simulation` -- two machines that keep their states related and answer alike;
  * `Machine.log` -- what a run writes to a log, with its own invariant rule (`invariant_log`).
-/
import Mathlib.Init

namespace VoidOsMerger

/-- A machine: an operation changes the state and answers. -/
structure Machine (σ Op Out : Type) where
  step : σ → Op → σ × Out

namespace Machine

variable {σ Op Out : Type} (M : Machine σ Op Out)

/-- The state after one operation. -/
def next (s : σ) (o : Op) : σ := (M.step s o).1

/-- The answer of one operation. -/
def answer (s : σ) (o : Op) : Out := (M.step s o).2

/-- The state after a run. -/
def run : σ → List Op → σ
  | s, [] => s
  | s, o :: ops => run (M.next s o) ops

/-- The answers of a run, in order. -/
def answers : σ → List Op → List Out
  | _, [] => []
  | s, o :: ops => M.answer s o :: answers (M.next s o) ops

/-- What a run writes to a log, when operation `o` in state `s` writes `f s o`. -/
def log {E : Type} (f : σ → Op → List E) : σ → List Op → List E
  | _, [] => []
  | s, o :: ops => f s o ++ log f (M.next s o) ops

/-- Every operation of the run meets `ok` where it is applied. -/
def Legal (ok : σ → Op → Prop) : σ → List Op → Prop
  | _, [] => True
  | s, o :: ops => ok s o ∧ Legal ok (M.next s o) ops

instance decidableLegal (ok : σ → Op → Prop) [∀ s o, Decidable (ok s o)] :
    (s : σ) → (ops : List Op) → Decidable (M.Legal ok s ops)
  | _, [] => isTrue trivial
  | s, o :: ops => @instDecidableAnd _ _ _ (decidableLegal ok (M.next s o) ops)

@[simp] theorem run_nil (s : σ) : M.run s [] = s := rfl

@[simp] theorem run_cons (s : σ) (o : Op) (ops : List Op) :
    M.run s (o :: ops) = M.run (M.next s o) ops := rfl

theorem run_append (s : σ) (as bs : List Op) : M.run s (as ++ bs) = M.run (M.run s as) bs := by
  induction as generalizing s with
  | nil => rfl
  | cons a as ih => exact ih (M.next s a)

theorem legal_append {ok : σ → Op → Prop} (s : σ) (as bs : List Op) :
    M.Legal ok s (as ++ bs) ↔ M.Legal ok s as ∧ M.Legal ok (M.run s as) bs := by
  induction as generalizing s with
  | nil => simp [Legal]
  | cons a as ih =>
    simp only [List.cons_append, Legal, run_cons, and_assoc]
    rw [ih]

theorem log_append {E : Type} (f : σ → Op → List E) (s : σ) (as bs : List Op) :
    M.log f s (as ++ bs) = M.log f s as ++ M.log f (M.run s as) bs := by
  induction as generalizing s with
  | nil => rfl
  | cons a as ih =>
    rw [List.cons_append, log, log, ih, List.append_assoc, run_cons]

/-- A condition on the operations alone. -/
theorem legal_of_forall {ok : Op → Prop} : ∀ (s : σ) {ops : List Op}, (∀ o ∈ ops, ok o) →
    M.Legal (fun _ o => ok o) s ops
  | _, [], _ => trivial
  | s, o :: _, h => ⟨h o List.mem_cons_self,
      legal_of_forall (M.next s o) fun x hx => h x (List.mem_cons_of_mem _ hx)⟩

/-- Every run meets the condition that asks nothing. -/
theorem legal_true (s : σ) (ops : List Op) : M.Legal (fun _ _ => True) s ops :=
  M.legal_of_forall s fun _ _ => trivial

theorem Legal.and {ok ok' : σ → Op → Prop} : ∀ {s : σ} {ops : List Op},
    M.Legal ok s ops → M.Legal ok' s ops → M.Legal (fun s o => ok s o ∧ ok' s o) s ops
  | _, [], _, _ => trivial
  | _, _ :: _, h, h' => ⟨⟨h.1, h'.1⟩, h.2.and h'.2⟩

theorem legal_and_iff {ok ok' : σ → Op → Prop} {s : σ} {ops : List Op} :
    M.Legal ok s ops ∧ M.Legal ok' s ops ↔ M.Legal (fun s o => ok s o ∧ ok' s o) s ops := by
  refine ⟨fun h => h.1.and M h.2, fun h => ?_⟩
  induction ops generalizing s with
  | nil => exact ⟨trivial, trivial⟩
  | cons o ops ih =>
    obtain ⟨hrest, hrest'⟩ := ih h.2
    exact ⟨⟨h.1.1, hrest⟩, h.1.2, hrest'⟩

/-- The operations of a legal run can be told to be among those of the run. -/
theorem Legal.mem {ok : σ → Op → Prop} {T : List Op} :
    ∀ {s : σ} {ops : List Op}, ops ⊆ T → M.Legal ok s ops →
      M.Legal (fun s o => ok s o ∧ o ∈ T) s ops
  | _, [], _, _ => trivial
  | _, _ :: _, hT, hl => ⟨⟨hl.1, hT List.mem_cons_self⟩,
      Legal.mem (fun _ ho => hT (List.mem_cons_of_mem _ ho)) hl.2⟩

/-- **The invariant rule.** -/
theorem invariant (Inv : σ → Prop) {ok : σ → Op → Prop}
    (hstep : ∀ s o, Inv s → ok s o → Inv (M.next s o)) {s : σ} {ops : List Op} (hs : Inv s)
    (hl : M.Legal ok s ops) : Inv (M.run s ops) := by
  induction ops generalizing s with
  | nil => exact hs
  | cons o ops ih => exact ih (hstep s o hs hl.1) hl.2

/-- The invariant rule for the state together with a log the run goes on writing. -/
theorem invariant_log_from {E : Type} (f : σ → Op → List E) (Inv : σ → List E → Prop)
    {ok : σ → Op → Prop}
    (hstep : ∀ s o L, Inv s L → ok s o → Inv (M.next s o) (L ++ f s o)) {s : σ} {ops : List Op}
    {L : List E} (hs : Inv s L) (hl : M.Legal ok s ops) :
    Inv (M.run s ops) (L ++ M.log f s ops) := by
  induction ops generalizing s L with
  | nil => simpa [log] using hs
  | cons o ops ih =>
    have h := ih (hstep s o L hs hl.1) hl.2
    rwa [List.append_assoc] at h

/-- The invariant rule for the state together with the log of the run. -/
theorem invariant_log {E : Type} (f : σ → Op → List E) (Inv : σ → List E → Prop)
    {ok : σ → Op → Prop}
    (hstep : ∀ s o L, Inv s L → ok s o → Inv (M.next s o) (L ++ f s o)) {s : σ} {ops : List Op}
    (hs : Inv s []) (hl : M.Legal ok s ops) : Inv (M.run s ops) (M.log f s ops) := by
  have h := M.invariant_log_from f Inv hstep hs hl
  rwa [List.nil_append] at h

/-- The invariant rule for runs of any operations. -/
theorem invariant_all (Inv : σ → Prop) (hstep : ∀ s o, Inv s → Inv (M.next s o)) {s : σ}
    (ops : List Op) (hs : Inv s) : Inv (M.run s ops) := by
  induction ops generalizing s with
  | nil => exact hs
  | cons o ops ih => exact ih (hstep s o hs)

/-! ## What holds all along a run -/

/-- A property holds after every prefix of a run exactly when it holds at the start and every
    operation leads to a state with it. -/
theorem prefix_iff_legal {P : σ → Prop} {s : σ} {ops : List Op} :
    (∀ pre, pre <+: ops → P (M.run s pre)) ↔ P s ∧ M.Legal (fun s o => P (M.next s o)) s ops := by
  induction ops generalizing s with
  | nil =>
    constructor
    · intro h
      exact ⟨h [] (List.prefix_refl []), trivial⟩
    · rintro ⟨hs, _⟩ pre hpre
      rw [List.prefix_nil.mp hpre]
      exact hs
  | cons o ops ih =>
    constructor
    · intro h
      obtain ⟨hnext, hrest⟩ := ih.mp fun pre hpre => h (o :: pre) (List.cons_prefix_cons.mpr ⟨rfl, hpre⟩)
      exact ⟨h [] List.nil_prefix, hnext, hrest⟩
    · rintro ⟨hs, hnext, hrest⟩ pre hpre
      cases pre with
      | nil => exact hs
      | cons a pre =>
        obtain ⟨rfl, htail⟩ := List.cons_prefix_cons.mp hpre
        exact ih.mpr ⟨hnext, hrest⟩ pre htail

/-- A reflexive and transitive relation holds between any two states of a run, the earlier and the
    later one, exactly when every step keeps it. -/
theorem between_iff_legal {R : σ → σ → Prop} (hrefl : ∀ s, R s s)
    (htrans : ∀ {a b c}, R a b → R b c → R a c) {s : σ} {ops : List Op} :
    (∀ pre mid, pre ++ mid <+: ops → R (M.run s pre) (M.run s (pre ++ mid))) ↔
      M.Legal (fun s o => R s (M.next s o)) s ops := by
  induction ops generalizing s with
  | nil =>
    refine iff_of_true (fun pre mid h => ?_) trivial
    obtain ⟨rfl, rfl⟩ := List.append_eq_nil_iff.mp (List.prefix_nil.mp h)
    exact hrefl s
  | cons o ops ih =>
    constructor
    · intro h
      refine ⟨h [] [o] (List.cons_prefix_cons.mpr ⟨rfl, List.nil_prefix⟩), ih.mp ?_⟩
      exact fun pre mid hpre => h (o :: pre) mid (List.cons_prefix_cons.mpr ⟨rfl, hpre⟩)
    · rintro ⟨ho, hops⟩ pre mid hpre
      cases pre with
      | cons a pre =>
        obtain ⟨rfl, htail⟩ := List.cons_prefix_cons.mp hpre
        exact ih.mpr hops pre mid htail
      | nil =>
        cases mid with
        | nil => exact hrefl s
        | cons a mid =>
          obtain ⟨rfl, htail⟩ := List.cons_prefix_cons.mp hpre
          exact htrans ho (ih.mpr hops [] mid htail)

/-- A run is legal when every operation of it meets the condition in the state before it. -/
theorem legal_iff_split {ok : σ → Op → Prop} {s : σ} {ops : List Op} :
    M.Legal ok s ops ↔ ∀ pre o post, ops = pre ++ o :: post → ok (M.run s pre) o := by
  constructor
  · rintro h pre o post rfl
    exact ((M.legal_append s pre (o :: post)).mp h).2.1
  · intro h
    induction ops generalizing s with
    | nil => trivial
    | cons a ops ih =>
      refine ⟨h [] a ops rfl, ih fun pre o post e => ?_⟩
      exact h (a :: pre) o post (congrArg (a :: ·) e)

/-- A property of every answer of a run as a condition on its steps. -/
theorem answers_iff_legal {P : Out → Prop} {s : σ} {ops : List Op} :
    (∀ a ∈ M.answers s ops, P a) ↔ M.Legal (fun s o => P (M.answer s o)) s ops := by
  induction ops generalizing s with
  | nil => simp [answers, Legal]
  | cons o ops ih =>
    rw [answers, List.forall_mem_cons, ih]
    exact Iff.rfl

/-- A property of everything a run logs as a condition on its steps. -/
theorem log_iff_legal {E : Type} {f : σ → Op → List E} {P : E → Prop} {s : σ} {ops : List Op} :
    (∀ e ∈ M.log f s ops, P e) ↔ M.Legal (fun s o => ∀ e ∈ f s o, P e) s ops := by
  induction ops generalizing s with
  | nil => simp [log, Legal]
  | cons o ops ih =>
    rw [log, List.forall_mem_append, ih]
    exact Iff.rfl

/-- Equivalent step conditions are met by the same runs. -/
theorem legal_iff {ok ok' : σ → Op → Prop} (hiff : ∀ s o, ok s o ↔ ok' s o) {s : σ} {ops : List Op} :
    M.Legal ok s ops ↔ M.Legal ok' s ops := by
  induction ops generalizing s with
  | nil => exact Iff.rfl
  | cons o ops ih => exact and_congr (hiff s o) ih

/-- Two step conditions that agree where an invariant holds which both of them keep are met by the
    same runs. -/
theorem legal_congr (Inv : σ → Prop) {amb ok ok' : σ → Op → Prop}
    (hiff : ∀ s o, Inv s → amb s o → (ok s o ↔ ok' s o))
    (hkeep : ∀ s o, Inv s → amb s o → ok s o → Inv (M.next s o)) {s : σ} {ops : List Op}
    (hs : Inv s) (hamb : M.Legal amb s ops) : M.Legal ok s ops ↔ M.Legal ok' s ops := by
  induction ops generalizing s with
  | nil => exact Iff.rfl
  | cons o ops ih =>
    constructor
    · rintro ⟨ho, hops⟩
      exact ⟨(hiff s o hs hamb.1).mp ho, (ih (hkeep s o hs hamb.1 ho) hamb.2).mp hops⟩
    · rintro ⟨ho, hops⟩
      have ho := (hiff s o hs hamb.1).mpr ho
      exact ⟨ho, (ih (hkeep s o hs hamb.1 ho) hamb.2).mpr hops⟩

/-- **When a property holds all along a run**: where an invariant tells which operations keep the
    property, exactly when the operations of the run are such ones. -/
theorem always_iff_legal (Inv : σ → Prop) {P : σ → Prop} {amb ok : σ → Op → Prop}
    (hiff : ∀ s o, Inv s → amb s o → (P (M.next s o) ↔ ok s o))
    (hkeep : ∀ s o, Inv s → amb s o → P (M.next s o) → Inv (M.next s o)) {s : σ} {ops : List Op}
    (hP : P s) (hs : Inv s) (hamb : M.Legal amb s ops) :
    (∀ pre, pre <+: ops → P (M.run s pre)) ↔ M.Legal ok s ops := by
  rw [M.prefix_iff_legal, and_iff_right hP]
  exact M.legal_congr Inv hiff hkeep hs hamb

/-- **Simulation.** Where every step of two machines keeps their states related and answers alike,
    so does every run. -/
theorem simulation {τ Out' : Type} {N : Machine τ Op Out'} (R : σ → τ → Prop) (view : Out → Out')
    {ok : Op → Prop}
    (hstep : ∀ s t o, R s t → ok o → R (M.next s o) (N.next t o) ∧ view (M.answer s o) = N.answer t o) :
    ∀ (ops : List Op) {s : σ} {t : τ}, R s t → (∀ o ∈ ops, ok o) →
      R (M.run s ops) (N.run t ops) ∧ (M.answers s ops).map view = N.answers t ops
  | [], _, _, h, _ => ⟨h, rfl⟩
  | o :: ops, s, t, h, hok => by
      obtain ⟨hnext, hanswer⟩ := hstep s t o h (hok o List.mem_cons_self)
      obtain ⟨hrun, hanswers⟩ :=
        simulation R view hstep ops hnext fun x hx => hok x (List.mem_cons_of_mem _ hx)
      refine ⟨hrun, ?_⟩
      rw [answers, answers, List.map_cons, hanswer, hanswers]

end Machine

end VoidOsMerger
