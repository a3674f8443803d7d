/-
  File:      VoidOsMerger/Base/Worklist.lean
  Subject:   FIRING ORDERS: nodes that each wait for a number of tokens and hand tokens to other
             nodes when they fire, and the counter-and-queue program that computes who can fire.

  * `Firing need give q` -- `q` lists nodes once each, and every node has received what it needs
    from the nodes before it;
  * `Blocked need give nodes U` -- the nodes of `U` starve: even if all others fire, each of them
    is short of tokens;
  * **`Firing.fires_all_iff`** -- a firing order that cannot be continued lists all nodes exactly
    when no set of nodes is blocked, so the outcome does not depend on the order taken;
  * **`drain_spec`** -- the program (one counter and one queue) ends, with each node queued at most
    once, in a firing order that cannot be continued;
  * `Acyclic.exists_minimal` -- where a relation has no cycle, every list has a minimal member.
-/
import Mathlib.Data.List.Perm.Subperm
import Mathlib.Data.List.Nodup
import Mathlib.Algebra.BigOperators.Group.List.Basic
import Mathlib.Algebra.GroupWithZero.Nat
import Mathlib.Algebra.Order.BigOperators.Group.List
import Mathlib.Algebra.Order.Group.Nat
import Mathlib.Data.List.Range
import Mathlib.Logic.Relation
import Mathlib.Order.WellFoundedSet

namespace VoidOsMerger

/-! ## 1. Firing orders and blocked sets -/

section Firing

variable {α : Type} (need : α → Nat) (give : α → α → Nat)

/-- The tokens the nodes of `q` hand to `k`. -/
def received (q : List α) (k : α) : Nat :=
  (q.map fun i => give i k).sum

/-- `q` fires its nodes in order: none twice, and each with all it needs already received. -/
inductive Firing : List α → Prop
  | nil : Firing []
  | snoc {q : List α} {k : α} : Firing q → k ∉ q → need k ≤ received give q k → Firing (q ++ [k])

/-- The nodes of `U` starve: whatever fires outside `U`, each of them stays short of tokens. -/
structure Blocked (nodes : List α) (U : α → Bool) : Prop where
  inhabited : ∃ k ∈ nodes, U k = true
  short : ∀ k ∈ nodes, U k = true → received give (nodes.filter fun i => !U i) k < need k

variable {need give}

@[simp] theorem received_append (q r : List α) (k : α) :
    received give (q ++ r) k = received give q k + received give r k := by
  simp [received]

@[simp] theorem received_singleton (i k : α) : received give [i] k = give i k := by
  simp [received]

variable (give) in
/-- Distinct nodes inside a larger list hand over no more than that list. -/
theorem received_le [DecidableEq α] {q r : List α} (hq : q.Nodup) (h : q ⊆ r) (k : α) :
    received give q k ≤ received give r k := by
  obtain ⟨q', hperm, hsub⟩ := List.subperm_of_subset hq h
  calc received give q k
    _ = received give q' k := (hperm.map _).sum_eq.symm
    _ ≤ received give r k := (hsub.map _).sum_le_sum fun _ _ => Nat.zero_le _

theorem Firing.nodup {q : List α} (h : Firing need give q) : q.Nodup := by
  induction h with
  | nil => exact List.nodup_nil
  | snoc _ hk _ ih =>
      rw [← List.concat_eq_append]
      exact List.Nodup.concat hk ih

/-- Nodes that need nothing fire in any order. -/
theorem firing_of_free {q : List α} (hq : q.Nodup) (h : ∀ k ∈ q, need k = 0) :
    Firing need give q := by
  induction q using List.reverseRecOn with
  | nil => exact Firing.nil
  | append_singleton q k ih =>
      obtain ⟨hq', _, hk⟩ := List.nodup_append.mp hq
      refine (ih hq' fun i hi => h i (List.mem_append_left _ hi)).snoc
        (fun hmem => hk k hmem k (List.mem_singleton_self k) rfl) ?_
      rw [h k (List.mem_append_right _ (List.mem_singleton_self k))]
      exact Nat.zero_le _

/-- Distinct nodes inside a list are all of it exactly when they are as many. -/
theorem subset_iff_length_eq {q nodes : List α} (hq : q.Nodup) (hnodes : nodes.Nodup)
    (h : q ⊆ nodes) : nodes ⊆ q ↔ q.length = nodes.length := by
  have hle := (List.subperm_of_subset hq h).length_le
  constructor
  · intro hall
    exact Nat.le_antisymm hle (List.subperm_of_subset hnodes hall).length_le
  · intro hlen
    exact ((List.subperm_of_subset hq h).perm_of_length_le hlen.ge).symm.subset

variable [DecidableEq α]

/-- No firing order meets a blocked set: the first node of the set to fire would have received its
    tokens from outside. -/
theorem Firing.not_blocked {q nodes : List α} {U : α → Bool} (h : Firing need give q)
    (hq : q ⊆ nodes) (hU : Blocked need give nodes U) : ∀ k ∈ q, U k = false := by
  induction h with
  | nil => simp
  | @snoc q k hf hk hneed ih =>
      have hpre : q ⊆ nodes := fun i hi => hq (List.mem_append_left _ hi)
      have hout := ih hpre
      have hkn : k ∈ nodes := hq (List.mem_append_right _ (List.mem_singleton_self k))
      have hkU : U k = false := by
        by_contra hc
        have hshort := hU.short k hkn (by simpa using hc)
        have hsub : q ⊆ nodes.filter fun i => !U i := fun i hi =>
          List.mem_filter.mpr ⟨hpre hi, by simp [hout i hi]⟩
        have := received_le give hf.nodup hsub k
        omega
      intro i hi
      rcases List.mem_append.mp hi with hi | hi
      · exact hout i hi
      · rw [List.mem_singleton.mp hi]
        exact hkU

/-- What a firing order that cannot be continued leaves out is blocked. -/
theorem blocked_of_stuck {q nodes : List α} (hnodes : nodes.Nodup)
    (hstuck : ∀ k ∈ nodes, k ∉ q → received give q k < need k) (hleft : ∃ k ∈ nodes, k ∉ q) :
    Blocked need give nodes fun k => decide (k ∉ q) := by
  refine ⟨?_, fun k hk hkq => ?_⟩
  · obtain ⟨k, hk, hkq⟩ := hleft
    exact ⟨k, hk, by simpa using hkq⟩
  · have hsub : (nodes.filter fun i => !decide (i ∉ q)) ⊆ q := fun i hi => by
      have := (List.mem_filter.mp hi).2
      simpa using this
    have := received_le give (hnodes.filter fun i => !decide (i ∉ q)) hsub k
    have := hstuck k hk (by simpa using hkq)
    omega

/-- **A stuck firing order lists every node exactly when nothing is blocked.** -/
theorem Firing.fires_all_iff {q nodes : List α} (h : Firing need give q) (hq : q ⊆ nodes)
    (hnodes : nodes.Nodup) (hstuck : ∀ k ∈ nodes, k ∉ q → received give q k < need k) :
    nodes ⊆ q ↔ ¬ ∃ U, Blocked need give nodes U := by
  constructor
  · rintro hall ⟨U, hU⟩
    obtain ⟨k, hk, hkU⟩ := hU.inhabited
    have := h.not_blocked hq hU k (hall hk)
    rw [hkU] at this
    cases this
  · intro hnone k hk
    by_contra hkq
    exact hnone ⟨_, blocked_of_stuck hnodes hstuck ⟨k, hk, hkq⟩⟩

end Firing

/-! ## 2. The program: one counter and one queue -/

/-- A counter for each node `0, 1, ..`, the queue of all nodes ever queued, and the position of the
    next one to take. -/
structure Worklist where
  degree : List Int
  queue : List Nat
  head : Nat
  deriving DecidableEq, Repr

/-- One token for node `j`: its counter goes down, and at zero it is queued. -/
def Worklist.hit (w : Worklist) (j : Nat) : Worklist :=
  let d := w.degree.getD j 0 - 1
  { w with
    degree := w.degree.set j d
    queue := if d = 0 then w.queue ++ [j] else w.queue }

/-- Take nodes from the queue while there are any; each hands one token to every target. -/
def drain (targets : Nat → List Nat) : Nat → Worklist → Option Worklist
  | 0, _ => none
  | fuel + 1, w =>
    match w.queue[w.head]? with
    | none => some w
    | some cur => drain targets fuel ((targets cur).foldl Worklist.hit { w with head := w.head + 1 })

/-- The bookkeeping between two tokens, when node `k` has been handed `paid k` of them. -/
structure Paid (need : Nat → Nat) (give : Nat → Nat → Nat) (n : Nat) (paid : Nat → Nat)
    (w : Worklist) : Prop where
  size : w.degree.length = n
  firing : Firing need give w.queue
  bound : ∀ k ∈ w.queue, k < n
  queued : ∀ k < n, k ∈ w.queue ↔ w.degree.getD k 0 ≤ 0
  owed : ∀ k < n, w.degree.getD k 0 = (need k : Int) - paid k

section Drain

variable {need : Nat → Nat} {give : Nat → Nat → Nat} {n : Nat} {paid : Nat → Nat} {w : Worklist}

theorem Paid.congr {paid' : Nat → Nat} (h : Paid need give n paid w)
    (hp : ∀ k < n, paid' k = paid k) : Paid need give n paid' w :=
  { h with owed := fun k hk => by rw [hp k hk]; exact h.owed k hk }

theorem Paid.length_queue_le (h : Paid need give n paid w) : w.queue.length ≤ n := by
  have hsub : w.queue ⊆ List.range n := fun k hk => List.mem_range.mpr (h.bound k hk)
  have := (List.subperm_of_subset h.firing.nodup hsub).length_le
  rwa [List.length_range] at this

theorem hit_head (w : Worklist) (j : Nat) : (w.hit j).head = w.head := rfl

theorem hit_queue (w : Worklist) (j : Nat) : w.queue <+: (w.hit j).queue := by
  unfold Worklist.hit
  dsimp only
  split
  · exact List.prefix_append _ _
  · exact List.prefix_refl _

theorem degree_hit (w : Worklist) {j k : Nat} (hj : j < w.degree.length) :
    (w.hit j).degree.getD k 0 = w.degree.getD k 0 - if k = j then 1 else 0 := by
  unfold Worklist.hit
  by_cases hk : k = j
  · subst hk
    simp [List.getD_eq_getElem?_getD, hj]
  · simp [List.getD_eq_getElem?_getD, List.getElem?_set_ne (Ne.symm hk), hk]

/-- One token keeps the books, if the nodes in the queue cover it. -/
theorem Paid.hit (h : Paid need give n paid w) {j : Nat} (hj : j < n)
    (hcover : paid j + 1 ≤ received give w.queue j) :
    Paid need give n (fun k => paid k + if k = j then 1 else 0) (w.hit j) := by
  have hlen : j < w.degree.length := h.size.symm ▸ hj
  have howed := h.owed j hj
  refine ⟨?_, ?_, ?_, fun k hk => ?_, fun k hk => ?_⟩
  · simpa [Worklist.hit] using h.size
  · unfold Worklist.hit
    dsimp only
    split
    · rename_i hz
      -- the counter was one, so `j` is not queued yet, and the tokens it got cover its need
      refine h.firing.snoc (fun hmem => ?_) (by omega)
      have := (h.queued j hj).mp hmem
      omega
    · exact h.firing
  · unfold Worklist.hit
    dsimp only
    split
    · intro k hk
      rcases List.mem_append.mp hk with hk | hk
      · exact h.bound k hk
      · rw [List.mem_singleton.mp hk]
        exact hj
    · exact h.bound
  · rw [degree_hit w hlen]
    have hq := h.queued k hk
    by_cases hkj : k = j
    · subst hkj
      unfold Worklist.hit
      dsimp only
      split
      · rename_i hz
        simp only [List.mem_append, List.mem_singleton, or_true, if_true, true_iff]
        omega
      · rename_i hz
        rw [hq, if_pos rfl]
        omega
    · have hmem : k ∈ (w.hit j).queue ↔ k ∈ w.queue := by
        unfold Worklist.hit
        dsimp only
        split
        · simp [hkj]
        · rfl
      rw [hmem, hq, if_neg hkj]
      omega
  · rw [degree_hit w hlen, h.owed k hk]
    split <;> omega

theorem hits_head : ∀ (js : List Nat) (w : Worklist), (js.foldl Worklist.hit w).head = w.head
  | [], _ => rfl
  | j :: js, w => (hits_head js (w.hit j)).trans (hit_head w j)

theorem hits_queue : ∀ (js : List Nat) (w : Worklist),
    w.queue <+: (js.foldl Worklist.hit w).queue
  | [], _ => List.prefix_refl _
  | j :: js, w => (hit_queue w j).trans (hits_queue js (w.hit j))

variable (give) in
theorem received_prefix {q r : List Nat} (h : q <+: r) (k : Nat) :
    received give q k ≤ received give r k := by
  obtain ⟨t, rfl⟩ := h
  rw [received_append]
  exact Nat.le_add_right _ _

/-- A row of tokens keeps the books. -/
theorem Paid.hits : ∀ (js : List Nat) {paid : Nat → Nat} {w : Worklist},
    Paid need give n paid w → (∀ j ∈ js, j < n) →
    (∀ k < n, paid k + js.count k ≤ received give w.queue k) →
    Paid need give n (fun k => paid k + js.count k) (js.foldl Worklist.hit w)
  | [], _, _, h, _, _ => h.congr fun k _ => by simp
  | j :: js, paid, w, h, hjs, hcover => by
      have hj : j < n := hjs j List.mem_cons_self
      have hfirst : paid j + 1 ≤ received give w.queue j := by
        have := hcover j hj
        rw [List.count_cons_self] at this
        omega
      have hsplit : ∀ k, (j :: js).count k = (if k = j then 1 else 0) + js.count k := fun k => by
        rw [List.count_cons, Nat.add_comm]
        by_cases hk : k = j
        · simp [hk]
        · simp [hk, Ne.symm hk]
      refine (Paid.hits js (h.hit hj hfirst) (fun i hi => hjs i (List.mem_cons_of_mem _ hi))
        fun k hk => ?_).congr fun k _ => ?_
      · have hgrow := received_prefix give (hit_queue w j) k
        have hcov := hcover k hk
        rw [hsplit] at hcov
        omega
      · rw [hsplit]
        omega

/-- **The program ends, and in a firing order that cannot be continued.** From books in which the
    nodes already taken have handed over their tokens, with fuel for each node that can still be
    queued. -/
theorem drain_spec {targets : Nat → List Nat} (hgive : ∀ i k, k < n → give i k = (targets i).count k)
    (htargets : ∀ i, ∀ j ∈ targets i, j < n) : ∀ (fuel : Nat) (w : Worklist),
    w.head ≤ w.queue.length → n < w.head + fuel →
    Paid need give n (received give (w.queue.take w.head)) w →
    ∃ w', drain targets fuel w = some w' ∧ Firing need give w'.queue ∧ (∀ k ∈ w'.queue, k < n) ∧
      w'.head = w'.queue.length ∧ ∀ k < n, k ∉ w'.queue → received give w'.queue k < need k
  | 0, w, hhead, hfuel, h => by
      have := h.length_queue_le
      omega
  | fuel + 1, w, hhead, hfuel, h => by
      unfold drain
      cases hcur : w.queue[w.head]? with
      | none =>
          have hend : w.queue.length ≤ w.head := List.getElem?_eq_none_iff.mp hcur
          refine ⟨w, rfl, h.firing, h.bound, by omega, fun k hk hkq => ?_⟩
          have howed := h.owed k hk
          have hpos := mt (h.queued k hk).mpr hkq
          rw [List.take_of_length_le hend] at howed
          omega
      | some cur =>
          -- the tokens of `cur` complete what the first `head + 1` nodes of the queue hand over
          obtain ⟨hlt, hget⟩ := List.getElem?_eq_some_iff.mp hcur
          have htake : w.queue.take (w.head + 1) = w.queue.take w.head ++ [cur] := by
            rw [List.take_add_one, hcur]
            rfl
          have hpaid : ∀ k < n, received give (w.queue.take w.head) k + (targets cur).count k =
              received give (w.queue.take (w.head + 1)) k := fun k hk => by
            rw [htake, received_append, received_singleton, hgive cur k hk]
          have hnext := Paid.hits (targets cur) (w := { w with head := w.head + 1 })
            ⟨h.size, h.firing, h.bound, h.queued, h.owed⟩ (htargets cur) fun k hk => by
              rw [hpaid k hk]
              exact received_prefix give (List.take_prefix _ _) k
          obtain ⟨t, ht⟩ := hits_queue (targets cur) { w with head := w.head + 1 }
          have hheadN := hits_head (targets cur) { w with head := w.head + 1 }
          have hle : w.head + 1 ≤ w.queue.length := hlt
          refine drain_spec hgive htargets fuel _ ?_ (by rw [hheadN]; dsimp only; omega)
            (hnext.congr fun k hk => ?_)
          · rw [hheadN, ← ht, List.length_append]
            dsimp only
            omega
          · rw [hheadN, ← ht, List.take_append_of_le_length hle]
            exact (hpaid k hk).symm

end Drain

/-! ## 3. Relations without cycles -/

/-- Nothing is reachable from itself. -/
def Acyclic {α : Type} (R : α → α → Prop) : Prop :=
  ∀ a, ¬ Relation.TransGen R a a

/-- A relation along which a number grows has no cycle. -/
theorem Acyclic.of_rank {α : Type} {R : α → α → Prop} (rank : α → Nat)
    (h : ∀ a b, R a b → rank a < rank b) : Acyclic R := by
  have hgrows : ∀ {a b}, Relation.TransGen R a b → rank a < rank b := by
    intro a b hab
    induction hab with
    | single hR => exact h _ _ hR
    | tail _ hR ih => exact Nat.lt_trans ih (h _ _ hR)
  exact fun a hcycle => Nat.lt_irrefl _ (hgrows hcycle)

theorem Acyclic.comap {α β : Type} {R : β → β → Prop} (h : Acyclic R) (f : α → β) :
    Acyclic fun a b => R (f a) (f b) :=
  fun a hcycle => h (f a) (hcycle.lift f fun _ _ hR => hR)

theorem Acyclic.exists_minimal {α : Type} {R : α → α → Prop} (h : Acyclic R) {l : List α}
    (hl : l ≠ []) : ∃ a ∈ l, ∀ b ∈ l, ¬ R b a := by
  have : IsStrictOrder α (Relation.TransGen R) :=
    { irrefl := h, trans := fun _ _ _ => Relation.TransGen.trans }
  have hwf : {a | a ∈ l}.WellFoundedOn (Relation.TransGen R) := l.finite_toSet.wellFoundedOn
  obtain ⟨a, ha⟩ := List.exists_mem_of_ne_nil l hl
  obtain ⟨m, -, hm⟩ := hwf.has_min Set.univ ⟨⟨a, ha⟩, trivial⟩
  exact ⟨m.1, m.2, fun b hb hR => hm ⟨b, hb⟩ trivial (Relation.TransGen.single hR)⟩

end VoidOsMerger
