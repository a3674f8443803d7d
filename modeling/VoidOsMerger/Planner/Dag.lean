/-
  File:      VoidOsMerger/Planner/Dag.lean
  Subject:   WHAT AN ACCEPTED PLAN IS.

  * **`verify_iff_dag`** -- on distinct chunk ids the check is exact: it accepts a valid plan when
    every edge into the plan starts in the plan and the edges have no cycle, and no other;
  * **`verify_hides_cycle`** -- on repeated ids it is not: each slot of a repeated id takes its own
    token off a successor, and the surplus pays for an edge that closes a cycle;
  * **`verify_sound_iff`** -- which plans the check is sound for.
-/
import VoidOsMerger.Planner.Kahn
import Mathlib.Data.Rat.Defs

namespace VoidOsMerger

variable {F : Type}

/-! ## 1. The dependency graph of a plan -/

/-- An edge between two ids of the plan. -/
def ExecutionPlan.PlanEdge (plan : ExecutionPlan F) (a b : UInt64) : Prop :=
  a ∈ plan.ids ∧ b ∈ plan.ids ∧ ⟨a, b⟩ ∈ plan.edges

/-- Every edge that leads to a chunk of the plan starts at a chunk of the plan. -/
def ExecutionPlan.SourcesPresent (plan : ExecutionPlan F) : Prop :=
  ∀ e ∈ plan.edges, e.dstChunkId ∈ plan.ids → e.srcChunkId ∈ plan.ids

/-! ## 2. Tokens, edge by edge -/

section Tokens

variable (ids : List UInt64) (edges : List DependencyEdge)

theorem edgesInto_eq_sum (k : Nat) : edgesInto ids edges k =
    (edges.map fun e => if ids[k]? = some e.dstChunkId then 1 else 0).sum := by
  unfold edgesInto
  induction edges with
  | nil => rfl
  | cons e es ih =>
      rw [List.countP_cons, ih, List.map_cons, List.sum_cons, Nat.add_comm]
      simp only [decide_eq_true_eq]

/-- What the slots of `q` take off slot `k`: for each edge into it, one for every slot of `q` that
    carries the source. -/
theorem received_eq_sum (q : List Nat) (k : Nat) : received (edgesBetween ids edges) q k =
    (edges.map fun e => if ids[k]? = some e.dstChunkId
      then q.countP fun i => ids[i]? = some e.srcChunkId else 0).sum := by
  unfold received edgesBetween
  induction q with
  | nil => simp
  | cons i q ih =>
      rw [List.map_cons, List.sum_cons, ih]
      clear ih
      induction edges with
      | nil => rfl
      | cons e es ih =>
          simp only [List.countP_cons, List.map_cons, List.sum_cons, decide_eq_true_eq] at ih ⊢
          by_cases hd : ids[k]? = some e.dstChunkId
          · by_cases hs : ids[i]? = some e.srcChunkId
            · simp only [hs, hd, and_self, if_true] at ih ⊢
              omega
            · simp only [hs, hd, false_and, if_false, if_true] at ih ⊢
              omega
          · simp only [hd, and_false, if_false] at ih ⊢
            omega

/-- Slots that carry the source of every edge into `k` free it. -/
theorem edgesInto_le_received {q : List Nat} {k : Nat}
    (h : ∀ e ∈ edges, ids[k]? = some e.dstChunkId → ∃ i ∈ q, ids[i]? = some e.srcChunkId) :
    edgesInto ids edges k ≤ received (edgesBetween ids edges) q k := by
  rw [edgesInto_eq_sum, received_eq_sum]
  refine List.sum_le_sum fun e he => ?_
  by_cases hd : ids[k]? = some e.dstChunkId
  · obtain ⟨i, hi, hs⟩ := h e he hd
    rw [if_pos hd, if_pos hd]
    exact List.countP_pos_iff.mpr ⟨i, hi, by simpa using hs⟩
  · rw [if_neg hd, if_neg hd]

/-- Distinct ids: at most one slot carries an id. -/
theorem countP_slots_le_one {q : List Nat} (hids : ids.Nodup) (hq : q.Nodup) (id : UInt64) :
    (q.countP fun i => ids[i]? = some id) ≤ 1 := by
  rw [List.countP_eq_length_filter]
  have hcarry : ∀ i ∈ q.filter (fun i => ids[i]? = some id), ids[i]? = some id := fun i hi => by
    simpa using (List.mem_filter.mp hi).2
  have hnodup := hq.filter fun i => decide (ids[i]? = some id)
  match hl : q.filter fun i => decide (ids[i]? = some id) with
  | [] => exact Nat.zero_le 1
  | [_] => exact Nat.le_refl 1
  | i :: j :: rest =>
      rw [hl] at hcarry hnodup
      have hi := hcarry i List.mem_cons_self
      have hj := hcarry j (List.mem_cons_of_mem _ List.mem_cons_self)
      have hlt : i < ids.length := (List.getElem?_eq_some_iff.mp hi).1
      have hij : i = j := (List.getElem?_inj hlt hids).mp (hi.trans hj.symm)
      exact absurd (hij ▸ List.mem_cons_self) (List.nodup_cons.mp hnodup).1

/-- Distinct ids: each edge is taken off at most once, so an edge whose source no slot of `q`
    carries keeps slot `k` short. -/
theorem received_lt_edgesInto {q : List Nat} {k : Nat} {e : DependencyEdge} (hids : ids.Nodup)
    (hq : q.Nodup) (he : e ∈ edges) (hd : ids[k]? = some e.dstChunkId)
    (hs : ∀ i ∈ q, ids[i]? ≠ some e.srcChunkId) :
    received (edgesBetween ids edges) q k < edgesInto ids edges k := by
  rw [edgesInto_eq_sum, received_eq_sum]
  refine List.sum_lt_sum _ _ (fun e _ => ?_) ⟨e, he, ?_⟩
  · split
    · exact countP_slots_le_one ids hids hq e.srcChunkId
    · exact Nat.le_refl 0
  · rw [if_pos hd, if_pos hd, Nat.lt_one_iff]
    exact List.countP_eq_zero.mpr fun i hi => by simpa using hs i hi

end Tokens

/-! ## 3. Distinct ids: the check is exact -/

theorem ExecutionPlan.length_ids (plan : ExecutionPlan F) :
    plan.ids.length = plan.chunks.length :=
  List.length_map _

/-- The slot of an id. -/
theorem ExecutionPlan.exists_slot {plan : ExecutionPlan F} {id : UInt64} (h : id ∈ plan.ids) :
    ∃ k < plan.chunks.length, plan.ids[k]? = some id := by
  obtain ⟨k, hk, hget⟩ := List.mem_iff_getElem.mp h
  exact ⟨k, plan.length_ids ▸ hk, List.getElem?_eq_some_iff.mpr ⟨hk, hget⟩⟩

/-- Ids that each have an edge from outside the plan or from one another are blocked. -/
theorem ExecutionPlan.blocked_of_ids {plan : ExecutionPlan F} (hids : plan.ids.Nodup)
    (V : UInt64 → Bool) {a : UInt64} (ha : a ∈ plan.ids) (hV : V a = true)
    (hedge : ∀ b ∈ plan.ids, V b = true → ∃ e ∈ plan.edges, e.dstChunkId = b ∧
      (e.srcChunkId ∈ plan.ids → V e.srcChunkId = true)) : ∃ U, plan.BlockedSlots U := by
  refine ⟨fun k => (plan.ids[k]?).any V, ?_, fun k hk hU => ?_⟩
  · obtain ⟨k, hk, hget⟩ := ExecutionPlan.exists_slot ha
    exact ⟨k, List.mem_range.mpr hk, by simp [hget, hV]⟩
  · have hk' : k < plan.ids.length := plan.length_ids ▸ List.mem_range.mp hk
    have hget := List.getElem?_eq_getElem hk'
    rw [hget, Option.any_some] at hU
    obtain ⟨e, he, hdst, hsrc⟩ := hedge _ (List.getElem_mem hk') hU
    refine received_lt_edgesInto plan.ids plan.edges hids (List.nodup_range.filter _) he
      (hget.trans (congrArg some hdst.symm)) fun i hi hs => ?_
    -- a slot outside the set that carried the source would put the source in the set
    have hout := (List.mem_filter.mp hi).2
    rw [hs, Option.any_some, hsrc (List.mem_of_getElem? hs)] at hout
    cases hout

/-- Distinct ids: nothing is blocked exactly when the sources are present and there is no cycle. -/
theorem ExecutionPlan.unblocked_iff_dag {plan : ExecutionPlan F} (hids : plan.ids.Nodup) :
    (¬ ∃ U, plan.BlockedSlots U) ↔ plan.SourcesPresent ∧ Acyclic plan.PlanEdge := by
  constructor
  · intro hfree
    refine ⟨fun e he hdst => ?_, fun a hcycle => hfree ?_⟩
    · by_contra hsrc
      refine hfree (ExecutionPlan.blocked_of_ids hids (fun b => b == e.dstChunkId) hdst (by simp)
        fun b _ hb => ⟨e, he, (by simpa using hb : b = e.dstChunkId).symm, fun h => absurd h hsrc⟩)
    · classical
      -- the ids on a cycle: each has its predecessor on the cycle among them
      have hmem : ∀ {x y : UInt64}, Relation.TransGen plan.PlanEdge x y → y ∈ plan.ids := by
        intro x y hxy
        obtain ⟨z, _, hzy⟩ := Relation.TransGen.tail'_iff.mp hxy
        exact hzy.2.1
      refine ExecutionPlan.blocked_of_ids hids
        (fun b => decide (Relation.TransGen plan.PlanEdge b b)) (hmem hcycle) (by simpa using hcycle)
        fun b _ hb => ?_
      obtain ⟨z, hbz, hzb⟩ := Relation.TransGen.tail'_iff.mp (by simpa using hb)
      refine ⟨⟨z, b⟩, hzb.2.2, rfl, fun _ => ?_⟩
      simpa using Relation.TransGen.head' hzb hbz
  · rintro ⟨hsrc, hacyclic⟩ ⟨U, hU⟩
    -- a minimal slot of the set: all its sources are carried outside
    obtain ⟨k₀, hk₀, hU₀⟩ := hU.inhabited
    have hne : (List.range plan.chunks.length).filter U ≠ [] :=
      List.ne_nil_of_mem (List.mem_filter.mpr ⟨hk₀, hU₀⟩)
    obtain ⟨k, hk, hmin⟩ := (hacyclic.comap fun i => plan.ids.getD i 0).exists_minimal hne
    obtain ⟨hkn, hkU⟩ := List.mem_filter.mp hk
    refine Nat.not_le_of_lt (hU.short k hkn hkU) (edgesInto_le_received _ _ fun e he hdst => ?_)
    have hdstMem := List.mem_of_getElem? hdst
    obtain ⟨i, hi, hget⟩ := ExecutionPlan.exists_slot (hsrc e he hdstMem)
    refine ⟨i, List.mem_filter.mpr ⟨List.mem_range.mpr hi, ?_⟩, hget⟩
    cases hUi : U i with
    | false => rfl
    | true =>
        refine absurd ?_ (hmin i (List.mem_filter.mpr ⟨List.mem_range.mpr hi, hUi⟩))
        rw [List.getD_eq_getElem?_getD, List.getD_eq_getElem?_getD, hget, hdst]
        exact ⟨hsrc e he hdstMem, hdstMem, he⟩

/-- What an accepted plan with distinct ids is. -/
theorem dag_of_verify {plan : ExecutionPlan F} (hids : plan.ids.Nodup)
    (h : verifyPlanTopologyIsDag plan = some true) :
    plan.SourcesPresent ∧ Acyclic plan.PlanEdge := by
  have hguard : plan.isValid = true ∧ plan.chunks ≠ [] := by
    unfold verifyPlanTopologyIsDag at h
    split at h
    · cases h
    · rename_i hg
      simpa using hg
  obtain ⟨accepted, hv, hiff⟩ := verify_iff_unblocked plan hguard.1 hguard.2
  rw [h, Option.some.injEq] at hv
  exact (ExecutionPlan.unblocked_iff_dag hids).mp (hiff.mp hv.symm)

/-- And back: such a plan is accepted. -/
theorem verify_of_dag {plan : ExecutionPlan F} (hvalid : plan.isValid = true) (hne : plan.chunks ≠ [])
    (hids : plan.ids.Nodup) (hsources : plan.SourcesPresent) (hacyclic : Acyclic plan.PlanEdge) :
    verifyPlanTopologyIsDag plan = some true := by
  obtain ⟨accepted, hv, hiff⟩ := verify_iff_unblocked plan hvalid hne
  rw [hv, hiff.mpr ((ExecutionPlan.unblocked_iff_dag hids).mpr ⟨hsources, hacyclic⟩)]

/-- **On distinct ids the check is exact**: it returns, and it accepts a valid plan if and only if
    every edge into the plan starts in the plan and the plan's edges have no directed cycle. -/
theorem verify_iff_dag (plan : ExecutionPlan F) (hvalid : plan.isValid = true)
    (hne : plan.chunks ≠ []) (hids : (plan.chunks.map (·.chunkId)).Nodup) :
    ∃ accepted, verifyPlanTopologyIsDag plan = some accepted ∧
      (accepted = true ↔ plan.SourcesPresent ∧ Acyclic plan.PlanEdge) := by
  obtain ⟨accepted, hv, hiff⟩ := verify_iff_unblocked plan hvalid hne
  exact ⟨accepted, hv, hiff.trans (ExecutionPlan.unblocked_iff_dag hids)⟩

/-- A plan of three chunks, the second and the third each waiting for the one before. -/
def pipelinePlan : ExecutionPlan (Option ℚ) where
  chunks := [⟨1, 64, 2, 0, some 1⟩, ⟨2, 64, 2, 0, some 1⟩, ⟨3, 64, 2, 0, some 1⟩]
  chunksFit := by decide
  edges := [⟨1, 2⟩, ⟨2, 3⟩]
  edgesFit := by decide
  isValid := true

theorem verify_iff_dag_pipelinePlan : (pipelinePlan.isValid = true ∧ pipelinePlan.chunks ≠ [] ∧
      (pipelinePlan.chunks.map (·.chunkId)).Nodup) ∧
    ∃ accepted, verifyPlanTopologyIsDag pipelinePlan = some accepted ∧
      (accepted = true ↔ pipelinePlan.SourcesPresent ∧ Acyclic pipelinePlan.PlanEdge) :=
  ⟨⟨rfl, List.cons_ne_nil _ _, by decide⟩,
    verify_iff_dag pipelinePlan rfl (List.cons_ne_nil _ _) (by decide)⟩

/-! ## 4. Repeated ids: a cycle can hide -/

/-- Chunk `1` twice, chunk `2` once, and the edges `1 -> 2` and `2 -> 2`. -/
def forgedPlan : ExecutionPlan (Option ℚ) where
  chunks := [⟨1, 64, 2, 0, some 1⟩, ⟨1, 64, 2, 0, some 1⟩, ⟨2, 64, 2, 0, some 1⟩]
  chunksFit := by decide
  edges := [⟨1, 2⟩, ⟨2, 2⟩]
  edgesFit := by decide
  isValid := true

/-- **An accepted plan can hold a cycle**: the two slots of chunk `1` take off both edges into
    chunk `2`, the edge from itself included. -/
theorem verify_hides_cycle : ¬ ∀ plan : ExecutionPlan (Option ℚ), plan.isValid = true →
    plan.chunks ≠ [] → verifyPlanTopologyIsDag plan = some true → Acyclic plan.PlanEdge := by
  intro h
  have hedge : forgedPlan.PlanEdge 2 2 := ⟨by decide, by decide, by decide⟩
  exact h forgedPlan rfl (List.cons_ne_nil _ _) (by decide +kernel) 2 (Relation.TransGen.single hedge)

/-- **Which plans the check is sound for**: those without a cycle, and those in which some slots are
    blocked, that is in which every slot of some set has more edges into it than the slots outside
    take off, a repeated id counted once for each of its slots. -/
theorem verify_sound_iff (plan : ExecutionPlan F) (hvalid : plan.isValid = true)
    (hne : plan.chunks ≠ []) :
    (verifyPlanTopologyIsDag plan = some true → Acyclic plan.PlanEdge) ↔
      (Acyclic plan.PlanEdge ∨ ∃ U, plan.BlockedSlots U) := by
  obtain ⟨accepted, hv, hiff⟩ := verify_iff_unblocked plan hvalid hne
  have haccept : verifyPlanTopologyIsDag plan = some true ↔ ¬ ∃ U, plan.BlockedSlots U := by
    rw [hv, Option.some.injEq]
    exact hiff
  rw [haccept]
  constructor
  · intro h
    by_cases hU : ∃ U, plan.BlockedSlots U
    · exact Or.inr hU
    · exact Or.inl (h hU)
  · rintro (hacyclic | hU) hfree
    · exact hacyclic
    · exact absurd hU hfree

theorem verify_sound_iff_forgedPlan : (forgedPlan.isValid = true ∧ forgedPlan.chunks ≠ []) ∧
    ((verifyPlanTopologyIsDag forgedPlan = some true → Acyclic forgedPlan.PlanEdge) ↔
      (Acyclic forgedPlan.PlanEdge ∨ ∃ U, forgedPlan.BlockedSlots U)) :=
  ⟨⟨rfl, List.cons_ne_nil _ _⟩, verify_sound_iff forgedPlan rfl (List.cons_ne_nil _ _)⟩

end VoidOsMerger
