/-
  File:      VoidOsMerger/Planner/Kahn.lean
  Subject:   WHAT THE TOPOLOGY CHECK COMPUTES, on any plan: repeated ids, dangling edges, self-loops.

  * `inDegrees_getD` -- the counting loop leaves the number of edges into each slot;
  * `relaxEdges_eq_hits` -- taking a slot hands one token to each of its `targets`;
  * `processLoop_eq_drain` -- the `while` loop is the worklist program of `Base.Worklist`;
    `check_drains` -- the queue it ends with;
  * **`verify_iff_unblocked`** -- the check returns, and it accepts exactly when no set of slots is
    blocked: a slot is blocked when more edges lead into it than slots outside the set can take off.
-/
import VoidOsMerger.Planner.Model

namespace VoidOsMerger

variable {F : Type} (ids : List UInt64) (edges : List DependencyEdge)

/-! ## 1. Edges between slots -/

/-- The edges into slot `k`: its in-degree after the counting loop. -/
def edgesInto (k : Nat) : Nat :=
  edges.countP fun e => ids[k]? = some e.dstChunkId

/-- The edges from the id of slot `i` to slot `k`: what taking `i` takes off the in-degree of `k`.
    Slots that share an id share these edges. -/
def edgesBetween (i k : Nat) : Nat :=
  edges.countP fun e => ids[i]? = some e.srcChunkId ∧ ids[k]? = some e.dstChunkId

/-- The slots that carry an id. -/
def slotsOf (id : UInt64) : List Nat :=
  (List.range ids.length).filter fun j => ids[j]? = some id

/-- The slots whose in-degree goes down for edge `e` when slot `i` is taken. -/
def edgeTargets (i : Nat) (e : DependencyEdge) : List Nat :=
  if ids[i]? = some e.srcChunkId then slotsOf ids e.dstChunkId else []

/-- The slots whose in-degree goes down when slot `i` is taken, in the order of the loops. -/
def targets (i : Nat) : List Nat :=
  edges.flatMap (edgeTargets ids i)

theorem mem_targets {i j : Nat} (h : j ∈ targets ids edges i) : j < ids.length := by
  obtain ⟨e, _, hj⟩ := List.mem_flatMap.mp h
  unfold edgeTargets at hj
  split at hj
  · exact List.mem_range.mp (List.mem_of_mem_filter hj)
  · cases hj

theorem count_slotsOf (id : UInt64) {k : Nat} (hk : k < ids.length) :
    (slotsOf ids id).count k = if ids[k]? = some id then 1 else 0 := by
  unfold slotsOf
  split
  · rename_i hid
    rw [List.count_filter (by simpa using hid)]
    exact List.count_eq_one_of_mem List.nodup_range (List.mem_range.mpr hk)
  · rename_i hid
    exact List.count_eq_zero.mpr fun hm => hid (by simpa using (List.mem_filter.mp hm).2)

theorem count_targets (i : Nat) {k : Nat} (hk : k < ids.length) :
    edgesBetween ids edges i k = (targets ids edges i).count k := by
  unfold edgesBetween targets
  induction edges with
  | nil => rfl
  | cons e es ih =>
      rw [List.countP_cons, ih, List.flatMap_cons, List.count_append, Nat.add_comm]
      congr 1
      unfold edgeTargets
      by_cases hs : ids[i]? = some e.srcChunkId
      · rw [if_pos hs, count_slotsOf ids _ hk]
        simp only [hs, true_and, decide_eq_true_eq]
      · rw [if_neg hs]
        simp only [hs, false_and, decide_false, Bool.false_eq_true, if_false, List.count_nil]

/-! ## 2. The loops -/

theorem length_countEdge {inDegree : List Int} (h : inDegree.length = ids.length)
    (e : DependencyEdge) : (countEdge ids inDegree e).length = ids.length := by
  simp [countEdge, h]

theorem countEdge_getD {inDegree : List Int} (h : inDegree.length = ids.length)
    (e : DependencyEdge) {k : Nat} (hk : k < ids.length) :
    (countEdge ids inDegree e).getD k 0 =
      inDegree.getD k 0 + if ids[k]? = some e.dstChunkId then 1 else 0 := by
  have hk' : k < inDegree.length := h.symm ▸ hk
  simp only [countEdge, List.getD_eq_getElem?_getD, List.getElem?_zipWith,
    List.getElem?_eq_getElem hk, List.getElem?_eq_getElem hk', Option.getD_some, Option.some.injEq]
  split <;> simp

/-- The counting loop, from any counts. -/
theorem countEdges_spec : ∀ (es : List DependencyEdge) {inDegree : List Int},
    inDegree.length = ids.length →
    (es.foldl (countEdge ids) inDegree).length = ids.length ∧
    ∀ k < ids.length, (es.foldl (countEdge ids) inDegree).getD k 0 =
      inDegree.getD k 0 + edgesInto ids es k
  | [], _, h => ⟨h, fun k _ => by simp [edgesInto]⟩
  | e :: es, inDegree, h => by
      obtain ⟨hlen, hget⟩ := countEdges_spec es (length_countEdge ids h e)
      refine ⟨hlen, fun k hk => ?_⟩
      rw [List.foldl_cons, hget k hk, countEdge_getD ids h e hk]
      simp only [edgesInto, List.countP_cons, decide_eq_true_eq]
      split <;> push_cast <;> omega

theorem length_inDegrees : (inDegrees ids edges).length = ids.length :=
  (countEdges_spec ids edges List.length_replicate).1

/-- **The counting loop counts the edges into each slot.** -/
theorem inDegrees_getD {k : Nat} (hk : k < ids.length) :
    (inDegrees ids edges).getD k 0 = edgesInto ids edges k := by
  rw [inDegrees, (countEdges_spec ids edges List.length_replicate).2 k hk]
  simp [List.getD_eq_getElem?_getD, hk]

theorem relaxSlots_eq_hits (id : UInt64) : ∀ (js : List Nat) (w : Worklist),
    js.foldl (fun w j => if ids[j]? = some id then w.hit j else w) w =
      (js.filter fun j => ids[j]? = some id).foldl Worklist.hit w
  | [], _ => rfl
  | j :: js, w => by
      by_cases hj : ids[j]? = some id
      · rw [List.foldl_cons, if_pos hj, List.filter_cons_of_pos (by simpa using hj),
          List.foldl_cons]
        exact relaxSlots_eq_hits id js (w.hit j)
      · rw [List.foldl_cons, if_neg hj, List.filter_cons_of_neg (by simpa using hj)]
        exact relaxSlots_eq_hits id js w

theorem relaxEdge_eq_hits (current : Nat) (w : Worklist) (e : DependencyEdge) :
    relaxEdge ids current w e = (edgeTargets ids current e).foldl Worklist.hit w := by
  unfold relaxEdge edgeTargets
  split
  · exact relaxSlots_eq_hits ids e.dstChunkId _ w
  · rfl

/-- The loop over the edges of the current slot is one token for each of its targets. -/
theorem relaxEdges_eq_hits (current : Nat) (w : Worklist) :
    edges.foldl (relaxEdge ids current) w = (targets ids edges current).foldl Worklist.hit w := by
  rw [targets, List.foldl_flatMap]
  congr 1
  funext w e
  exact relaxEdge_eq_hits ids current w e

/-- **The `while` loop is the worklist program**, with `processed_nodes_count` equal to `head`. -/
theorem processLoop_eq_drain : ∀ (fuel : Nat) (w : Worklist),
    processLoop ids edges fuel w w.head = (drain (targets ids edges) fuel w).map (·.head)
  | 0, _ => rfl
  | fuel + 1, w => by
      unfold processLoop drain
      cases w.queue[w.head]? with
      | none => rfl
      | some current =>
          dsimp only
          rw [relaxEdges_eq_hits, ← processLoop_eq_drain fuel, hits_head]

/-- The books before the `while` loop: the slots without incoming edges are queued. -/
theorem startQueue_paid : Paid (edgesInto ids edges) (edgesBetween ids edges) ids.length
    (fun _ => 0) (startQueue ids edges) := by
  have hmem : ∀ k, k ∈ (startQueue ids edges).queue ↔
      k < ids.length ∧ (inDegrees ids edges).getD k 0 = 0 := fun k => by
    simp [startQueue]
  have hfree : ∀ k ∈ (startQueue ids edges).queue, edgesInto ids edges k = 0 := fun k hk => by
    obtain ⟨hlt, hzero⟩ := (hmem k).mp hk
    rw [inDegrees_getD ids edges hlt] at hzero
    omega
  refine ⟨length_inDegrees ids edges, firing_of_free (List.nodup_range.filter _) hfree,
    fun k hk => ((hmem k).mp hk).1, fun k hk => ?_, fun k hk => ?_⟩
  · rw [hmem]
    show _ ↔ (inDegrees ids edges).getD k 0 ≤ 0
    rw [inDegrees_getD ids edges hk]
    omega
  · show (inDegrees ids edges).getD k 0 = _
    rw [inDegrees_getD ids edges hk]
    omega

/-! ## 3. The verdict -/

/-- A set of slots that no order of the others frees: each slot of the set has more edges into it
    than the slots outside the set take off, slot by slot and edge by edge. -/
def ExecutionPlan.BlockedSlots (plan : ExecutionPlan F) (U : Nat → Bool) : Prop :=
  Blocked (edgesInto plan.ids plan.edges) (edgesBetween plan.ids plan.edges)
    (List.range plan.chunks.length) U

/-- The queue at the end of the `while` loop: a firing order of slots that cannot be continued. -/
theorem check_drains (plan : ExecutionPlan F) : ∃ w : Worklist,
    drain (targets plan.ids plan.edges) (plan.chunks.length + 1) (startQueue plan.ids plan.edges) =
        some w ∧
      Firing (edgesInto plan.ids plan.edges) (edgesBetween plan.ids plan.edges) w.queue ∧
      (∀ k ∈ w.queue, k < plan.chunks.length) ∧ w.head = w.queue.length ∧
      ∀ k < plan.chunks.length, k ∉ w.queue →
        received (edgesBetween plan.ids plan.edges) w.queue k < edgesInto plan.ids plan.edges k := by
  have hlen : plan.ids.length = plan.chunks.length := List.length_map _
  rw [← hlen]
  exact drain_spec (fun i k hk => count_targets plan.ids plan.edges i hk)
    (fun i j hj => mem_targets plan.ids plan.edges hj) (plan.ids.length + 1)
    (startQueue plan.ids plan.edges) (Nat.zero_le _) (by show _ < 0 + _; omega)
    (startQueue_paid plan.ids plan.edges)

/-- The answer of the check is read off the queue at the end. -/
theorem verify_eq_of_drain {plan : ExecutionPlan F} {w : Worklist}
    (hguard : (!plan.isValid || plan.chunks.length == 0) = false)
    (hw : drain (targets plan.ids plan.edges) (plan.chunks.length + 1)
      (startQueue plan.ids plan.edges) = some w) :
    verifyPlanTopologyIsDag plan = some (w.head == plan.chunks.length) := by
  unfold verifyPlanTopologyIsDag
  rw [hguard, if_neg Bool.false_ne_true]
  show Option.map _ (processLoop plan.ids plan.edges _ _ (startQueue plan.ids plan.edges).head) = _
  rw [processLoop_eq_drain, hw, Option.map_some, Option.map_some]

/-- **The check returns, and it accepts a valid plan exactly when no slots are blocked.** -/
theorem verify_iff_unblocked (plan : ExecutionPlan F) (hvalid : plan.isValid = true)
    (hne : plan.chunks ≠ []) : ∃ accepted, verifyPlanTopologyIsDag plan = some accepted ∧
      (accepted = true ↔ ¬ ∃ U, plan.BlockedSlots U) := by
  obtain ⟨w, hw, hfiring, hbound, hhead, hstuck⟩ := check_drains plan
  have hsub : w.queue ⊆ List.range plan.chunks.length := fun k hk => List.mem_range.mpr (hbound k hk)
  refine ⟨_, verify_eq_of_drain (by simp [hvalid, hne]) hw, ?_⟩
  calc (w.head == plan.chunks.length) = true
    _ ↔ w.queue.length = (List.range plan.chunks.length).length := by
        rw [beq_iff_eq, List.length_range, hhead]
    _ ↔ List.range plan.chunks.length ⊆ w.queue :=
        (subset_iff_length_eq hfiring.nodup List.nodup_range hsub).symm
    _ ↔ ¬ ∃ U, plan.BlockedSlots U :=
        hfiring.fires_all_iff hsub List.nodup_range fun k hk hkq => hstuck k (List.mem_range.mp hk) hkq

end VoidOsMerger
