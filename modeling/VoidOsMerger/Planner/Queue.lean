/-
  File:      VoidOsMerger/Planner/Queue.lean
  Subject:   THE QUEUE OF THE TOPOLOGY CHECK STAYS INSIDE ITS ARRAY (master/src/chunk_planner.c).

  `processing_queue[tail++] = j` is made fallible here: a write at or beyond `cap` ends the check with
  `none`. The loops are those of `Planner/Model.lean` otherwise.

  * `foldlM_within` -- a loop whose queue ends within the bound never met it;
  * `process_within` -- the same for the `while` loop;
  * **`check_queue_bounded`** -- on every plan the check ends without a write at or beyond `chunk_count`,
    and no slot is queued twice.
-/
import VoidOsMerger.Planner.Kahn

namespace VoidOsMerger

/-! ## 1. Writes to the queue -/

section Within

variable (cap : Nat)

/-- `processing_queue[tail++] = j`, in an array of `cap` entries. -/
def Worklist.push (w : Worklist) (j : Nat) : Option Worklist :=
  if w.queue.length < cap then some { w with queue := w.queue ++ [j] } else none

/-- `in_degree[j]--`, and the write when this gives zero. -/
def Worklist.hitWithin (w : Worklist) (j : Nat) : Option Worklist :=
  let d := w.degree.getD j 0 - 1
  let w := { w with degree := w.degree.set j d }
  if d = 0 then w.push cap j else some w

variable (ids : List UInt64) (edges : List DependencyEdge)

/-- The loop that queues the slots without incoming edges. -/
def fillWithin : Option Worklist :=
  (List.range ids.length).foldlM
    (fun w i => if w.degree.getD i 0 = 0 then w.push cap i else some w)
    { degree := inDegrees ids edges, queue := [], head := 0 }

/-- `relaxEdge` with the bound. -/
def relaxEdgeWithin (current : Nat) (w : Worklist) (e : DependencyEdge) : Option Worklist :=
  if ids[current]? = some e.srcChunkId then
    (List.range ids.length).foldlM
      (fun w j => if ids[j]? = some e.dstChunkId then w.hitWithin cap j else some w) w
  else some w

/-- The `while` loop with the bound: the queue at its end, and `processed_nodes_count`. -/
def processWithin : Nat → Worklist → Nat → Option (Worklist × Nat)
  | 0, _, _ => none
  | fuel + 1, w, processedNodesCount =>
    match w.queue[w.head]? with
    | none => some (w, processedNodesCount)
    | some current =>
      (edges.foldlM (relaxEdgeWithin cap ids current) { w with head := w.head + 1 }).bind fun w =>
        processWithin fuel w (processedNodesCount + 1)

end Within

/-- `verify_plan_topology_is_dag` with the bound: its answer, and the entries it wrote to
    `processing_queue`, in order. -/
def verifyWithin {F : Type} (cap : Nat) (plan : ExecutionPlan F) : Option (Bool × List Nat) :=
  if !plan.isValid || plan.chunks.length == 0 then some (false, [])
  else
    (fillWithin cap plan.ids plan.edges).bind fun w =>
      (processWithin cap plan.ids plan.edges (plan.chunks.length + 1) w 0).map fun r =>
        (r.2 == plan.chunks.length, r.1.queue)

/-! ## 2. Loops that end within the bound -/

section Loops

variable {cap : Nat} {ids : List UInt64} {edges : List DependencyEdge}

theorem foldl_grows {α : Type} {f : Worklist → α → Worklist}
    (hgrow : ∀ w x, w.queue.length ≤ (f w x).queue.length) :
    ∀ (xs : List α) (w : Worklist), w.queue.length ≤ (xs.foldl f w).queue.length
  | [], _ => Nat.le_refl _
  | x :: xs, w => (hgrow w x).trans (foldl_grows hgrow xs (f w x))

/-- **A queue that is within the bound at the end has been so all along.** -/
theorem foldlM_within {α : Type} {f : Worklist → α → Worklist} {g : Worklist → α → Option Worklist}
    (hgrow : ∀ w x, w.queue.length ≤ (f w x).queue.length)
    (hstep : ∀ w x, (f w x).queue.length ≤ cap → g w x = some (f w x)) :
    ∀ (xs : List α) (w : Worklist), (xs.foldl f w).queue.length ≤ cap →
      xs.foldlM g w = some (xs.foldl f w)
  | [], _, _ => rfl
  | x :: xs, w, hend => by
      have hfirst : (f w x).queue.length ≤ cap := (foldl_grows hgrow xs (f w x)).trans hend
      rw [List.foldlM_cons, hstep w x hfirst]
      exact foldlM_within hgrow hstep xs (f w x) hend

theorem hitWithin_eq (w : Worklist) (j : Nat) (hend : (w.hit j).queue.length ≤ cap) :
    w.hitWithin cap j = some (w.hit j) := by
  unfold Worklist.hit at hend ⊢
  unfold Worklist.hitWithin Worklist.push
  dsimp only at hend ⊢
  by_cases hzero : w.degree.getD j 0 - 1 = 0
  · rw [if_pos hzero] at hend ⊢
    rw [List.length_append, List.length_singleton] at hend
    rw [if_pos (by omega), if_pos hzero]
  · rw [if_neg hzero, if_neg hzero]

theorem relaxEdge_grows (current : Nat) (w : Worklist) (e : DependencyEdge) :
    w.queue.length ≤ (relaxEdge ids current w e).queue.length := by
  rw [relaxEdge_eq_hits]
  exact (hits_queue _ w).length_le

theorem relaxEdgeWithin_eq (current : Nat) (w : Worklist) (e : DependencyEdge)
    (hend : (relaxEdge ids current w e).queue.length ≤ cap) :
    relaxEdgeWithin cap ids current w e = some (relaxEdge ids current w e) := by
  unfold relaxEdge at hend ⊢
  unfold relaxEdgeWithin
  split
  · rename_i hsrc
    rw [if_pos hsrc] at hend
    refine foldlM_within (fun w j => ?_) (fun w j hj => ?_) _ w hend
    · split
      · exact (hit_queue w j).length_le
      · exact Nat.le_refl _
    · split
      · rename_i hdst
        rw [if_pos hdst] at hj
        exact hitWithin_eq w j hj
      · rfl
  · rfl

theorem drain_grows : ∀ {fuel : Nat} {w w' : Worklist}, drain (targets ids edges) fuel w = some w' →
    w.queue.length ≤ w'.queue.length
  | 0, _, _, h => nomatch h
  | fuel + 1, w, w', h => by
      unfold drain at h
      split at h
      · rw [Option.some.inj h]
      · rename_i current _
        have hpass := (hits_queue (targets ids edges current) { w with head := w.head + 1 }).length_le
        exact hpass.trans (drain_grows h)

/-- **The `while` loop never meets a bound that its queue keeps at the end.** -/
theorem process_within : ∀ {fuel : Nat} {w w' : Worklist},
    drain (targets ids edges) fuel w = some w' → w'.queue.length ≤ cap →
    processWithin cap ids edges fuel w w.head = some (w', w'.head)
  | 0, _, _, h, _ => nomatch h
  | fuel + 1, w, w', h, hend => by
      unfold drain at h
      unfold processWithin
      cases hcur : w.queue[w.head]? with
      | none =>
        rw [hcur] at h
        rw [Option.some.inj h]
      | some current =>
        rw [hcur] at h
        dsimp only at h ⊢
        rw [← relaxEdges_eq_hits] at h
        rw [foldlM_within (relaxEdge_grows current) (relaxEdgeWithin_eq current) _ _
          ((drain_grows h).trans hend)]
        have hhead : (edges.foldl (relaxEdge ids current) { w with head := w.head + 1 }).head =
            w.head + 1 := by
          rw [relaxEdges_eq_hits, hits_head]
        have hloop := process_within h hend
        rwa [hhead] at hloop

/-- The first loop without the bound: the slots that pass are appended in order. -/
theorem fill_eq (degree : List Int) (head : Nat) : ∀ (slots queue : List Nat),
    slots.foldl (fun w i => if w.degree.getD i 0 = 0 then { w with queue := w.queue ++ [i] } else w)
        (⟨degree, queue, head⟩ : Worklist) =
      ⟨degree, queue ++ slots.filter fun i => degree.getD i 0 = 0, head⟩
  | [], queue => by simp
  | i :: slots, queue => by
      rw [List.foldl_cons]
      by_cases hzero : degree.getD i 0 = 0
      · rw [if_pos hzero, fill_eq degree head slots (queue ++ [i]), List.filter_cons_of_pos (by simpa using hzero),
          List.append_assoc]
        rfl
      · rw [if_neg hzero, fill_eq degree head slots queue, List.filter_cons_of_neg (by simpa using hzero)]

theorem fill_within (hend : (startQueue ids edges).queue.length ≤ cap) :
    fillWithin cap ids edges = some (startQueue ids edges) := by
  have hfill := fill_eq (inDegrees ids edges) 0 (List.range ids.length) []
  rw [List.nil_append] at hfill
  unfold startQueue at hend ⊢
  unfold fillWithin
  rw [← hfill] at hend ⊢
  refine foldlM_within (fun w i => ?_) (fun w i hi => ?_) _ _ hend
  · split
    · simp
    · exact Nat.le_refl _
  · by_cases hzero : w.degree.getD i 0 = 0
    · rw [if_pos hzero] at hi
      rw [List.length_append, List.length_singleton] at hi
      rw [if_pos hzero, if_pos hzero, Worklist.push, if_pos (by omega)]
    · rw [if_neg hzero, if_neg hzero]

end Loops

/-! ## 3. Every plan -/

/-- **The queue of the check.** On every plan, with any ids and edges, the check ends with an answer,
    writes no entry of `processing_queue` at or beyond `chunk_count`, and queues slots of the plan
    only, none of them twice. -/
theorem check_queue_bounded {F : Type} (plan : ExecutionPlan F) :
    ∃ accepted queue, verifyPlanTopologyIsDag plan = some accepted ∧
      verifyWithin plan.chunks.length plan = some (accepted, queue) ∧
      queue.Nodup ∧ (∀ k ∈ queue, k < plan.chunks.length) ∧ queue.length ≤ plan.chunks.length := by
  cases hguard : (!plan.isValid || plan.chunks.length == 0) with
  | true =>
    refine ⟨false, [], ?_, ?_, List.nodup_nil, fun _ hk => absurd hk List.not_mem_nil, Nat.zero_le _⟩
    · rw [verifyPlanTopologyIsDag, hguard, if_pos rfl]
    · rw [verifyWithin, hguard, if_pos rfl]
  | false =>
    obtain ⟨w, hw, hfiring, hbound, -, -⟩ := check_drains plan
    have hlength : w.queue.length ≤ plan.chunks.length := by
      have hsub : w.queue ⊆ List.range plan.chunks.length := fun k hk => List.mem_range.mpr (hbound k hk)
      have hle := (List.subperm_of_subset hfiring.nodup hsub).length_le
      rwa [List.length_range] at hle
    refine ⟨_, w.queue, verify_eq_of_drain hguard hw, ?_, hfiring.nodup, hbound, hlength⟩
    have hfill := fill_within ((drain_grows hw).trans hlength)
    have hloop : processWithin plan.chunks.length plan.ids plan.edges (plan.chunks.length + 1)
        (startQueue plan.ids plan.edges) 0 = some (w, w.head) := process_within hw hlength
    rw [verifyWithin, hguard, if_neg Bool.false_ne_true, hfill, Option.bind_some, hloop,
      Option.map_some]

end VoidOsMerger
