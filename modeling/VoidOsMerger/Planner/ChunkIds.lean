/-
  File:      VoidOsMerger/Planner/ChunkIds.lean
  Subject:   WHEN THE PLANS OF TWO WORKLOADS HAVE NO CHUNK ID IN COMMON.

  The size of the input and the index of the chunk are folded into the hash by exclusive-or, both at
  bit 0. Sizes that agree above the two bits of the index exchange the ids of their chunks.

  * `sameId_iff` -- two chunks of workloads with one name and one strategy type;
  * **`plans_disjoint_iff`** -- the plans have no id in common exactly if the sizes differ when
    divided by four.
-/
import VoidOsMerger.Planner.Strategies
import Mathlib.Data.List.Basic

namespace VoidOsMerger

section TwoWorkloads

variable (signedChar : Bool) {wl wl' : Workload} (hname : wl.workloadName.str = wl'.workloadName.str)
  (htype : wl.strategyType = wl'.strategyType)

include hname htype

/-- What the hash of the name and the type adds is the same on both sides. -/
theorem sameId_iff (i j : Int) :
    generateDeterministicChunkId (computeWorkloadBaseHash signedChar wl) i =
        generateDeterministicChunkId (computeWorkloadBaseHash signedChar wl') j ↔
      wl.totalInputSizeBytes ^^^ uint64OfInt i = wl'.totalInputSizeBytes ^^^ uint64OfInt j := by
  have hfold : ∀ hash size type index : UInt64,
      hash ^^^ size ^^^ type ^^^ index = (hash ^^^ type) ^^^ (size ^^^ index) := by
    intro hash size type index
    ac_rfl
  rw [chunkId_eq_iff]
  unfold computeWorkloadBaseHash
  dsimp only
  rw [hname, htype, hfold, hfold, UInt64.xor_right_inj]

/-- **An id in common.** -/
theorem chunkIds_meet_iff :
    (∃ id ∈ workloadChunkIds signedChar wl, id ∈ workloadChunkIds signedChar wl') ↔
      wl.totalInputSizeBytes / 4 = wl'.totalInputSizeBytes / 4 := by
  have hindex : ∀ i < 4, (uint64OfInt (i : Nat)).toNat = i := by
    intro i hi
    have hnat := uint64OfInt_toNat (n := i) (by omega) (by omega)
    omega
  have hsizes : wl.totalInputSizeBytes / 4 = wl'.totalInputSizeBytes / 4 ↔
      wl.totalInputSizeBytes.toNat / 2 ^ 2 = wl'.totalInputSizeBytes.toNat / 2 ^ 2 := by
    rw [← UInt64.toNat_inj, UInt64.toNat_div, UInt64.toNat_div]
    rfl
  rw [hsizes, ← exists_xor_eq_iff 2]
  constructor
  · rintro ⟨id, hid, hid'⟩
    obtain ⟨i, hi, rfl⟩ := List.mem_map.mp hid
    obtain ⟨j, hj, heq⟩ := List.mem_map.mp hid'
    rw [List.mem_range] at hi hj
    have hxor := congrArg UInt64.toNat ((sameId_iff signedChar hname htype i j).mp heq.symm)
    rw [UInt64.toNat_xor, UInt64.toNat_xor, hindex i hi, hindex j hj] at hxor
    exact ⟨i, hi, j, hj, hxor⟩
  · rintro ⟨i, hi, j, hj, hxor⟩
    have heq : generateDeterministicChunkId (computeWorkloadBaseHash signedChar wl) i =
        generateDeterministicChunkId (computeWorkloadBaseHash signedChar wl') j := by
      rw [sameId_iff signedChar hname htype, ← UInt64.toNat_inj, UInt64.toNat_xor, UInt64.toNat_xor,
        hindex i hi, hindex j hj]
      exact hxor
    exact ⟨_, List.mem_map_of_mem (List.mem_range.mpr hi),
      List.mem_map.mpr ⟨j, List.mem_range.mpr hj, heq.symm⟩⟩

end TwoWorkloads

section Plans

variable {F : Type} [DoubleArith F] {signedChar : Bool} {registry : List (StrategyRegistry F)}

/-- A splittable workload with one of the two strategies gets a plan with the ids of the workload. -/
theorem generate_ids {wl : Workload} (hsplit : wl.isSplittable = true)
    (hfound : findStrategy registry wl.strategyType = some (planIndependentBatchStrategy signedChar) ∨
      findStrategy registry wl.strategyType = some (planSequentialPipelineStrategy signedChar))
    (outPlan : ExecutionPlan F) :
    ∃ plan, generateChunkGraph registry (some wl) (some outPlan) = (true, some plan) ∧
      plan.ids = workloadChunkIds signedChar wl := by
  rcases hfound with hfound | hfound
  · refine ⟨_, ?_, batchPlan_ids signedChar wl zeroPlan⟩
    simp only [generateChunkGraph, hsplit, hfound]
    rfl
  · refine ⟨_, ?_, pipelinePlan_ids signedChar wl zeroPlan⟩
    simp only [generateChunkGraph, hsplit, hfound]
    rfl

/-- **When chunk ids tell two workloads apart.** Two splittable workloads with one name, one strategy
    type and so one of the two strategies of the source get plans, and these have no chunk id in
    common exactly if the sizes of their inputs differ when divided by four. -/
theorem plans_disjoint_iff {wl wl' : Workload} (hname : wl.workloadName.str = wl'.workloadName.str)
    (htype : wl.strategyType = wl'.strategyType) (hsplit : wl.isSplittable = true)
    (hsplit' : wl'.isSplittable = true)
    (hfound : findStrategy registry wl.strategyType = some (planIndependentBatchStrategy signedChar) ∨
      findStrategy registry wl.strategyType = some (planSequentialPipelineStrategy signedChar))
    (outPlan outPlan' : ExecutionPlan F) :
    ∃ plan plan', generateChunkGraph registry (some wl) (some outPlan) = (true, some plan) ∧
      generateChunkGraph registry (some wl') (some outPlan') = (true, some plan') ∧
      (plan.ids.Disjoint plan'.ids ↔ wl.totalInputSizeBytes / 4 ≠ wl'.totalInputSizeBytes / 4) := by
  obtain ⟨plan, hplan, hids⟩ := generate_ids hsplit hfound outPlan
  obtain ⟨plan', hplan', hids'⟩ := generate_ids hsplit' (htype ▸ hfound) outPlan'
  refine ⟨plan, plan', hplan, hplan', ?_⟩
  rw [hids, hids', Ne, ← chunkIds_meet_iff signedChar hname htype]
  exact ⟨fun h ⟨_, hid, hid'⟩ => h hid hid', fun h id hid hid' => h ⟨id, hid, hid'⟩⟩

end Plans

/-- A larger workload of the same name. -/
def largerWorkload : Workload := { pipelineWorkload with totalInputSizeBytes := 1028 }

theorem larger_workload_told_apart :
    ∃ plan plan', generateChunkGraph suiteRegistry (some pipelineWorkload) (some zeroPlan) =
        (true, some plan) ∧
      generateChunkGraph suiteRegistry (some largerWorkload) (some zeroPlan) = (true, some plan') ∧
      plan.ids.Disjoint plan'.ids := by
  have hname : pipelineWorkload.workloadName.str = largerWorkload.workloadName.str := rfl
  have hfound : findStrategy suiteRegistry pipelineWorkload.strategyType =
      some (planSequentialPipelineStrategy true) := rfl
  obtain ⟨plan, plan', hplan, hplan', hiff⟩ :=
    plans_disjoint_iff hname rfl rfl rfl (Or.inr hfound) zeroPlan zeroPlan
  exact ⟨plan, plan', hplan, hplan', hiff.mpr (by decide)⟩

def oneByteMore : Workload := { pipelineWorkload with totalInputSizeBytes := 1025 }

/-- **One byte more and the ids are the same.** -/
theorem chunk_ids_shared : ¬ ∀ (registry : List (StrategyRegistry (Option ℚ))) (wl wl' : Workload),
    wl.workloadName.str = wl'.workloadName.str → wl.strategyType = wl'.strategyType →
    wl.totalInputSizeBytes ≠ wl'.totalInputSizeBytes → wl.isSplittable = true →
    wl'.isSplittable = true →
    findStrategy registry wl.strategyType = some (planSequentialPipelineStrategy true) →
    ∀ plan plan', generateChunkGraph registry (some wl) (some zeroPlan) = (true, some plan) →
      generateChunkGraph registry (some wl') (some zeroPlan) = (true, some plan') →
      plan.ids.Disjoint plan'.ids := by
  intro h
  have hname : pipelineWorkload.workloadName.str = oneByteMore.workloadName.str := rfl
  have hdisjoint := h suiteRegistry pipelineWorkload oneByteMore hname rfl (by decide) rfl rfl rfl _ _
    rfl rfl
  obtain ⟨id, hid, hid'⟩ := (chunkIds_meet_iff true hname rfl).mpr (by decide)
  exact hdisjoint hid hid'

end VoidOsMerger
