/-
  File:      VoidOsMerger/Planner/Strategies.lean
  Subject:   THE PLANNER'S STRATEGIES (master/src/chunk_planner.c), AND THAT ITS CHECK ACCEPTS THEM.

  A chunk's id is a hash of the workload and the chunk's index. The planner and its check agree only
  if no two chunks of a plan collide.

  * `generateChunkGraph` -- the registry of strategies, the two strategies and their plans;
  * `mixChunkHash_bijective`, `chunkId_injective` -- the finaliser of the hash is a permutation, so that
    for every base hash the id determines the index;
  * `batchPlan_checked`, `pipelinePlan_checked` -- the two plans;
  * **`planner_agrees_with_check`** -- every workload: a plan that is a DAG of distinct chunks and is
    accepted, or a refusal that leaves a plan the check rejects.
-/
import VoidOsMerger.Planner.Dag
import VoidOsMerger.Base.Mix
import VoidOsMerger.Base.CText

namespace VoidOsMerger

/-! ## 1. Workloads and ids -/

inductive StrategyType
  | independentBatch | sequentialPipeline | mapReduce | unsupported
  deriving DecidableEq, Repr

/-- `(uint64_t)wl->strategy_type` -/
def StrategyType.toUInt64 : StrategyType → UInt64
  | .independentBatch => 0
  | .sequentialPipeline => 1
  | .mapReduce => 2
  | .unsupported => 3

/-- `Workload`, with `size_t` of 64 bits. -/
structure Workload where
  workloadName : NulBuf 64
  strategyType : StrategyType
  totalInputSizeBytes : UInt64
  computeIntensityFactor : UInt64
  isSplittable : Bool
  rawDataNodeId : UInt32
  deriving DecidableEq

/-- `HASH_SEED` -/
def hashSeed : UInt64 := 0x9E3779B97F4A7C15

/-- `generate_deterministic_chunk_id` -/
def generateDeterministicChunkId (baseHash : UInt64) (chunkIndex : Int) : UInt64 :=
  let hash := baseHash ^^^ uint64OfInt chunkIndex
  let hash := hash ^^^ hash >>> 33
  let hash := hash * 0xff51afd7ed558ccd
  let hash := hash ^^^ hash >>> 33
  let hash := hash * 0xc4ceb9fe1a85ec53
  hash ^^^ hash >>> 33

/-- A `char` as an operand of a `uint64_t`: a signed one is extended by its sign. -/
def charToUInt64 (signedChar : Bool) (c : UInt8) : UInt64 :=
  if signedChar = true ∧ 128 ≤ c then c.toUInt64 ||| 0xFFFFFFFFFFFFFF00 else c.toUInt64

/-- `compute_workload_base_hash` -/
def computeWorkloadBaseHash (signedChar : Bool) (wl : Workload) : UInt64 :=
  let hash := wl.workloadName.str.bytes.foldl
    (fun hash c => (hash ^^^ charToUInt64 signedChar c) * 1099511628211) hashSeed
  hash ^^^ wl.totalInputSizeBytes ^^^ wl.strategyType.toUInt64

/-! ## 2. Strategies -/

section Plans

variable {F : Type}

/-- The plan after `memset(out_plan, 0, ..)`. -/
def zeroPlan : ExecutionPlan F := ⟨[], Nat.zero_le _, [], Nat.zero_le _, false⟩

/-- `PlanGenerationFunc`: what it returns and what it leaves in `out_plan`. -/
def PlanGenerationFunc (F : Type) : Type := Workload → ExecutionPlan F → Bool × ExecutionPlan F

/-- An entry of `g_strategy_registry`; `none` is a null function. -/
structure StrategyRegistry (F : Type) where
  type : StrategyType
  planFn : Option (PlanGenerationFunc F)

/-- `MAX_STRATEGIES` -/
def maxStrategies : Nat := 16

/-- `register_planning_strategy` -/
def registerPlanningStrategy (registry : List (StrategyRegistry F)) (type : StrategyType)
    (fn : Option (PlanGenerationFunc F)) : List (StrategyRegistry F) × Bool :=
  if maxStrategies ≤ registry.length then (registry, false)
  else (registry ++ [⟨type, fn⟩], true)

/-- `find_strategy` -/
def findStrategy (registry : List (StrategyRegistry F)) (type : StrategyType) :
    Option (PlanGenerationFunc F) :=
  (registry.find? fun entry => entry.type == type && entry.planFn.isSome).bind (·.planFn)

/-- `generate_chunk_graph`; `none` is a null pointer. -/
def generateChunkGraph (registry : List (StrategyRegistry F)) :
    Option Workload → Option (ExecutionPlan F) → Bool × Option (ExecutionPlan F)
  | some wl, some _ =>
    if !wl.isSplittable then (false, some zeroPlan)
    else match findStrategy registry wl.strategyType with
      | none => (false, some zeroPlan)
      | some strategyCall =>
        let r := strategyCall wl zeroPlan
        (r.1, some r.2)
  | _, outPlan => (false, outPlan)

variable [DoubleArith F] (signedChar : Bool)

/-- `chunks[i]` of `plan_independent_batch_strategy` -/
def batchChunk (wl : Workload) (i : Nat) : ChunkNode F :=
  let scheduledNode : UInt32 := UInt32.ofNat (i % 4)
  { chunkId := generateDeterministicChunkId (computeWorkloadBaseHash signedChar wl) i
    memoryDemandBytes := wl.totalInputSizeBytes / 4 + 1024 * 1024 * 64
    cpuCoresDemand := wl.computeIntensityFactor * 2
    targetNodeId := scheduledNode
    dataLocalityScore := DoubleArith.ofInt (if scheduledNode = wl.rawDataNodeId then 1 else 0) }

/-- `plan_independent_batch_strategy` -/
def planIndependentBatchStrategy : PlanGenerationFunc F := fun wl _ =>
  (true,
    { chunks := (List.range 4).map (batchChunk signedChar wl)
      chunksFit := by simp [maxChunks]
      edges := []
      edgesFit := by simp
      isValid := true })

/-- `chunks[i]` of `plan_sequential_pipeline_strategy` -/
def stepChunk (wl : Workload) (i : Nat) : ChunkNode F where
  chunkId := generateDeterministicChunkId (computeWorkloadBaseHash signedChar wl) i
  memoryDemandBytes := wl.totalInputSizeBytes / 2
  cpuCoresDemand := wl.computeIntensityFactor
  targetNodeId := wl.rawDataNodeId
  dataLocalityScore := DoubleArith.ofInt 1

/-- `plan_sequential_pipeline_strategy` -/
def planSequentialPipelineStrategy : PlanGenerationFunc F := fun wl _ =>
  let chunk : Nat → ChunkNode F := stepChunk signedChar wl
  (true,
    { chunks := (List.range 4).map chunk
      chunksFit := by simp [maxChunks]
      edges := (List.range 3).map fun i => ⟨(chunk i).chunkId, (chunk (i + 1)).chunkId⟩
      edgesFit := by simp [maxEdges]
      isValid := true })

end Plans

/-! ## 3. Ids do not collide -/

/-- The rounds of `generate_deterministic_chunk_id`, with the inverses of its two factors. -/
def chunkIdRounds : List (MixRound 64) :=
  [⟨33, by decide, 0xff51afd7ed558ccd, 0x4f74430c22a54005, by decide⟩,
    ⟨33, by decide, 0xc4ceb9fe1a85ec53, 0x9cb4b2f8129337db, by decide⟩]

/-- The mixing of `generate_deterministic_chunk_id`: what it does to the word with the index folded
    in. -/
def mixChunkHash (hash : UInt64) : UInt64 :=
  let hash := hash ^^^ hash >>> 33
  let hash := hash * 0xff51afd7ed558ccd
  let hash := hash ^^^ hash >>> 33
  let hash := hash * 0xc4ceb9fe1a85ec53
  hash ^^^ hash >>> 33

theorem uint64_toBitVec_bijective : Function.Bijective UInt64.toBitVec :=
  ⟨fun _ _ h => UInt64.toBitVec_inj.mp h, fun word => ⟨UInt64.ofBitVec word, rfl⟩⟩

theorem mixChunkHash_bijective : Function.Bijective mixChunkHash := by
  have hrounds : Function.Bijective (xorShift 33 ∘ mixRounds chunkIdRounds) :=
    (xorShift_involutive (by decide)).bijective.comp (mixRounds_bijective chunkIdRounds)
  -- the same steps on the bits of the word
  have hbits : UInt64.toBitVec ∘ mixChunkHash =
      (xorShift 33 ∘ mixRounds chunkIdRounds) ∘ UInt64.toBitVec := rfl
  rw [← uint64_toBitVec_bijective.of_comp_iff' mixChunkHash, hbits]
  exact hrounds.comp uint64_toBitVec_bijective

/-- **The id determines what is mixed**: the base hash with the index folded in. -/
theorem chunkId_eq_iff (baseHash baseHash' : UInt64) (i j : Int) :
    generateDeterministicChunkId baseHash i = generateDeterministicChunkId baseHash' j ↔
      baseHash ^^^ uint64OfInt i = baseHash' ^^^ uint64OfInt j :=
  mixChunkHash_bijective.injective.eq_iff

/-- **The ids of one base hash.** The mixing is a permutation of the 64-bit words, and so for every
    base hash the id determines a non-negative `int` index. -/
theorem chunk_id_permutes_words : Function.Bijective mixChunkHash ∧
    ∀ baseHash : UInt64,
      (∀ i : Int, generateDeterministicChunkId baseHash i = mixChunkHash (baseHash ^^^ uint64OfInt i)) ∧
      ∀ i j : Int, 0 ≤ i → i < 2 ^ 31 → 0 ≤ j → j < 2 ^ 31 →
        generateDeterministicChunkId baseHash i = generateDeterministicChunkId baseHash j → i = j := by
  refine ⟨mixChunkHash_bijective, fun baseHash => ⟨fun i => rfl, ?_⟩⟩
  intro i j hi hi' hj hj' hid
  have hword : uint64OfInt i = uint64OfInt j :=
    (UInt64.xor_right_inj baseHash).mp ((chunkId_eq_iff baseHash baseHash i j).mp hid)
  calc i = (uint64OfInt i).toNat := (uint64OfInt_toNat hi (by omega)).symm
    _ = (uint64OfInt j).toNat := by rw [hword]
    _ = j := uint64OfInt_toNat hj (by omega)

/-- For every base hash the id determines the index. -/
theorem chunkId_injective (baseHash : UInt64) {i j : Nat} (hi : i < 2 ^ 64) (hj : j < 2 ^ 64)
    (h : generateDeterministicChunkId baseHash i = generateDeterministicChunkId baseHash j) :
    i = j := by
  have hword : uint64OfInt i = uint64OfInt j :=
    (UInt64.xor_right_inj baseHash).mp ((chunkId_eq_iff baseHash baseHash i j).mp h)
  have hni := uint64OfInt_toNat (n := i) (by omega) (by omega)
  have hnj := uint64OfInt_toNat (n := j) (by omega) (by omega)
  rw [hword] at hni
  omega

/-- Ids of different indices are different. -/
theorem chunkIds_nodup (baseHash : UInt64) {n : Nat} (hn : n ≤ 2 ^ 64) :
    ((List.range n).map fun i : Nat => generateDeterministicChunkId baseHash i).Nodup := by
  refine List.Nodup.map_on (fun i hi j hj h => ?_) List.nodup_range
  rw [List.mem_range] at hi hj
  exact chunkId_injective baseHash (by omega) (by omega) h

/-- The place of an id among the ids of a plan is its index. -/
theorem chunkIds_idxOf (baseHash : UInt64) {n : Nat} (hn : n ≤ 2 ^ 64) {i : Nat} (hi : i < n) :
    ((List.range n).map fun i : Nat => generateDeterministicChunkId baseHash i).idxOf
      (generateDeterministicChunkId baseHash i) = i := by
  have hget := (chunkIds_nodup baseHash hn).idxOf_getElem i (by simpa using hi)
  simpa using hget

/-! ## 4. The plans and the check -/

/-- A plan of distinct chunks, with edges between its chunks, that the check accepts. -/
structure ExecutionPlan.Checked {F : Type} (plan : ExecutionPlan F) : Prop where
  distinct : plan.ids.Nodup
  joined : ∀ e ∈ plan.edges, e.srcChunkId ∈ plan.ids ∧ e.dstChunkId ∈ plan.ids
  accepted : verifyPlanTopologyIsDag plan = some true

section Checked

variable {F : Type} [DoubleArith F] (signedChar : Bool) (wl : Workload) (outPlan : ExecutionPlan F)

/-- The ids of the chunks of either plan. -/
def workloadChunkIds : List UInt64 :=
  (List.range 4).map fun i : Nat =>
    generateDeterministicChunkId (computeWorkloadBaseHash signedChar wl) i

theorem batchPlan_ids : (planIndependentBatchStrategy signedChar wl outPlan).2.ids =
    workloadChunkIds signedChar wl := List.map_map

theorem pipelinePlan_ids : (planSequentialPipelineStrategy signedChar wl outPlan).2.ids =
    workloadChunkIds signedChar wl := List.map_map

/-- Four chunks and no edge. -/
theorem batchPlan_checked : (planIndependentBatchStrategy signedChar wl outPlan).2.Checked := by
  have hdistinct : (planIndependentBatchStrategy signedChar wl outPlan).2.ids.Nodup := by
    rw [batchPlan_ids]
    exact chunkIds_nodup _ (by decide)
  refine ⟨hdistinct, nofun, verify_of_dag rfl (List.cons_ne_nil _ _) hdistinct nofun ?_⟩
  exact Acyclic.of_rank (fun _ => 0) fun a b hedge => nomatch hedge.2.2

/-- An edge of a pipeline leads from an index to the next one. -/
theorem pipelinePlan_edges {e : DependencyEdge}
    (he : e ∈ (planSequentialPipelineStrategy signedChar wl outPlan).2.edges) :
    ∃ i : Nat, i < 3 ∧
      e = ⟨generateDeterministicChunkId (computeWorkloadBaseHash signedChar wl) i,
        generateDeterministicChunkId (computeWorkloadBaseHash signedChar wl) (i + 1 : Nat)⟩ := by
  obtain ⟨i, hi, rfl⟩ := List.mem_map.mp he
  exact ⟨i, List.mem_range.mp hi, rfl⟩

/-- Four chunks in a row: along an edge the index grows by one. -/
theorem pipelinePlan_checked : (planSequentialPipelineStrategy signedChar wl outPlan).2.Checked := by
  let cid : Nat → UInt64 := fun i =>
    generateDeterministicChunkId (computeWorkloadBaseHash signedChar wl) i
  have hids : (planSequentialPipelineStrategy signedChar wl outPlan).2.ids =
      (List.range 4).map cid := pipelinePlan_ids signedChar wl outPlan
  have hdistinct : ((List.range 4).map cid).Nodup := chunkIds_nodup _ (by decide)
  have hmem : ∀ i < 4, cid i ∈ (planSequentialPipelineStrategy signedChar wl outPlan).2.ids := by
    intro i hi
    rw [hids]
    exact List.mem_map_of_mem (List.mem_range.mpr hi)
  have hrank : ∀ i < 4, ((List.range 4).map cid).idxOf (cid i) = i := fun i hi =>
    chunkIds_idxOf _ (by decide) hi
  have hjoined : ∀ e ∈ (planSequentialPipelineStrategy signedChar wl outPlan).2.edges,
      e.srcChunkId ∈ (planSequentialPipelineStrategy signedChar wl outPlan).2.ids ∧
        e.dstChunkId ∈ (planSequentialPipelineStrategy signedChar wl outPlan).2.ids := by
    intro e he
    obtain ⟨i, hi, rfl⟩ := pipelinePlan_edges signedChar wl outPlan he
    exact ⟨hmem i (by omega), hmem (i + 1) (by omega)⟩
  refine ⟨hids ▸ hdistinct, hjoined, verify_of_dag rfl (List.cons_ne_nil _ _) (hids ▸ hdistinct)
    (fun e he _ => (hjoined e he).1) (Acyclic.of_rank ((List.range 4).map cid).idxOf ?_)⟩
  rintro a b ⟨-, -, hedge⟩
  obtain ⟨i, hi, heq⟩ := pipelinePlan_edges signedChar wl outPlan hedge
  obtain ⟨rfl, rfl⟩ := DependencyEdge.mk.inj heq
  calc ((List.range 4).map cid).idxOf (cid i)
      = i := hrank i (by omega)
    _ < i + 1 := Nat.lt_succ_self i
    _ = ((List.range 4).map cid).idxOf (cid (i + 1)) := (hrank (i + 1) (by omega)).symm

/-- **Planner and check agree.** For every workload, a splittable one whose strategy is one of the two
    of the source gets a plan of distinct chunks with edges between them, which the check accepts; one
    that cannot be split, or whose strategy is not registered, is refused and left with a plan that
    the check rejects. -/
theorem planner_agrees_with_check (registry : List (StrategyRegistry F)) :
    (wl.isSplittable = true →
      (findStrategy registry wl.strategyType = some (planIndependentBatchStrategy signedChar) ∨
        findStrategy registry wl.strategyType = some (planSequentialPipelineStrategy signedChar)) →
      ∃ plan, generateChunkGraph registry (some wl) (some outPlan) = (true, some plan) ∧
        plan.Checked) ∧
    (wl.isSplittable = false ∨ findStrategy registry wl.strategyType = none →
      ∃ plan, generateChunkGraph registry (some wl) (some outPlan) = (false, some plan) ∧
        verifyPlanTopologyIsDag plan = some false) := by
  constructor
  · rintro hsplit (hfound | hfound)
    · refine ⟨_, ?_, batchPlan_checked signedChar wl zeroPlan⟩
      simp only [generateChunkGraph, hsplit, hfound]
      rfl
    · refine ⟨_, ?_, pipelinePlan_checked signedChar wl zeroPlan⟩
      simp only [generateChunkGraph, hsplit, hfound]
      rfl
  · intro hrefused
    refine ⟨zeroPlan, ?_, rfl⟩
    cases hsplit : wl.isSplittable with
    | false => simp [generateChunkGraph, hsplit]
    | true =>
      have hnone := hrefused.resolve_left (by simp [hsplit])
      simp [generateChunkGraph, hsplit, hnone]

end Checked

/-- The registry of the source's test suite. -/
def suiteRegistry : List (StrategyRegistry (Option ℚ)) :=
  let registry := (registerPlanningStrategy [] .independentBatch
    (some (planIndependentBatchStrategy true))).1
  (registerPlanningStrategy registry .sequentialPipeline
    (some (planSequentialPipelineStrategy true))).1

/-- A pipeline workload named `job`. -/
def pipelineWorkload : Workload where
  workloadName := NulBuf.copy 63 (CStr.upTo [106, 111, 98])
  strategyType := .sequentialPipeline
  totalInputSizeBytes := 1024
  computeIntensityFactor := 3
  isSplittable := true
  rawDataNodeId := 2

theorem suite_workloads_agree :
    (∃ plan, generateChunkGraph suiteRegistry (some pipelineWorkload) (some zeroPlan) =
      (true, some plan) ∧ plan.Checked) ∧
    ∃ plan, generateChunkGraph suiteRegistry
      (some { pipelineWorkload with strategyType := .mapReduce }) (some zeroPlan) =
        (false, some plan) ∧ verifyPlanTopologyIsDag plan = some false :=
  ⟨(planner_agrees_with_check true pipelineWorkload zeroPlan suiteRegistry).1 rfl (Or.inr rfl),
    (planner_agrees_with_check true { pipelineWorkload with strategyType := .mapReduce } zeroPlan
      suiteRegistry).2 (Or.inr rfl)⟩

end VoidOsMerger
