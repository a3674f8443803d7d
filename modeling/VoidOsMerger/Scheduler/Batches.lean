/-
  File:      VoidOsMerger/Scheduler/Batches.lean
  Subject:   TICKS WITH LITTLE ROOM, ONE AFTER ANOTHER (vom_scheduler_tick of master/src/scheduler.c).

  A tick stops once it has written `max_leases` leases, and the next one starts at the first chunk again.

  * `tickLoop_after` -- leases written before make the loop stop earlier and change nothing else;
  * `tickLoop_cut` -- where a loop stops for want of room, it has settled the chunks it went through, and
    a loop with more room goes on with the others;
  * **`batches_are_one_tick`** -- while no lease is past its time, ticks at one time with any rooms
    dispatch together what one tick with all their room dispatches.
-/
import VoidOsMerger.Scheduler.Exclusive

namespace VoidOsMerger

/-! ## 1. Leases written before -/

section After

variable {F : Type}

/-- The same with other leases written before. -/
def TickState.after (out : List VomAssignmentLease) (st : TickState F) : TickState F :=
  { st with outLeases := out ++ st.outLeases }

theorem expireLease_after (now : UInt64) (chunk : VomChunkPlan) (out : List VomAssignmentLease)
    (st : TickState F) :
    expireLease now chunk (st.after out) =
      ((expireLease now chunk st).1.after out, (expireLease now chunk st).2) := by
  unfold expireLease TickState.after
  dsimp only
  cases st.leases.find? (leaseOf chunk.chunkId) with
  | none => rfl
  | some lease =>
    dsimp only
    split <;> rfl

theorem dispatch_after (now : UInt64) (chunk : VomChunkPlan) (i : Nat) (out : List VomAssignmentLease)
    (st : TickState F) : dispatch now chunk i (st.after out) = (dispatch now chunk i st).after out := by
  unfold dispatch TickState.after
  dsimp only
  cases st.workers[i]? with
  | none => rfl
  | some target =>
    dsimp only
    cases place (fun l => !l.isActive) maxSchunks (newLease now chunk target) st.leases with
    | none => rfl
    | some leases =>
      dsimp only
      rw [List.append_assoc]

variable [DoubleArith F]

theorem assignChunk_after (now : UInt64) (chunk : VomChunkPlan) (out : List VomAssignmentLease)
    (st : TickState F) : assignChunk now chunk (st.after out) = (assignChunk now chunk st).after out := by
  have hworkers : (st.after out).workers = st.workers := rfl
  unfold assignChunk
  rw [hworkers]
  cases bestWorker chunk st.workers with
  | none => rfl
  | some i => exact dispatch_after now chunk i out st

theorem tickChunk_after (now : UInt64) (chunk : VomChunkPlan) (out : List VomAssignmentLease)
    (st : TickState F) : tickChunk now chunk (st.after out) = (tickChunk now chunk st).after out := by
  unfold tickChunk
  rw [expireLease_after]
  split
  · rfl
  · dsimp only
    split
    · rfl
    · exact assignChunk_after now chunk out _

/-- The loop with leases written before and room for them. -/
theorem tickLoop_after (now : UInt64) (room : Int) (out : List VomAssignmentLease) :
    ∀ (rest : List VomChunkPlan) (st : TickState F),
      tickLoop now (out.length + room) rest (st.after out) = (tickLoop now room rest st).after out
  | [], _ => rfl
  | c :: rest, st => by
      have hlength : ((st.after out).outLeases.length : Int) = out.length + st.outLeases.length := by
        rw [TickState.after, List.length_append, Int.natCast_add]
      unfold tickLoop
      by_cases hfull : (st.outLeases.length : Int) ≥ room
      · rw [if_pos hfull, if_pos (by omega)]
      · rw [if_neg hfull, if_neg (by omega), tickChunk_after, tickLoop_after now room out rest]

end After

/-! ## 2. Where a loop stops -/

/-- **A loop that stops** has gone through some of the chunks. They are settled, and a loop with more
    room goes on from there with the others. -/
theorem tickLoop_cut {now : UInt64} (hnow : now.toNat + 30000 < 2 ^ 64) (room : Int)
    {chunks : List VomChunkPlan} : ∀ (rest : List VomChunkPlan) (st : TickState (Option ℚ)),
      rest ⊆ chunks → Calm now chunks st →
      Calm now chunks (tickLoop now room rest st) ∧
        (∀ c, ChunkSettled c st → ChunkSettled c (tickLoop now room rest st)) ∧
        ∃ done left, rest = done ++ left ∧ (∀ c ∈ done, ChunkSettled c (tickLoop now room rest st)) ∧
          (left = [] ∨ room ≤ (tickLoop now room rest st).outLeases.length) ∧
          ∀ more, room ≤ more →
            tickLoop now more rest st = tickLoop now more left (tickLoop now room rest st)
  | [], _, _, h => ⟨h, fun _ hc => hc, [], [], rfl, fun _ hc => absurd hc List.not_mem_nil,
      Or.inl rfl, fun _ _ => rfl⟩
  | c :: rest, st, hsub, h => by
      by_cases hfull : (st.outLeases.length : Int) ≥ room
      · have hstop : tickLoop now room (c :: rest) st = st := if_pos hfull
        rw [hstop]
        exact ⟨h, fun _ hc => hc, [], c :: rest, rfl, fun _ hc => absurd hc List.not_mem_nil,
          Or.inr hfull, fun _ _ => rfl⟩
      · have hgo : ∀ more : Int, room ≤ more →
            tickLoop now more (c :: rest) st = tickLoop now more rest (tickChunk now c st) :=
          fun more hmore => if_neg (by omega)
        obtain ⟨hcalm, hhere, hkept⟩ := tickChunk_settles hnow (hsub List.mem_cons_self) h
        obtain ⟨hcalm', hkept', done, left, hrest, hdone, hleft, hmore⟩ :=
          tickLoop_cut hnow room rest (tickChunk now c st)
            (fun x hx => hsub (List.mem_cons_of_mem _ hx)) hcalm
        rw [hgo room (Int.le_refl room)]
        refine ⟨hcalm', fun d hd => hkept' d (hkept d hd), c :: done, left, ?_,
          List.forall_mem_cons.mpr ⟨hkept' c hhere, hdone⟩, hleft, fun more hle => ?_⟩
        · rw [hrest, List.cons_append]
        · rw [hgo more hle, hmore more hle]

/-- Settled chunks at the front are passed over. -/
theorem tickLoop_passes {now : UInt64} {room : Int} {chunks : List VomChunkPlan}
    {st : TickState (Option ℚ)} (h : Calm now chunks st) :
    ∀ done left : List VomChunkPlan, (∀ c ∈ done, ChunkSettled c st) →
      tickLoop now room (done ++ left) st = tickLoop now room left st
  | [], _, _ => rfl
  | c :: done, left, hdone => by
      have hrest : tickLoop now room (done ++ left) st = tickLoop now room left st :=
        tickLoop_passes h done left fun d hd => hdone d (List.mem_cons_of_mem _ hd)
      rw [List.cons_append, tickLoop, tickChunk_settled h.leases h.fresh (hdone c List.mem_cons_self),
        hrest]
      split
      · rename_i hfull
        cases left with
        | nil => rfl
        | cons d left => exact (if_pos hfull).symm
      · rfl

/-! ## 3. Ticks one after another -/

/-- Ticks at one time, with these rooms: the state they leave, and the leases they write. -/
def tickBatches {F : Type} [DoubleArith F] (now : UInt64) :
    List Nat → Scheduler F → Scheduler F × List VomAssignmentLease
  | [], s => (s, [])
  | room :: rooms, s =>
    let t := vomSchedulerTick s now room
    let r := tickBatches now rooms t.1
    (r.1, t.2 ++ r.2)

/-- What a tick asks to place all it has room for. -/
def CalmScheduler (now : UInt64) (s : Scheduler (Option ℚ)) : Prop := Calm now s.chunks (tickStart s)

theorem tick_calm {now : UInt64} (hnow : now.toNat + 30000 < 2 ^ 64) (room : Int)
    {s : Scheduler (Option ℚ)} (h : CalmScheduler now s) :
    CalmScheduler now (vomSchedulerTick s now room).1 := by
  obtain ⟨hleases, hfresh, hreliable⟩ :=
    (tickLoop_cut hnow room s.chunks (tickStart s) (List.Subset.refl _) h).1
  exact ⟨hleases, hfresh, hreliable⟩

/-- **Two ticks are one.** -/
theorem tick_splits {now : UInt64} (hnow : now.toNat + 30000 < 2 ^ 64) (a b : Nat)
    {s : Scheduler (Option ℚ)} (h : CalmScheduler now s) :
    vomSchedulerTick s now ((a + b : Nat) : Int) =
      ((vomSchedulerTick (vomSchedulerTick s now a).1 now b).1,
        (vomSchedulerTick s now a).2 ++ (vomSchedulerTick (vomSchedulerTick s now a).1 now b).2) := by
  obtain ⟨hcalm, -, done, left, hchunks, hdone, hleft, hmore⟩ :=
    tickLoop_cut hnow a s.chunks (tickStart s) (List.Subset.refl _) h
  have hwritten := tickLoop_outLeases_le now a s.chunks (tickStart s) (by
    rw [tickStart, List.length_nil]
    omega)
  have hmiddle := tick_calm hnow a h
  unfold vomSchedulerTick at hmiddle ⊢
  dsimp only at hmiddle ⊢
  generalize hst : tickLoop now a s.chunks (tickStart s) = st at *
  -- the second tick passes over what the first has settled
  have hsecond : tickLoop now b s.chunks (tickStart ⟨st.workers, s.chunks, st.leases⟩) =
      tickLoop now b left (tickStart ⟨st.workers, s.chunks, st.leases⟩) := by
    rw [hchunks] at hmiddle ⊢
    exact tickLoop_passes hmiddle done left hdone
  have hafter : st = (tickStart ⟨st.workers, s.chunks, st.leases⟩).after st.outLeases := by
    unfold tickStart TickState.after
    rw [List.append_nil]
  have hwhole : tickLoop now ((a + b : Nat) : Int) s.chunks (tickStart s) =
      (tickLoop now b left (tickStart ⟨st.workers, s.chunks, st.leases⟩)).after st.outLeases := by
    rw [hmore _ (by omega)]
    rcases hleft with rfl | hfull
    · exact hafter
    · have hroom : ((a + b : Nat) : Int) = st.outLeases.length + (b : Int) := by omega
      rw [hroom, ← tickLoop_after, ← hafter]
  rw [hwhole, hsecond]
  rfl

theorem tickBatches_eq {now : UInt64} (hnow : now.toNat + 30000 < 2 ^ 64) :
    ∀ (rooms : List Nat) {s : Scheduler (Option ℚ)}, CalmScheduler now s →
      tickBatches now rooms s = vomSchedulerTick s now (rooms.sum : Nat)
  | [], s, _ => by
      have hstop : tickLoop now 0 s.chunks (tickStart s) = tickStart s := by
        cases s.chunks with
        | nil => rfl
        | cons c chunks => exact if_pos (Int.le_refl 0)
      unfold tickBatches vomSchedulerTick
      rw [List.sum_nil, Int.natCast_zero, hstop]
      rfl
  | room :: rooms, s, h => by
      rw [List.sum_cons, tick_splits hnow room rooms.sum h, ← tickBatches_eq hnow rooms
        (tick_calm hnow room h), tickBatches]

/-- **Ticks with little room are one tick with all of it.** In every reachable state whose workers have
    a reliability of at least 0 and in which no lease is past its time, ticks at that time, each with any
    room, write together the leases one tick with the sum of the rooms writes, in its order, and leave
    the state it leaves. -/
theorem batches_are_one_tick (ops : List (SchedulerOp (Option ℚ))) (now : UInt64) (rooms : List Nat)
    (hrel : ∀ w ∈ (schedulerMachine.run vomSchedulerInit ops).workers, w.Reliable)
    (hnow : now.toNat + 30000 < 2 ^ 64)
    (hfresh : ∀ l ∈ activeLeases (schedulerMachine.run vomSchedulerInit ops).leases,
      now ≤ l.leaseExpiresMs) :
    tickBatches now rooms (schedulerMachine.run vomSchedulerInit ops) =
      vomSchedulerTick (schedulerMachine.run vomSchedulerInit ops) now (rooms.sum : Nat) :=
  tickBatches_eq hnow rooms
    ⟨leaseInv_run ops, fun l hl => UInt64.not_lt.mpr (hfresh l hl), hrel⟩

/-- A worker with four CPU units, and three chunks that require three, two and one of them. -/
def threeChunksRun : List (SchedulerOp (Option ℚ)) :=
  unitsRun 4 3 ++ [.submitReadyChunk (some (chunkPlan 5002 2)),
    .submitReadyChunk (some (chunkPlan 5003 1))]

theorem threeChunksRun_reliable :
    ∀ w ∈ (schedulerMachine.run vomSchedulerInit threeChunksRun).workers, w.Reliable := by
  have hworkers : (schedulerMachine.run vomSchedulerInit threeChunksRun).workers =
      [{ workerW1 with cpuUnits := 4 }] := rfl
  intro w hw
  rw [hworkers, List.mem_singleton] at hw
  exact ⟨1, congrArg VomWorkerView.reliabilityScore hw, by norm_num⟩

theorem batches_are_one_tick_threeChunksRun :
    (vomSchedulerTick (schedulerMachine.run vomSchedulerInit threeChunksRun) 0 2).2.map (·.chunkId) =
        [5001, 5003] ∧
      tickBatches 0 [1, 0, 1] (schedulerMachine.run vomSchedulerInit threeChunksRun) =
        vomSchedulerTick (schedulerMachine.run vomSchedulerInit threeChunksRun) 0 2 :=
  ⟨by decide +kernel, batches_are_one_tick threeChunksRun 0 [1, 0, 1] threeChunksRun_reliable
    (by decide) (by decide +kernel)⟩

end VoidOsMerger
