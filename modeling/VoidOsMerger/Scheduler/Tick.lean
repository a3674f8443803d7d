/-
  File:      VoidOsMerger/Scheduler/Tick.lean
  Subject:   ONE TICK AS A WHOLE: what it raises it leases, what it leases it reports.

  The tick's loop is followed iteration by iteration (`tickVisits`): in each, `expiredBy` is the
  lease it switches off and `raisedBy` the worker whose reservation it raises.

  * `tickChunk_raises` -- in a state with the lease invariant an iteration that raises a reservation
    stores the new lease as active and writes it to `out_leases`; the branch without a slot is dead;
  * `tickLoop_account` -- over the loop, the active leases gain exactly the written ones and lose
    exactly the expired ones;
  * `tick_leases_what_it_raises` -- both on every run, with the bound on the returned count.
-/
import VoidOsMerger.Scheduler.Leases

namespace VoidOsMerger

open List (Perm)
open scoped List

variable {F : Type}

/-! ## 1. One iteration -/

/-- The state once the chunk's lease has been looked at. -/
def afterExpiry (now : UInt64) (chunk : VomChunkPlan) (st : TickState F) : TickState F :=
  if chunk.isBlocked then st else (expireLease now chunk st).1

/-- The lease an iteration switches off. -/
def expiredBy (now : UInt64) (chunk : VomChunkPlan) (st : TickState F) :
    Option VomAssignmentLease :=
  if chunk.isBlocked then none
  else (st.leases.find? (leaseOf chunk.chunkId)).filter (fun l => l.leaseExpiresMs < now)

section Tick

variable [DoubleArith F]

/-- The worker whose reservation an iteration raises. -/
def raisedBy (now : UInt64) (chunk : VomChunkPlan) (st : TickState F) : Option Nat :=
  if chunk.isBlocked ∨ (expireLease now chunk st).2 then none
  else bestWorker chunk (expireLease now chunk st).1.workers

/-- An iteration raises a reservation on top of the expiry, or is the expiry alone. -/
theorem tickChunk_raisedBy (now : UInt64) (chunk : VomChunkPlan) (st : TickState F) :
    tickChunk now chunk st =
      (raisedBy now chunk st).elim (afterExpiry now chunk st)
        (fun i => dispatch now chunk i (afterExpiry now chunk st)) := by
  unfold tickChunk raisedBy afterExpiry assignChunk
  by_cases hb : chunk.isBlocked = true
  · simp [hb]
  · by_cases hl : (expireLease now chunk st).2 = true
    · simp [hb, hl]
    · have hlive : ¬ (chunk.isBlocked = true ∨ (expireLease now chunk st).2 = true) :=
        not_or.mpr ⟨hb, hl⟩
      dsimp only
      rw [if_neg hb, if_neg hl, if_neg hlive, if_neg hb]
      cases bestWorker chunk (expireLease now chunk st).1.workers <;> rfl

end Tick

/-- The expiry half of an iteration, on the active leases. -/
theorem afterExpiry_account (now : UInt64) (chunk : VomChunkPlan) (st : TickState F) :
    (activeLeases st.leases).Perm
      ((expiredBy now chunk st).toList ++ activeLeases (afterExpiry now chunk st).leases) ∧
    (afterExpiry now chunk st).outLeases = st.outLeases := by
  unfold afterExpiry expiredBy
  by_cases hb : chunk.isBlocked = true
  · simp [hb]
  · unfold expireLease
    cases hf : st.leases.find? (leaseOf chunk.chunkId) with
    | none => simp [hb]
    | some lease =>
      by_cases hexp : lease.leaseExpiresMs < now
      · simpa [hb, hexp, Option.filter] using activeLeases_perm_of_find hf
      · simp [hb, hexp, Option.filter]

/-- A chunk is covered by a lease that is not past its time. -/
theorem expireLease_covered {now : UInt64} {chunk : VomChunkPlan} {st : TickState F}
    (h : (expireLease now chunk st).2 = true) :
    ∃ lease ∈ activeLeases st.leases, lease.chunkId = chunk.chunkId ∧ ¬ lease.leaseExpiresMs < now := by
  unfold expireLease at h
  cases hf : st.leases.find? (leaseOf chunk.chunkId) with
  | none => simp [hf] at h
  | some lease =>
    obtain ⟨hid, hact⟩ := leaseOf_iff.mp (List.find?_some hf)
    refine ⟨lease, mem_activeLeases.mpr ⟨List.mem_of_find?_eq_some hf, hact⟩, hid, fun hexp => ?_⟩
    simp [hf, hexp] at h

/-- A lease of another chunk survives the expiry half. -/
theorem afterExpiry_keeps (now : UInt64) {chunk : VomChunkPlan} {st : TickState F}
    {l : VomAssignmentLease} (hl : l ∈ activeLeases st.leases) (hne : l.chunkId ≠ chunk.chunkId) :
    l ∈ activeLeases (afterExpiry now chunk st).leases := by
  rcases List.mem_append.mp ((afterExpiry_account now chunk st).1.mem_iff.mp hl) with h | h
  · exfalso
    unfold expiredBy at h
    split at h
    · simp at h
    · rw [Option.mem_toList, Option.filter_eq_some_iff] at h
      exact hne (leaseOf_iff.mp (List.find?_some h.1)).1
  · exact h

section Tick

variable [DoubleArith F]

/-- The worker an iteration raises passed the hard filters, for a chunk that holds no lease. -/
theorem raisedBy_spec {now : UInt64} {chunk : VomChunkPlan} {st : TickState F} {i : Nat}
    (hr : raisedBy now chunk st = some i) :
    afterExpiry now chunk st = (expireLease now chunk st).1 ∧
    (expireLease now chunk st).2 ≠ true ∧
    ∃ target, (afterExpiry now chunk st).workers[i]? = some target ∧
      evaluateHardFilters chunk target = true := by
  unfold raisedBy at hr
  split at hr
  · cases hr
  · rename_i hlive
    obtain ⟨hb, hl⟩ := not_or.mp hlive
    have hmid : afterExpiry now chunk st = (expireLease now chunk st).1 := by simp [afterExpiry, hb]
    exact ⟨hmid, hl, hmid ▸ bestWorker_spec hr⟩

/-- **A raised reservation has its lease**: in a state with the lease invariant, the iteration that
    raises worker `i` stores the new lease as active and writes it out. -/
theorem tickChunk_raises (now : UInt64) {chunk : VomChunkPlan} {chunks : List VomChunkPlan}
    {st : TickState F} (hI : LeaseInv chunks st.leases) (hc : chunk ∈ chunks) {i : Nat}
    (hr : raisedBy now chunk st = some i) :
    ∃ target leases, (afterExpiry now chunk st).workers[i]? = some target ∧
      place (fun l => !l.isActive) maxSchunks (newLease now chunk target)
        (afterExpiry now chunk st).leases = some leases ∧
      tickChunk now chunk st = ⟨(afterExpiry now chunk st).workers.set i (target.reserve chunk),
        leases, st.outLeases ++ [newLease now chunk target]⟩ := by
  have hout := (afterExpiry_account now chunk st).2
  have htick := tickChunk_raisedBy now chunk st
  rw [hr, Option.elim_some] at htick
  obtain ⟨hmid, hl, target, hi, _⟩ := raisedBy_spec hr
  have hfree : LeaseInv chunks (afterExpiry now chunk st).leases ∧
      (afterExpiry now chunk st).leases.find? (leaseOf chunk.chunkId) = none := by
    rw [hmid]
    rcases expireLease_cases now chunk st with ⟨he, hno⟩ | ⟨st', he, hexp⟩ | he
    · rw [he]
      exact ⟨hI, hno⟩
    · rw [he]
      exact ⟨hexp.leaseInv hI, hexp.noLease hI.activeNodup⟩
    · exact absurd (by rw [he]) hl
  obtain ⟨leases, hp⟩ := hfree.1.place_lease hc hfree.2 (newLease now chunk target)
  refine ⟨target, leases, hi, hp, ?_⟩
  rw [htick, ← hout]
  exact dispatch_eq hi hp

/-- What one iteration adds to `out_leases` and to the active leases. -/
theorem tickChunk_account (now : UInt64) {chunk : VomChunkPlan} {chunks : List VomChunkPlan}
    {st : TickState F} (hI : LeaseInv chunks st.leases) (hc : chunk ∈ chunks) :
    ∃ granted, (tickChunk now chunk st).outLeases = st.outLeases ++ granted ∧
      (activeLeases (tickChunk now chunk st).leases ++ (expiredBy now chunk st).toList).Perm
        (activeLeases st.leases ++ granted) ∧
      granted.length = (raisedBy now chunk st).toList.length ∧
      ∀ l ∈ granted, l.chunkId = chunk.chunkId ∧
        l ∈ activeLeases (tickChunk now chunk st).leases := by
  obtain ⟨hexp, hout⟩ := afterExpiry_account now chunk st
  cases hr : raisedBy now chunk st with
  | none =>
    have htick : tickChunk now chunk st = afterExpiry now chunk st := by
      rw [tickChunk_raisedBy, hr, Option.elim_none]
    refine ⟨[], by rw [htick, hout, List.append_nil], ?_, rfl, by simp⟩
    rw [htick, List.append_nil]
    exact List.perm_append_comm.trans hexp.symm
  | some i =>
    obtain ⟨target, leases, _, hp, htick⟩ := tickChunk_raises now hI hc hr
    have hactive := activeLeases_place hp rfl
    refine ⟨[newLease now chunk target], by rw [htick], ?_, rfl, fun l hl => ?_⟩
    · rw [htick]
      calc activeLeases leases ++ (expiredBy now chunk st).toList
        _ ~ newLease now chunk target :: (activeLeases (afterExpiry now chunk st).leases ++
              (expiredBy now chunk st).toList) := hactive.append_right _
        _ ~ newLease now chunk target :: activeLeases st.leases :=
              (List.perm_append_comm.trans hexp.symm).cons _
        _ ~ activeLeases st.leases ++ [newLease now chunk target] :=
              (List.perm_append_singleton _ _).symm
    · rw [List.mem_singleton.mp hl, htick]
      exact ⟨rfl, hactive.mem_iff.mpr List.mem_cons_self⟩

/-- An iteration keeps the leases of the other chunks. -/
theorem tickChunk_keeps (now : UInt64) {chunk : VomChunkPlan} {chunks : List VomChunkPlan}
    {st : TickState F} (hI : LeaseInv chunks st.leases) (hc : chunk ∈ chunks)
    {l : VomAssignmentLease} (hl : l ∈ activeLeases st.leases) (hne : l.chunkId ≠ chunk.chunkId) :
    l ∈ activeLeases (tickChunk now chunk st).leases := by
  have hmid := afterExpiry_keeps now hl hne
  cases hr : raisedBy now chunk st with
  | none =>
    rw [tickChunk_raisedBy, hr, Option.elim_none]
    exact hmid
  | some i =>
    obtain ⟨target, leases, _, hp, htick⟩ := tickChunk_raises now hI hc hr
    rw [htick]
    exact (activeLeases_place hp rfl).mem_iff.mpr (List.mem_cons_of_mem _ hmid)

/-! ## 2. The loop -/

/-- Two accounts in a row: what is active after the second, with what each took, is what was active
    before the first, with what each gave. -/
theorem perm_account {α : Type} {a a₁ a₂ e₁ e₂ g₁ g₂ : List α} (h₁ : (a₁ ++ e₁).Perm (a ++ g₁))
    (h₂ : (a₂ ++ e₂).Perm (a₁ ++ g₂)) : (a₂ ++ (e₁ ++ e₂)).Perm (a ++ (g₁ ++ g₂)) :=
  calc a₂ ++ (e₁ ++ e₂)
    _ ~ a₂ ++ e₂ ++ e₁ := by
        rw [List.append_assoc]
        exact List.perm_append_comm.append_left _
    _ ~ a₁ ++ g₂ ++ e₁ := h₂.append_right _
    _ ~ a₁ ++ e₁ ++ g₂ := by
        rw [List.append_assoc, List.append_assoc]
        exact List.perm_append_comm.append_left _
    _ ~ a ++ (g₁ ++ g₂) := by
        rw [← List.append_assoc]
        exact h₁.append_right _

/-- The iterations the loop runs before it ends or breaks: each chunk with the state it meets. -/
def tickVisits (now : UInt64) (maxLeases : Int) :
    List VomChunkPlan → TickState F → List (VomChunkPlan × TickState F)
  | [], _ => []
  | chunk :: rest, st =>
    if (st.outLeases.length : Int) ≥ maxLeases then []
    else (chunk, st) :: tickVisits now maxLeases rest (tickChunk now chunk st)

/-- **Every iteration starts from what the iterations keep**, at a chunk of the table. -/
theorem tickVisits_invariant (now : UInt64) (maxLeases : Int) {chunks : List VomChunkPlan}
    {P : TickState F → Prop}
    (hstep : ∀ c ∈ chunks, ∀ st, LeaseInv chunks st.leases → P st → P (tickChunk now c st)) :
    ∀ (rest : List VomChunkPlan) (st : TickState F), rest ⊆ chunks → LeaseInv chunks st.leases →
      P st → ∀ v ∈ tickVisits now maxLeases rest st,
        v.1 ∈ chunks ∧ LeaseInv chunks v.2.leases ∧ P v.2
  | [], _, _, _, _, v, hv => absurd hv List.not_mem_nil
  | c :: rest, st, hsub, hI, hP, v, hv => by
      unfold tickVisits at hv
      split at hv
      · exact absurd hv List.not_mem_nil
      · have hc : c ∈ chunks := hsub List.mem_cons_self
        rcases List.mem_cons.mp hv with rfl | hv
        · exact ⟨hc, hI, hP⟩
        · exact tickVisits_invariant now maxLeases hstep rest _
            (fun x hx => hsub (List.mem_cons_of_mem _ hx)) (tickChunk_leaseInv now hI hc)
            (hstep c hc st hI hP) v hv

/-- The loop keeps the leases of the chunks it has passed. -/
theorem tickLoop_keeps (now : UInt64) (maxLeases : Int) {chunks : List VomChunkPlan}
    {l : VomAssignmentLease} :
    ∀ (rest : List VomChunkPlan) (st : TickState F), rest ⊆ chunks → LeaseInv chunks st.leases →
      l ∈ activeLeases st.leases → l.chunkId ∉ rest.map (·.chunkId) →
      l ∈ activeLeases (tickLoop now maxLeases rest st).leases
  | [], _, _, _, hl, _ => hl
  | c :: rest, st, hsub, hI, hl, hno => by
      unfold tickLoop
      split
      · exact hl
      · have hc : c ∈ chunks := hsub List.mem_cons_self
        rw [List.map_cons, List.mem_cons, not_or] at hno
        exact tickLoop_keeps now maxLeases rest _ (fun x hx => hsub (List.mem_cons_of_mem _ hx))
          (tickChunk_leaseInv now hI hc) (tickChunk_keeps now hI hc hl hno.1) hno.2

/-- **The account of the loop**: `out_leases` grows by the granted leases, the active leases gain
    exactly these and lose exactly the expired ones, and one lease is granted for each raised
    reservation. -/
theorem tickLoop_account (now : UInt64) (maxLeases : Int) {chunks : List VomChunkPlan} :
    ∀ (rest : List VomChunkPlan) (st : TickState F), rest ⊆ chunks →
      (rest.map (·.chunkId)).Nodup → LeaseInv chunks st.leases →
      ∃ granted, (tickLoop now maxLeases rest st).outLeases = st.outLeases ++ granted ∧
        (activeLeases (tickLoop now maxLeases rest st).leases ++
          (tickVisits now maxLeases rest st).filterMap (fun v => expiredBy now v.1 v.2)).Perm
          (activeLeases st.leases ++ granted) ∧
        granted.length =
          ((tickVisits now maxLeases rest st).filterMap (fun v => raisedBy now v.1 v.2)).length ∧
        ∀ l ∈ granted, l ∈ activeLeases (tickLoop now maxLeases rest st).leases
  | [], st, _, _, _ => ⟨[], by simp [tickLoop, tickVisits]⟩
  | c :: rest, st, hsub, hnd, hI => by
      unfold tickLoop tickVisits
      split
      · exact ⟨[], by simp⟩
      · have hc : c ∈ chunks := hsub List.mem_cons_self
        have hrest : rest ⊆ chunks := fun x hx => hsub (List.mem_cons_of_mem _ hx)
        rw [List.map_cons, List.nodup_cons] at hnd
        have hI' := tickChunk_leaseInv now hI hc
        obtain ⟨g₁, hout₁, hperm₁, hlen₁, hid₁⟩ := tickChunk_account now hI hc
        obtain ⟨g₂, hout₂, hperm₂, hlen₂, hact₂⟩ :=
          tickLoop_account now maxLeases rest (tickChunk now c st) hrest hnd.2 hI'
        refine ⟨g₁ ++ g₂, by rw [hout₂, hout₁, List.append_assoc], ?_, ?_, ?_⟩
        · rw [filterMap_cons_toList]
          exact perm_account hperm₁ hperm₂
        · rw [filterMap_cons_toList, List.length_append, List.length_append, hlen₁, hlen₂]
        · intro l hl
          rcases List.mem_append.mp hl with hl | hl
          · -- granted in this iteration: the later ones are about other chunks
            obtain ⟨hid, hnow⟩ := hid₁ l hl
            refine tickLoop_keeps now maxLeases rest _ hrest hI' hnow ?_
            rw [hid]
            exact hnd.1
          · exact hact₂ l hl

/-- An iteration writes at most one lease. -/
theorem tickChunk_outLeases_le (now : UInt64) (chunk : VomChunkPlan) (st : TickState F) :
    (tickChunk now chunk st).outLeases.length ≤ st.outLeases.length + 1 := by
  have hout := (afterExpiry_account now chunk st).2
  rw [tickChunk_raisedBy]
  cases raisedBy now chunk st with
  | none => simp [hout]
  | some i =>
    show (dispatch now chunk i (afterExpiry now chunk st)).outLeases.length ≤ _
    unfold dispatch
    cases (afterExpiry now chunk st).workers[i]? with
    | none => simp [hout]
    | some target =>
      cases hp : place (fun l => !l.isActive) maxSchunks (newLease now chunk target)
        (afterExpiry now chunk st).leases <;> simp [hp, hout]

/-- The loop writes no lease past `max_leases`. -/
theorem tickLoop_outLeases_le (now : UInt64) (maxLeases : Int) :
    ∀ (rest : List VomChunkPlan) (st : TickState F),
      (st.outLeases.length : Int) ≤ max 0 maxLeases →
      ((tickLoop now maxLeases rest st).outLeases.length : Int) ≤ max 0 maxLeases
  | [], _, h => h
  | c :: rest, st, h => by
      unfold tickLoop
      split
      · exact h
      · rename_i hroom
        refine tickLoop_outLeases_le now maxLeases rest _ ?_
        have hone := tickChunk_outLeases_le now c st
        omega

/-! ## 3. Every tick of every run -/

/-- **No lease is lost or doubled, on every run**: active leases have distinct chunk ids, all in the
    chunk table. So in every tick from there each iteration either leaves the reservations as the
    expiry made them, or raises one worker's, stores the new lease as active and writes it to
    `out_leases`; over the whole tick the written leases are exactly those newly active, one for
    each raised reservation, and at most `max(0, max_leases)`. -/
theorem tick_leases_what_it_raises (ops : List (SchedulerOp F)) :
    let s := schedulerMachine.run vomSchedulerInit ops
    ((activeLeases s.leases).map (·.chunkId)).Nodup ∧
    (∀ l ∈ activeLeases s.leases, l.chunkId ∈ s.chunks.map (·.chunkId)) ∧
    ∀ (now : UInt64) (maxLeases : Int),
      let visits := tickVisits now maxLeases s.chunks (tickStart s)
      let s' := (vomSchedulerTick s now maxLeases).1
      let out := (vomSchedulerTick s now maxLeases).2
      (∀ v ∈ visits,
        (raisedBy now v.1 v.2 = none ∧ tickChunk now v.1 v.2 = afterExpiry now v.1 v.2) ∨
        ∃ i target, raisedBy now v.1 v.2 = some i ∧
          (afterExpiry now v.1 v.2).workers[i]? = some target ∧
          (tickChunk now v.1 v.2).workers =
            (afterExpiry now v.1 v.2).workers.set i (target.reserve v.1) ∧
          newLease now v.1 target ∈ activeLeases (tickChunk now v.1 v.2).leases ∧
          (tickChunk now v.1 v.2).outLeases = v.2.outLeases ++ [newLease now v.1 target]) ∧
      (activeLeases s'.leases ++ visits.filterMap (fun v => expiredBy now v.1 v.2)).Perm
        (activeLeases s.leases ++ out) ∧
      (∀ l ∈ out, l ∈ activeLeases s'.leases) ∧
      out.length = (visits.filterMap (fun v => raisedBy now v.1 v.2)).length ∧
      (out.length : Int) ≤ max 0 maxLeases := by
  intro s
  have hI : LeaseInv s.chunks s.leases := leaseInv_run ops
  refine ⟨hI.activeNodup, hI.activeChunk, fun now maxLeases => ?_⟩
  intro visits s' out
  obtain ⟨granted, hout, hperm, hlen, hact⟩ := tickLoop_account now maxLeases s.chunks (tickStart s)
    (List.Subset.refl _) hI.chunksNodup hI
  have hout' : out = granted := by
    show (tickLoop now maxLeases s.chunks (tickStart s)).outLeases = granted
    rw [hout]
    rfl
  refine ⟨fun v hv => ?_, ?_, ?_, ?_, ?_⟩
  · obtain ⟨hc, hIv, _⟩ := tickVisits_invariant now maxLeases (P := fun _ => True)
      (fun _ _ _ _ h => h) s.chunks (tickStart s) (List.Subset.refl _) hI trivial v hv
    cases hr : raisedBy now v.1 v.2 with
    | none =>
      left
      exact ⟨rfl, by rw [tickChunk_raisedBy, hr, Option.elim_none]⟩
    | some i =>
      right
      obtain ⟨target, leases, hi, hp, htick⟩ := tickChunk_raises now hIv hc hr
      refine ⟨i, target, rfl, hi, by rw [htick], ?_, by rw [htick]⟩
      rw [htick]
      exact (activeLeases_place hp rfl).mem_iff.mpr List.mem_cons_self
  · rw [hout']
    exact hperm
  · rw [hout']
    exact hact
  · rw [hout']
    exact hlen
  · exact tickLoop_outLeases_le now maxLeases s.chunks (tickStart s) (Int.le_max_left 0 maxLeases)

end Tick

end VoidOsMerger
