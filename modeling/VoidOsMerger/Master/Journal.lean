/-
  File:      VoidOsMerger/Master/Journal.lean
  Subject:   WHAT THE JOURNAL HOLDS BETWEEN TWO ITERATIONS OF THE EVENT LOOP, and what a restarted
             master and the dashboard make of it.

  The loop writes the cluster state to the journal whenever a second has passed since the last write.
  The messages are any messages: the statements do not depend on what comes over the socket.

  * `masterIteration_journal` -- one iteration writes the state it ends with, or leaves the file;
  * `journalled_run` -- after every run the file is the image of the state after one of its iterations,
    less than a second back;
  * **`journal_lags_a_second`** -- which is what a master restarted at that moment recovers;
  * **`dashboard_lags_a_second`** -- and, for a master that started without a journal, what the
    dashboard shows.
-/
import VoidOsMerger.Master.Identity
import VoidOsMerger.Webui.Roundtrip

namespace VoidOsMerger

/-! ## 1. One iteration -/

/-- What the reception of an iteration changes: the inbox, and whatever the handler does. -/
theorem receiveMessage_cases {tick : MasterTick} {s t : MasterState} {p : Option Processed}
    (h : receiveMessage tick s = some (t, p)) :
    (∃ inbox, t = { s with inbox := inbox }) ∨
    ∃ inbox idBuf env payload, handleMessage tick idBuf env payload { s with inbox := inbox } = some t := by
  unfold receiveMessage at h
  split at h
  · cases h
    exact Or.inl ⟨s.inbox, rfl⟩
  · split at h
    · cases h
      exact Or.inl ⟨_, rfl⟩
    · split at h
      · cases h
      · dsimp only at h
        split at h
        · cases h
        · split at h
          · cases h
          · split at h
            · cases h
              exact Or.inl ⟨_, rfl⟩
            · split at h
              · cases h
                exact Or.inl ⟨_, rfl⟩
              · obtain ⟨t', ht', hpair⟩ := Option.map_eq_some_iff.mp h
                obtain ⟨rfl, -⟩ := Prod.mk.inj hpair
                exact Or.inr ⟨_, _, _, _, ht'⟩

/-- The handler does not touch the journal. -/
theorem handleMessage_files {tick : MasterTick} {idBuf payload : List UInt8}
    {env : VomRouterEnvelope} {s s' : MasterState}
    (h : handleMessage tick idBuf env payload s = some s') :
    s'.files = s.files ∧ s'.lastWalPersistMs = s.lastWalPersistMs := by
  unfold handleMessage at h
  split at h
  · obtain ⟨r, _, rfl⟩ := Option.map_eq_some_iff.mp h
    exact ⟨rfl, rfl⟩
  · split at h
    · obtain ⟨r, _, rfl⟩ := Option.map_eq_some_iff.mp h
      exact ⟨rfl, rfl⟩
    · cases h
      exact ⟨rfl, rfl⟩

theorem receiveMessage_files {tick : MasterTick} {s t : MasterState} {p : Option Processed}
    (h : receiveMessage tick s = some (t, p)) :
    t.files = s.files ∧ t.lastWalPersistMs = s.lastWalPersistMs := by
  rcases receiveMessage_cases h with ⟨inbox, rfl⟩ | ⟨inbox, idBuf, env, payload, hhandle⟩
  · exact ⟨rfl, rfl⟩
  · exact handleMessage_files (s := { s with inbox := inbox }) hhandle

/-- **The journal's part of an iteration**: a second after the last write the state the iteration ends
    with is written, before that nothing is. -/
theorem masterIteration_journal {tick : MasterTick} {s s' : MasterState} {p : Option Processed}
    (h : masterIteration tick s = some (s', p)) :
    (1000 ≤ tick.nowMs - s.lastWalPersistMs ∧ s'.lastWalPersistMs = tick.nowMs ∧
      s'.files = (clusterStatePersistToWal tick.persist walPathDefault s'.cluster s.files).2) ∨
    (¬ 1000 ≤ tick.nowMs - s.lastWalPersistMs ∧ s'.lastWalPersistMs = s.lastWalPersistMs ∧
      s'.files = s.files) := by
  obtain ⟨r, hr, hpair⟩ := Option.map_eq_some_iff.mp h
  obtain ⟨hs, -⟩ := Prod.mk.inj hpair
  obtain ⟨hfiles, hlast⟩ := receiveMessage_files hr
  -- the scheduler's timer changes nothing the journal depends on
  generalize ht : (if 1000 ≤ tick.nowMs - r.1.lastSchedulerTickMs then
    { r.1 with lastSchedulerTickMs := tick.nowMs } else r.1) = t at hs
  have htfiles : t.files = s.files := by
    rw [← ht]
    split <;> exact hfiles
  have htlast : t.lastWalPersistMs = s.lastWalPersistMs := by
    rw [← ht]
    split <;> exact hlast
  rw [← htfiles, ← htlast, ← hs]
  by_cases hdue : 1000 ≤ tick.nowMs - t.lastWalPersistMs
  · rw [if_pos hdue]
    exact Or.inl ⟨hdue, rfl, rfl⟩
  · rw [if_neg hdue]
    exact Or.inr ⟨hdue, rfl, rfl⟩

/-! ## 2. A run -/

theorem masterLoop_snoc (tick : MasterTick) : ∀ (ticks : List MasterTick) (s : MasterState),
    masterLoop (ticks ++ [tick]) s = (masterLoop ticks s).bind fun r =>
      (masterIteration tick r.1).map fun q => (q.1, r.2 ++ q.2.toList)
  | [], s => by
      rw [List.nil_append, masterLoop, masterLoop, Option.bind_some]
      cases masterIteration tick s with
      | none => rfl
      | some q => simp [masterLoop]
  | t :: ticks, s => by
      rw [List.cons_append, masterLoop, masterLoop]
      cases masterIteration t s with
      | none => rfl
      | some q =>
        rw [Option.bind_some, Option.bind_some, masterLoop_snoc tick ticks q.1]
        cases masterLoop ticks q.1 with
        | none => rfl
        | some r =>
          rw [Option.bind_some, Option.map_some, Option.bind_some, Option.map_map]
          simp only [Function.comp_def, List.append_assoc]

/-- A last iteration, taken off a run. -/
theorem masterLoop_snoc_some {tick : MasterTick} {ticks : List MasterTick} {s s' : MasterState}
    {ps : List Processed} (h : masterLoop (ticks ++ [tick]) s = some (s', ps)) :
    ∃ t qs p, masterLoop ticks s = some (t, qs) ∧ masterIteration tick t = some (s', p) := by
  rw [masterLoop_snoc] at h
  obtain ⟨r, hr, hlast⟩ := Option.bind_eq_some_iff.mp h
  obtain ⟨q, hq, hpair⟩ := Option.map_eq_some_iff.mp hlast
  obtain ⟨rfl, -⟩ := Prod.mk.inj hpair
  exact ⟨r.1, r.2, q.2, hr, hq⟩

/-- The journal is the image of the state after an iteration less than a second back. -/
structure JournalledAt (s₀ : MasterState) (ticks : List MasterTick) (s : MasterState)
    (before : List MasterTick) (tick : MasterTick) (after : List MasterTick) (t : MasterState) : Prop where
  split : ticks = before ++ tick :: after
  reached : ∃ ps, masterLoop (before ++ [tick]) s₀ = some (t, ps)
  image : s.files walPathDefault = some (snapshotCodec.enc t.cluster)
  stamp : s.lastWalPersistMs = tick.nowMs
  recent : ∀ u ∈ after, u.nowMs.toNat < tick.nowMs.toNat + 1000

/-- The clock starts after the first second and does not go back, and every write is complete. -/
structure OrderlyTicks (ticks : List MasterTick) : Prop where
  forward : (ticks.map (·.nowMs)).Pairwise (· ≤ ·)
  started : ∀ t ∈ ticks, 1000 ≤ t.nowMs
  written : ∀ t ∈ ticks, ∃ n, t.persist = .written n ∧ snapshotCodec.size ≤ n

theorem OrderlyTicks.init {ticks : List MasterTick} {tick : MasterTick}
    (h : OrderlyTicks (ticks ++ [tick])) :
    OrderlyTicks ticks ∧ ∀ t ∈ ticks, t.nowMs ≤ tick.nowMs := by
  have hforward := h.forward
  rw [List.map_append, List.pairwise_append] at hforward
  refine ⟨⟨hforward.1, fun t ht => h.started t (List.mem_append_left _ ht),
    fun t ht => h.written t (List.mem_append_left _ ht)⟩, fun t ht => ?_⟩
  exact hforward.2.2 t.nowMs (List.mem_map_of_mem ht) tick.nowMs (List.mem_singleton_self _)

/-- Less than a second has passed. -/
theorem recent_of_not_due {last now : UInt64} (hle : last ≤ now) (h : ¬ 1000 ≤ now - last) :
    now.toNat < last.toNat + 1000 := by
  have hlt : (now - last).toNat < (1000 : UInt64).toNat :=
    UInt64.lt_iff_toNat_lt.mp (UInt64.not_le.mp h)
  rw [UInt64.toNat_sub_of_le now last hle] at hlt
  have hsecond : (1000 : UInt64).toNat = 1000 := rfl
  omega

theorem journalled_run {s₀ : MasterState} (hfirst : s₀.lastWalPersistMs = 0)
    (ticks : List MasterTick) (hticks : OrderlyTicks ticks) (hsome : ticks ≠ []) {s : MasterState}
    {ps : List Processed} (hrun : masterLoop ticks s₀ = some (s, ps)) :
    ∃ before tick after t, JournalledAt s₀ ticks s before tick after t := by
  induction ticks using List.reverseRecOn generalizing s ps with
  | nil => exact absurd rfl hsome
  | append_singleton ticks tick ih =>
    obtain ⟨hticks', hlate⟩ := hticks.init
    obtain ⟨t, qs, p, hbefore, hiteration⟩ := masterLoop_snoc_some hrun
    obtain ⟨n, hpersist, hn⟩ := hticks.written tick (by simp)
    rcases masterIteration_journal hiteration with ⟨-, hstamp, hfiles⟩ | ⟨hnot, hstamp, hfiles⟩
    · -- this iteration writes
      refine ⟨ticks, tick, [], s, rfl, ⟨ps, hrun⟩, ?_, hstamp, fun u hu => absurd hu List.not_mem_nil⟩
      rw [hfiles, hpersist, persist_file, snapshotCodec.take_enc_whole s.cluster hn]
    · -- an earlier one has written, less than a second before
      have hsome' : ticks ≠ [] := by
        rintro rfl
        cases hbefore
        rw [hfirst, UInt64.sub_zero] at hnot
        exact hnot (hticks.started tick (by simp))
      obtain ⟨before, written, after, t', hat⟩ := ih hticks' hsome' hbefore
      refine ⟨before, written, after ++ [tick], t', ?_, hat.reached, ?_, ?_, ?_⟩
      · rw [hat.split, List.append_assoc, List.cons_append]
      · rw [hfiles]
        exact hat.image
      · rw [hstamp]
        exact hat.stamp
      · intro u hu
        rcases List.mem_append.mp hu with hu | hu
        · exact hat.recent u hu
        · rw [List.mem_singleton.mp hu]
          rw [hat.stamp] at hnot
          exact recent_of_not_due (hlate written (by rw [hat.split]; simp)) hnot

/-- A whole image is recovered, with the next generation. -/
theorem recover_image {files : Files} {path : CStr} {c : ClusterStateSnapshot}
    (h : files path = some (snapshotCodec.enc c)) (fresh : ClusterStateSnapshot) :
    clusterStateRecoverFromWal true path fresh files = (true, bumpGeneration c) := by
  unfold clusterStateRecoverFromWal
  rw [h]
  dsimp only
  rw [if_neg (by simp [snapshotCodec.length_enc]), snapshotCodec.take_enc_whole c (Nat.le_refl _),
    snapshotCodec.dec_enc]
  rfl

/-- **A master that is stopped between two iterations loses less than a second**: after every run of
    the event loop, whatever messages came, where every write is complete and the clock does not go back,
    a restarted master recovers the state that the loop had after one of its iterations, its generation
    one higher, and no later iteration was a second later or more. -/
theorem journal_lags_a_second (s₀ : MasterState) (hfirst : s₀.lastWalPersistMs = 0)
    (ticks : List MasterTick) (hticks : OrderlyTicks ticks) (hsome : ticks ≠ []) (s : MasterState)
    (ps : List Processed) (hrun : masterLoop ticks s₀ = some (s, ps)) :
    ∃ before tick after t qs, ticks = before ++ tick :: after ∧
      masterLoop (before ++ [tick]) s₀ = some (t, qs) ∧
      (∀ u ∈ after, u.nowMs.toNat < tick.nowMs.toNat + 1000) ∧
      ∀ fresh, clusterStateRecoverFromWal true walPathDefault fresh s.files =
        (true, bumpGeneration t.cluster) := by
  obtain ⟨before, tick, after, t, hat⟩ := journalled_run hfirst ticks hticks hsome hrun
  obtain ⟨qs, hreached⟩ := hat.reached
  exact ⟨before, tick, after, t, qs, hat.split, hreached, hat.recent, recover_image hat.image⟩

/-- Two iterations half a second apart, with complete writes. -/
def twoTicks : List MasterTick :=
  [{ plainTick with nowMs := 1000, persist := .written 4488 },
    { plainTick with nowMs := 1500, persist := .written 4488 }]

theorem twoTicks_orderly : OrderlyTicks twoTicks where
  forward := by decide
  started := by decide
  written := by
    have hsize : snapshotCodec.size ≤ 4488 := by decide
    intro t ht
    rcases List.mem_pair.mp ht with rfl | rfl
    · exact ⟨4488, rfl, hsize⟩
    · exact ⟨4488, rfl, hsize⟩

theorem journal_lags_a_second_twoTicks :
    OrderlyTicks twoTicks ∧ ∃ s ps, masterLoop twoTicks (masterStart freshCluster (fun _ => none) []) =
      some (s, ps) ∧ ∃ before tick after t qs, twoTicks = before ++ tick :: after ∧
        masterLoop (before ++ [tick]) (masterStart freshCluster (fun _ => none) []) = some (t, qs) ∧
        (∀ u ∈ after, u.nowMs.toNat < tick.nowMs.toNat + 1000) ∧
        ∀ fresh, clusterStateRecoverFromWal true walPathDefault fresh s.files =
          (true, bumpGeneration t.cluster) := by
  obtain ⟨s, hrun⟩ := masterLoop_idle twoTicks (s := masterStart freshCluster (fun _ => none) []) rfl
  exact ⟨twoTicks_orderly, s, [], hrun, journal_lags_a_second _ rfl twoTicks twoTicks_orderly
    (List.cons_ne_nil _ _) s [] hrun⟩

/-! ## 3. The dashboard -/

/-- What the reader needs of a state, and what a master without a journal keeps. -/
structure Displayable (uuid : Vector UInt8 uuidStrMax) (c : ClusterStateSnapshot) : Prop where
  wellFormed : WellFormed c
  spare : SpareZero c
  members : ∀ w ∈ c.workers, w.workerId ≠ 0
  noLease : c.leases = []
  uuid : c.clusterUuid = uuid

/-- The loop never takes a worker for number 0. -/
theorem workerNumber_ne_zero (idBuf : List UInt8) : workerNumber idBuf ≠ 0 := by
  unfold workerNumber
  dsimp only
  split
  · decide
  · assumption

theorem Displayable.bump {uuid : Vector UInt8 uuidStrMax} {c : ClusterStateSnapshot}
    (h : Displayable uuid c) : Displayable uuid (bumpGeneration c) :=
  ⟨h.wellFormed.withGeneration _, ⟨h.spare.workers, h.spare.leases⟩, h.members, h.noLease, h.uuid⟩

theorem Handled.displayable {tick : MasterTick} {idBuf payload : List UInt8} {env : VomRouterEnvelope}
    {c c' : ClusterStateSnapshot} (h : Handled tick idBuf env payload c c')
    {uuid : Vector UInt8 uuidStrMax} (hc : Displayable uuid c) : Displayable uuid c' := by
  have hcounts := hc.wellFormed.countsInRange
  cases h with
  | refused _ _ => exact hc.bump
  | joined _ hroom hnew =>
    refine Displayable.bump ⟨registered_wellFormed hc.wellFormed hroom hnew, ⟨?_, hc.spare.leases⟩, ?_,
      hc.noLease, hc.uuid⟩
    · rw [registered_spareWorkers hcounts hroom]
      exact fun w hw => hc.spare.workers w (List.mem_of_mem_drop hw)
    · rw [registered_workers hcounts hroom]
      refine List.forall_mem_append.mpr ⟨hc.members, fun w hw => ?_⟩
      rw [List.mem_singleton.mp hw]
      exact workerNumber_ne_zero idBuf
  | unknown _ _ => exact hc.bump
  | @heard _ i old hslot _ =>
    obtain ⟨hlt, -⟩ := List.getElem?_eq_some_iff.mp hslot
    refine Displayable.bump ⟨beaten_wellFormed hc.wellFormed hslot tick.nowMs, ⟨?_, hc.spare.leases⟩, ?_,
      hc.noLease, hc.uuid⟩
    · rw [beaten_spareWorkers hlt]
      exact hc.spare.workers
    · rw [beaten_workers]
      intro w hw
      rcases List.mem_or_eq_of_mem_set hw with hw | rfl
      · exact hc.members w hw
      · exact hc.members old (List.mem_of_getElem? hslot)
  | ignored _ _ => exact hc

theorem create_displayable (uuid : CStr) (initialEpoch : UInt64) :
    Displayable (clusterStateCreate uuid initialEpoch).masterState.clusterUuid
      (clusterStateCreate uuid initialEpoch).masterState where
  wellFormed := create_wellFormed uuid initialEpoch
  spare := create_spareZero uuid initialEpoch
  members := fun _ hw => absurd hw List.not_mem_nil
  noLease := rfl
  uuid := rfl

theorem displayable_iteration {uuid : Vector UInt8 uuidStrMax} {tick : MasterTick}
    {s s' : MasterState} {p : Option Processed} (hs : Displayable uuid s.cluster)
    (h : masterIteration tick s = some (s', p)) : Displayable uuid s'.cluster := by
  obtain ⟨r, hr, hpair⟩ := Option.map_eq_some_iff.mp h
  obtain ⟨hs', -⟩ := Prod.mk.inj hpair
  have hcluster : s'.cluster = r.1.cluster := by
    rw [← hs']
    split
    · split <;> rfl
    · split <;> rfl
  rw [hcluster]
  rcases receiveMessage_cases hr with ⟨inbox, ht⟩ | ⟨inbox, idBuf, env, payload, hhandle⟩
  · rw [ht]
    exact hs
  · obtain ⟨t, ht, hcase⟩ := handleMessage_cases tick idBuf env payload { s with inbox := inbox }
      hs.wellFormed.countsInRange
    rw [hhandle] at ht
    rw [Option.some.inj ht]
    exact hcase.displayable hs

theorem displayable_run {uuid : Vector UInt8 uuidStrMax} :
    ∀ (ticks : List MasterTick) {s s' : MasterState} {ps : List Processed},
      Displayable uuid s.cluster → masterLoop ticks s = some (s', ps) → Displayable uuid s'.cluster
  | [], s, s', ps, hs, h => by
      cases h
      exact hs
  | tick :: ticks, s, s', ps, hs, h => by
      obtain ⟨r, hr, hrest⟩ := Option.bind_eq_some_iff.mp h
      obtain ⟨q, hq, hpair⟩ := Option.map_eq_some_iff.mp hrest
      obtain ⟨rfl, -⟩ := Prod.mk.inj hpair
      exact displayable_run ticks (displayable_iteration hs hr) hq

section Dashboard

variable {F : Type} [PyNumber F]

/-- The reader on the image of a displayable state. -/
theorem parseWal_displayable (readTime : F) {uuid : Vector UInt8 uuidStrMax} {c : ClusterStateSnapshot}
    (h : Displayable uuid c) (hascii : ∀ b ∈ (CStr.upTo uuid.toList).bytes, b < 0x80) :
    parseWal readTime (some (snapshotCodec.enc c)) = .ok (some (c.shown readTime)) := by
  have hlen : ¬ (snapshotCodec.enc c).length < 84 := by
    rw [snapshotCodec.length_enc]
    decide
  have hleases : ∀ l ∈ c.leases, l.chunkId ≠ 0 := by
    rw [h.noLease]
    exact fun l hl => absurd hl List.not_mem_nil
  unfold parseWal
  dsimp only
  rw [if_neg hlen, parseImage_enc readTime h.wellFormed.countsInRange h.spare h.members hleases
    (h.uuid ▸ hascii)]
  rfl

/-- **Between two iterations the dashboard shows the master's state of less than a second before**, for
    a master that started without a journal, whatever messages came, where every write is complete and
    the clock does not go back. -/
theorem dashboard_lags_a_second (readTime : F) (uuid : CStr) (initialEpoch : UInt64) (files : Files)
    (arrivals : List WorkerMessage)
    (hascii : ∀ b ∈ (CStr.upTo (clusterStateCreate uuid initialEpoch).masterState.clusterUuid.toList).bytes,
      b < 0x80)
    (ticks : List MasterTick) (hticks : OrderlyTicks ticks) (hsome : ticks ≠ []) (s : MasterState)
    (ps : List Processed)
    (hrun : masterLoop ticks (masterStart (clusterStateCreate uuid initialEpoch).masterState files
      arrivals) = some (s, ps)) :
    ∃ before tick after t qs, ticks = before ++ tick :: after ∧
      masterLoop (before ++ [tick]) (masterStart (clusterStateCreate uuid initialEpoch).masterState files
        arrivals) = some (t, qs) ∧
      (∀ u ∈ after, u.nowMs.toNat < tick.nowMs.toNat + 1000) ∧
      parseWal readTime (s.files walPathDefault) = .ok (some (t.cluster.shown readTime)) := by
  obtain ⟨before, tick, after, t, hat⟩ := journalled_run rfl ticks hticks hsome hrun
  obtain ⟨qs, hreached⟩ := hat.reached
  refine ⟨before, tick, after, t, qs, hat.split, hreached, hat.recent, ?_⟩
  rw [hat.image]
  exact parseWal_displayable readTime (displayable_run _ (create_displayable uuid initialEpoch) hreached)
    hascii

end Dashboard

theorem dashboard_lags_a_second_twoTicks :
    OrderlyTicks twoTicks ∧ ∃ s ps, masterLoop twoTicks
      (masterStart (clusterStateCreate (CStr.upTo [118]) 1).masterState (fun _ => none) []) = some (s, ps) ∧
      ∃ t : MasterState, parseWal (PyExpr.ofInt 0) (s.files walPathDefault) =
        .ok (some (t.cluster.shown (PyExpr.ofInt 0))) := by
  obtain ⟨s, hrun⟩ := masterLoop_idle twoTicks
    (s := masterStart (clusterStateCreate (CStr.upTo [118]) 1).masterState (fun _ => none) []) rfl
  obtain ⟨_, _, _, t, _, _, _, _, hshown⟩ := dashboard_lags_a_second (PyExpr.ofInt 0) (CStr.upTo [118]) 1
    (fun _ => none) [] (by decide +kernel) twoTicks twoTicks_orderly (List.cons_ne_nil _ _) s [] hrun
  exact ⟨twoTicks_orderly, s, [], hrun, t, hshown⟩

end VoidOsMerger
