/-
  File:      VoidOsMerger/Master/Alignment.lean
  Subject:   THE EVENT LOOP AGAINST THE FRAMES THE WORKERS SEND.

  A worker's message arrives as two frames, identity and buffer; an iteration that processes a
  message has taken three.

  * `masterIteration_frames` -- a processed message costs three frames;
  * **`masterLoop_frames`** -- so a run processes at most a third as many messages as frames came;
  * **`loop_processes_iff`** -- and the loop processes what the workers send exactly when there is no
    worker.
-/
import VoidOsMerger.Master.Loop
import Mathlib.Data.List.Nodup

namespace VoidOsMerger

/-! ## 1. Frames per message -/

theorem handleMessage_inbox {tick : MasterTick} {idBuf payload : List UInt8}
    {env : VomRouterEnvelope} {s s' : MasterState}
    (h : handleMessage tick idBuf env payload s = some s') : s'.inbox = s.inbox := by
  unfold handleMessage at h
  split at h
  · obtain ⟨r, _, rfl⟩ := Option.map_eq_some_iff.mp h
    rfl
  · split at h
    · obtain ⟨r, _, rfl⟩ := Option.map_eq_some_iff.mp h
      rfl
    · cases h
      rfl

theorem recv_stream {s s' : Inbox} {f : Frame} (h : s.recv = some (f, s')) :
    s.stream.length = s'.stream.length + 1 := by
  unfold Inbox.recv at h
  split at h
  · cases h
  · rename_i hs
    cases h
    rw [hs, List.length_cons]

/-- What has arrived pays three frames for a processed message. -/
theorem receiveMessage_frames {tick : MasterTick} {s s' : MasterState} {p : Option Processed}
    (h : receiveMessage tick s = some (s', p)) :
    s'.inbox.stream.length + 3 * p.toList.length ≤ s.inbox.stream.length := by
  unfold receiveMessage at h
  split at h
  · cases h
    simp
  · rename_i idFrame inbox₁ h₁
    have hlen₁ := recv_stream h₁
    split at h
    · cases h
      dsimp only [Option.toList_none, List.length_nil]
      omega
    · split at h
      · cases h
      · dsimp only at h
        split at h
        · cases h
        · rename_i f₂ inbox₂ h₂
          have hlen₂ := recv_stream h₂
          split at h
          · cases h
          · rename_i f₃ inbox₃ h₃
            have hlen₃ := recv_stream h₃
            split at h
            · cases h
              dsimp only [Option.toList_none, List.length_nil]
              omega
            · split at h
              · cases h
                dsimp only [Option.toList_none, List.length_nil]
                omega
              · obtain ⟨t, ht, hpair⟩ := Option.map_eq_some_iff.mp h
                obtain ⟨rfl, rfl⟩ := Prod.mk.inj hpair
                rw [handleMessage_inbox ht]
                dsimp only [Option.toList_some, List.length_singleton]
                omega

theorem masterIteration_frames {tick : MasterTick} {s s' : MasterState} {p : Option Processed}
    (h : masterIteration tick s = some (s', p)) :
    s'.inbox.stream.length + 3 * p.toList.length ≤ s.inbox.stream.length := by
  obtain ⟨r, hr, hpair⟩ := Option.map_eq_some_iff.mp h
  obtain ⟨hs, rfl⟩ := Prod.mk.inj hpair
  have hinbox : s'.inbox = r.1.inbox := by
    rw [← hs]
    split
    · split <;> rfl
    · split <;> rfl
  rw [hinbox]
  exact receiveMessage_frames hr

/-- **A run processes at most a third as many messages as frames have come.** -/
theorem masterLoop_frames : ∀ (ticks : List MasterTick) {s s' : MasterState} {ps : List Processed},
    masterLoop ticks s = some (s', ps) →
    s'.inbox.stream.length + 3 * ps.length ≤ s.inbox.stream.length
  | [], s, s', ps, h => by
      cases h
      simp
  | tick :: ticks, s, s', ps, h => by
      obtain ⟨r, hr, hrest⟩ := Option.bind_eq_some_iff.mp h
      obtain ⟨rs, hrs, hpair⟩ := Option.map_eq_some_iff.mp hrest
      obtain ⟨rfl, rfl⟩ := Prod.mk.inj hpair
      have hfirst : r.1.inbox.stream.length + 3 * r.2.toList.length ≤ s.inbox.stream.length :=
        masterIteration_frames hr
      have hlater : rs.1.inbox.stream.length + 3 * rs.2.length ≤ r.1.inbox.stream.length :=
        masterLoop_frames ticks hrs
      rw [List.length_append]
      omega

/-! ## 2. What the workers send -/

/-- `arrivals` is an interleaving of what the workers send: each worker's messages in order, and no
    others. -/
def IsInterleaving (workers : List WorkerRun) (arrivals : List WorkerMessage) : Prop :=
  (∀ w ∈ workers, arrivals.filter (fun m => m.identity = w.workerId.str) = w.messages) ∧
  ∀ m ∈ arrivals, ∃ w ∈ workers, m.identity = w.workerId.str

instance (workers : List WorkerRun) (arrivals : List WorkerMessage) :
    Decidable (IsInterleaving workers arrivals) :=
  inferInstanceAs (Decidable (_ ∧ _))

/-- After enough iterations, whatever their times and stack contents, the loop has processed exactly
    the messages that came, each under its own code and its sender's identity. -/
def LoopProcesses (start : MasterState) (arrivals : List WorkerMessage) : Prop :=
  ∃ n, ∀ ticks : List MasterTick, n ≤ ticks.length →
    ∃ s ps, masterLoop ticks start = some (s, ps) ∧
      ps.Perm (arrivals.map fun m => (m.identity, m.code.code))

/-- Each message arrives as two frames. -/
theorem masterStart_frames (cluster : ClusterStateSnapshot) (files : Files) :
    ∀ arrivals : List WorkerMessage,
      (masterStart cluster files arrivals).inbox.stream.length = 2 * arrivals.length
  | [] => rfl
  | m :: arrivals => by
      have ih := masterStart_frames cluster files arrivals
      show (flagged [m.identity.bytes, m.frame] ++
        (masterStart cluster files arrivals).inbox.stream).length = _
      rw [List.length_append, ih, List.length_cons]
      show 2 + 2 * arrivals.length = 2 * (arrivals.length + 1)
      omega

/-- Nothing comes: every iteration ends and processes nothing. -/
theorem masterLoop_idle : ∀ (ticks : List MasterTick) {s : MasterState}, s.inbox.stream = [] →
    ∃ s', masterLoop ticks s = some (s', [])
  | [], s, _ => ⟨s, rfl⟩
  | tick :: ticks, s, hs => by
      have hrecv : receiveMessage tick s = some (s, none) := by
        unfold receiveMessage Inbox.recv
        rw [hs]
      obtain ⟨t, ht, hinbox⟩ : ∃ t, masterIteration tick s = some (t, none) ∧
          t.inbox.stream = [] := by
        unfold masterIteration
        rw [hrecv]
        refine ⟨_, rfl, ?_⟩
        dsimp only
        split
        · split <;> exact hs
        · split <;> exact hs
      obtain ⟨s', hs'⟩ := masterLoop_idle ticks hinbox
      refine ⟨s', ?_⟩
      rw [masterLoop, ht, Option.bind_some, hs']
      rfl

/-- An iteration in which nothing special happens. -/
def plainTick : MasterTick where
  nowMs := 0
  idBuf := Vector.replicate 64 0
  pbuf := Vector.replicate receiveBufferLen 0
  sendOk := fun _ => true
  persist := .openFails

/-- The loop processes what has arrived exactly when nothing has. -/
theorem loopProcesses_iff_nil (cluster : ClusterStateSnapshot) (files : Files)
    (arrivals : List WorkerMessage) :
    LoopProcesses (masterStart cluster files arrivals) arrivals ↔ arrivals = [] := by
  constructor
  · rintro ⟨n, h⟩
    obtain ⟨s, ps, hrun, hperm⟩ := h (List.replicate n plainTick) (by rw [List.length_replicate])
    -- three frames for each message, but only two came
    have hframes := masterLoop_frames _ hrun
    rw [masterStart_frames, hperm.length_eq, List.length_map] at hframes
    exact List.length_eq_zero_iff.mp (by omega)
  · rintro rfl
    refine ⟨0, fun ticks _ => ?_⟩
    obtain ⟨s, hs⟩ := masterLoop_idle ticks (s := masterStart cluster files []) rfl
    exact ⟨s, [], hs, List.Perm.refl _⟩

/-- A worker sends at least its JOIN_REQ. -/
theorem arrivals_nil_iff {workers : List WorkerRun} {arrivals : List WorkerMessage}
    (h : IsInterleaving workers arrivals) : arrivals = [] ↔ workers = [] := by
  constructor
  · rintro rfl
    cases workers with
    | nil => rfl
    | cons w ws => exact absurd (h.1 w List.mem_cons_self) (List.cons_ne_nil _ _).symm
  · rintro rfl
    cases arrivals with
    | nil => rfl
    | cons m ms =>
        obtain ⟨w, hw, _⟩ := h.2 m List.mem_cons_self
        exact absurd hw List.not_mem_nil

/-- **The event loop processes what the workers send exactly when there is no worker**: in every
    interleaving of the messages of any workers, from any cluster state. -/
theorem loop_processes_iff (cluster : ClusterStateSnapshot) (files : Files)
    (workers : List WorkerRun) (arrivals : List WorkerMessage)
    (h : IsInterleaving workers arrivals) :
    LoopProcesses (masterStart cluster files arrivals) arrivals ↔ workers = [] :=
  (loopProcesses_iff_nil cluster files arrivals).trans (arrivals_nil_iff h)

theorem lonelyId_noNul : ∀ b ∈ ([119, 49] : List UInt8), b ≠ 0 := by simp

/-- A worker `w1` that joins and sends one heartbeat. -/
def lonelyWorker : WorkerRun where
  workerId := NulBuf.copy 63 ⟨[119, 49], lonelyId_noNul⟩
  joinMs := 1000
  beatsMs := [6000]

/-- The state of a master that has just started. -/
def freshCluster : ClusterStateSnapshot := (clusterStateCreate ⟨[117], by simp⟩ 1).masterState

theorem loop_processes_iff_lonelyWorker : IsInterleaving [lonelyWorker] lonelyWorker.messages ∧
    (LoopProcesses (masterStart freshCluster (fun _ => none) lonelyWorker.messages)
      lonelyWorker.messages ↔ [lonelyWorker] = []) :=
  ⟨by decide +kernel, loop_processes_iff freshCluster (fun _ => none) [lonelyWorker]
    lonelyWorker.messages (by decide +kernel)⟩

/-- **One worker is enough to see it.** -/
theorem loop_loses_messages : ¬ ∀ (cluster : ClusterStateSnapshot) (files : Files)
    (workers : List WorkerRun), (workers.map (·.workerId.str)).Nodup →
    ∀ arrivals, IsInterleaving workers arrivals →
      LoopProcesses (masterStart cluster files arrivals) arrivals := by
  intro h
  have hall := h freshCluster (fun _ => none) [lonelyWorker] (List.nodup_singleton _)
    lonelyWorker.messages (by decide +kernel)
  exact absurd ((loopProcesses_iff_nil _ _ _).mp hall) (List.cons_ne_nil _ _)

end VoidOsMerger
