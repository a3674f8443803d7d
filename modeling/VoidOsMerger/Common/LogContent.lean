/-
  File:      VoidOsMerger/Common/LogContent.lean
  Subject:   THE TEXT IN THE POST-MORTEM LOG (common/src/log.c), and how much of the log's end it keeps.

  The ring file of Common/LogRing.lean with its bytes. A write hands `fwrite` the first `len` bytes of an
  array; the arrays hold what `snprintf` has left in them.

  * `postmortemMachine` -- the calls with the bytes of the file; `postmortem_logger` -- it is the machine
    of Common/LogRing.lean but for them;
  * `emit_lapped` -- a call whose texts fit and are taken goes on with the file's laps;
  * **`ring_keeps_latest_half`** -- all that was logged can be read from the file, or more of its end
    than half the size of the ring.
-/
import VoidOsMerger.Base.Laps
import VoidOsMerger.Common.LogRing

namespace VoidOsMerger

/-! ## 1. The calls -/

/-- What an array of `size` bytes holds after `snprintf`. -/
def snprintfBuf (size : Nat) (text : List UInt8) : List UInt8 := text.take (size - 1) ++ [0]

/-- The writes of a call with the arrays they are given. -/
def LogCall.writes (c : LogCall) : List (RingPiece × List UInt8) :=
  let metaLen := snprintfReturn c.metaText
  let msgLen := snprintfReturn c.message.bytes
  (if metaLen > 0 then [(⟨256, metaLen.toNat, c.metaAccepted⟩, snprintfBuf 256 c.metaText)] else []) ++
    if msgLen > 0 then
      [(⟨1024, msgLen.toNat, c.msgAccepted⟩, snprintfBuf 1024 c.message.bytes),
        (⟨2, 1, c.newlineAccepted⟩, [10, 0])]
    else []

/-- The ring file and its bytes. -/
structure RingContent where
  ring : RingFile
  bytes : List UInt8

/-- `write_to_ring_buffer`. Where the length is more than the array holds, what stands behind the array
    in memory is left out. -/
def RingContent.write (f : RingContent) (w : RingPiece × List UInt8) : RingContent where
  ring := writeToRingBuffer f.ring w.1
  bytes := overwrite f.bytes (f.ring.seek w.1.len) (w.2.take (min w.1.accepted w.1.len))

/-- `g_current_level` and the ring file. -/
structure PostmortemLog where
  currentLevel : Option VomLogLevel
  file : RingContent

/-- The logger of Common/LogRing.lean. -/
def PostmortemLog.logger (s : PostmortemLog) : Logger := ⟨s.currentLevel, s.file.ring⟩

/-- What a call hands to `fwrite`. -/
def LogCall.handed (c : LogCall) : List UInt8 := c.writes.flatMap fun w => w.2.take w.1.len

/-- The calls; the answer is what was handed to `fwrite`. -/
def postmortemMachine : Machine PostmortemLog LogOp (List UInt8) where
  step s
    | .setLevel level => ({ s with currentLevel := level }, [])
    | .emit call =>
      if s.logger.emits call.level then
        ({ s with file := call.writes.foldl RingContent.write s.file }, call.handed)
      else (s, [])

/-- After `vom_log_init_postmortem_ring_buffer`, at any level. -/
def postmortemStart (currentLevel : Option VomLogLevel) (maxSize : Int) : PostmortemLog :=
  ⟨currentLevel, ⟨0, maxSize⟩, []⟩

/-! ## 2. The bytes left aside -/

theorem writes_pieces (c : LogCall) : c.writes.map (·.1) = c.pieces := by
  unfold LogCall.writes LogCall.pieces
  dsimp only
  split <;> split <;> rfl

theorem foldl_write_ring : ∀ (ws : List (RingPiece × List UInt8)) (f : RingContent),
    (ws.foldl RingContent.write f).ring = (writePieces f.ring (ws.map (·.1))).1
  | [], _ => rfl
  | w :: ws, f => foldl_write_ring ws (f.write w)

/-- **The same calls on the logger alone.** -/
theorem postmortem_logger (s : PostmortemLog) (ops : List LogOp) :
    (postmortemMachine.run s ops).logger = logMachine.run s.logger ops := by
  induction ops generalizing s with
  | nil => rfl
  | cons o ops ih =>
    rw [Machine.run_cons, Machine.run_cons, ih]
    congr 1
    cases o with
    | setLevel level => rfl
    | emit call =>
      change (if s.logger.emits call.level = true then _ else _ : PostmortemLog × List UInt8).1.logger =
        (vomLogEmit s.logger call).1
      unfold vomLogEmit
      split
      · change Logger.mk s.currentLevel (call.writes.foldl RingContent.write s.file).ring =
          ⟨s.currentLevel, (writePieces s.file.ring call.pieces).1⟩
        rw [foldl_write_ring, writes_pieces]
      · rfl

/-! ## 3. Laps -/

/-- The file as one that is written in laps. -/
def RingContent.lapFile (f : RingContent) : LapFile UInt8 := ⟨f.bytes, f.ring.position⟩

/-- The array has what is handed to `fwrite`, and `fwrite` takes it. -/
structure WholeWrite (w : RingPiece × List UInt8) : Prop where
  taken : w.1.len ≤ w.1.accepted
  held : w.1.len ≤ w.2.length

theorem write_lapFile {w : RingPiece × List UInt8} (hw : WholeWrite w) (f : RingContent) :
    (f.write w).lapFile = f.lapFile.write f.ring.maxSize (w.2.take w.1.len) := by
  have hmin : min w.1.accepted w.1.len = w.1.len := Nat.min_eq_right hw.taken
  have hlen : (w.2.take w.1.len).length = w.1.len := by
    rw [List.length_take]
    exact Nat.min_eq_left hw.held
  have hstart : f.ring.seek w.1.len = f.lapFile.start f.ring.maxSize (w.2.take w.1.len) := by
    rw [LapFile.start, hlen]
    rfl
  unfold RingContent.write LapFile.write RingContent.lapFile writeToRingBuffer
  dsimp only
  rw [hmin, hlen, hstart]
  rfl

theorem foldl_lapped {maxSize : Int} : ∀ (ws : List (RingPiece × List UInt8)) {f : RingContent}
    {log : List UInt8}, (∀ w ∈ ws, WholeWrite w) → f.ring.maxSize = maxSize →
    Lapped maxSize log f.lapFile →
    Lapped maxSize (log ++ ws.flatMap fun w => w.2.take w.1.len)
      (ws.foldl RingContent.write f).lapFile
  | [], _, _, _, _, h => by
      rw [List.flatMap_nil, List.append_nil]
      exact h
  | w :: ws, f, log, hws, hmax, h => by
      have hone : Lapped maxSize (log ++ w.2.take w.1.len) (f.write w).lapFile := by
        rw [write_lapFile (hws w List.mem_cons_self), hmax]
        exact h.write _
      rw [List.flatMap_cons, ← List.append_assoc]
      exact foldl_lapped ws (fun v hv => hws v (List.mem_cons_of_mem _ hv)) hmax hone

/-! ## 4. Whole calls -/

/-- The texts of a call fit the buffers, and `fwrite` takes what it is handed. -/
def LogOp.Whole (s : Logger) : LogOp → Prop
  | .setLevel _ => True
  | .emit call =>
    s.emits call.level = true → call.FitsBuffers ∧ ∀ p ∈ call.pieces, p.len ≤ p.accepted

/-- A text that fits an array, the NUL perhaps not, is there as far as it is written. -/
theorem snprintfBuf_held {size : Nat} {text : List UInt8} (hsize : 0 < size)
    (hfit : snprintfReturn text ≤ size) :
    (snprintfReturn text).toNat ≤ (snprintfBuf size text).length := by
  rw [snprintfBuf, List.length_append, List.length_take, List.length_singleton]
  unfold snprintfReturn at hfit ⊢
  split
  · rename_i hint
    rw [if_pos hint] at hfit
    omega
  · omega

theorem wholeWrites {call : LogCall} (hfit : call.FitsBuffers)
    (htaken : ∀ p ∈ call.pieces, p.len ≤ p.accepted) : ∀ w ∈ call.writes, WholeWrite w := by
  have hheld : ∀ w ∈ call.writes, w.1.len ≤ w.2.length := by
    unfold LogCall.writes
    dsimp only
    rw [List.forall_mem_append]
    constructor
    · split
      · exact List.forall_mem_singleton.mpr (snprintfBuf_held (by decide) hfit.1)
      · exact fun _ hw => absurd hw List.not_mem_nil
    · split
      · exact List.forall_mem_cons.mpr ⟨snprintfBuf_held (by decide) hfit.2,
          List.forall_mem_singleton.mpr (show 1 ≤ 2 by decide)⟩
      · exact fun _ hw => absurd hw List.not_mem_nil
  intro w hw
  refine ⟨htaken w.1 ?_, hheld w hw⟩
  rw [← writes_pieces]
  exact List.mem_map_of_mem hw

/-- **One call.** -/
theorem emit_lapped {maxSize : Int} {s : PostmortemLog} {log : List UInt8} (o : LogOp)
    (hmax : s.file.ring.maxSize = maxSize) (h : Lapped maxSize log s.file.lapFile)
    (ho : o.Whole s.logger) :
    Lapped maxSize (log ++ postmortemMachine.answer s o) (postmortemMachine.next s o).file.lapFile := by
  cases o with
  | setLevel level =>
    change Lapped maxSize (log ++ []) s.file.lapFile
    rw [List.append_nil]
    exact h
  | emit call =>
    unfold Machine.answer Machine.next postmortemMachine
    dsimp only
    by_cases hemits : s.logger.emits call.level = true
    · rw [if_pos hemits]
      obtain ⟨hfit, htaken⟩ := ho hemits
      exact foldl_lapped call.writes (wholeWrites hfit htaken) hmax h
    · rw [if_neg hemits, List.append_nil]
      exact h

theorem postmortem_maxSize (s : PostmortemLog) (o : LogOp) :
    (postmortemMachine.next s o).file.ring.maxSize = s.file.ring.maxSize := by
  have hlogger : (postmortemMachine.next s o).logger = logMachine.next s.logger o :=
    postmortem_logger s [o]
  have hring : (postmortemMachine.next s o).logger.ring.maxSize = s.logger.ring.maxSize := by
    rw [hlogger, maxSize_next]
  exact hring

/-- All that was handed to `fwrite`. -/
def loggedText (s : PostmortemLog) (ops : List LogOp) : List UInt8 :=
  postmortemMachine.log postmortemMachine.answer s ops

/-- **The ring keeps the latest half.** After every run of calls whose texts fit the buffers and are
    taken by `fwrite`, the file read from its position to some place, and then from its start to the
    position, is the end of the log: all of it, or more than half the size of the ring. -/
theorem ring_keeps_latest_half (currentLevel : Option VomLogLevel) (maxSize : Int) (ops : List LogOp)
    (hops : postmortemMachine.Legal (fun s o => o.Whole s.logger) (postmortemStart currentLevel maxSize)
      ops) :
    let file := (postmortemMachine.run (postmortemStart currentLevel maxSize) ops).file
    let log := loggedText (postmortemStart currentLevel maxSize) ops
    ∃ stop k, (file.bytes.drop file.ring.position).take (stop - file.ring.position) ++
        file.bytes.take file.ring.position = log.drop k ∧
      (k = 0 ∨ maxSize < 2 * ((log.drop k).length : Int)) := by
  have hlapped := postmortemMachine.invariant_log postmortemMachine.answer
    (fun s log => s.file.ring.maxSize = maxSize ∧ Lapped maxSize log s.file.lapFile)
    (fun s o log h ho => ⟨(postmortem_maxSize s o).trans h.1, emit_lapped o h.1 h.2 ho⟩)
    (s := postmortemStart currentLevel maxSize) ⟨rfl, .first rfl rfl⟩ hops
  exact hlapped.2.latest

theorem letterCall_whole (s : Logger) : (LogOp.emit (letterCall 5)).Whole s := by
  intro _
  unfold LogCall.FitsBuffers
  decide +kernel

/-- Three calls of 52 bytes each on a ring of 100. -/
theorem ring_keeps_latest_half_letters :
    let ops := List.replicate 3 (LogOp.emit (letterCall 5))
    let file := (postmortemMachine.run (postmortemStart (some .info) 100) ops).file
    let log := loggedText (postmortemStart (some .info) 100) ops
    ∃ stop k, (file.bytes.drop file.ring.position).take (stop - file.ring.position) ++
        file.bytes.take file.ring.position = log.drop k ∧
      (k = 0 ∨ (100 : Int) < 2 * ((log.drop k).length : Int)) :=
  ring_keeps_latest_half (some .info) 100 _
    ⟨letterCall_whole _, letterCall_whole _, letterCall_whole _, trivial⟩

end VoidOsMerger
