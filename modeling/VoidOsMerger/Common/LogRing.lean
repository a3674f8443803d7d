/-
  File:      VoidOsMerger/Common/LogRing.lean
  Subject:   THE POST-MORTEM LOG (common/src/log.c): what is written to the ring file and where.

  `snprintf` and `vsnprintf` return the length of the whole text, also where the buffer holds only its
  beginning, and that length is handed to `write_to_ring_buffer` with the buffer. The file is its
  position; what `fwrite` accepts of a write is part of the call.

  * `vomLogEmit` -- the pieces of a call (`LogCall.pieces`), written one after another;
  * `writePieces_bounded` -- pieces that fit the file keep its position within the maximum size;
  * **`ring_log_bounded_iff`** -- when no write reads past its buffer and the position stays in bounds.
-/
import VoidOsMerger.Base.CText
import VoidOsMerger.Base.Run

namespace VoidOsMerger

/-! ## 1. The text of a call -/

/-- The levels of a call; `VOM_LOG_LEVEL_NONE` is only a threshold. -/
inductive VomLogLevel
  | trace | debug | info | warn | error | fatal
  deriving DecidableEq, Repr

def VomLogLevel.rank : VomLogLevel → Nat
  | .trace => 0
  | .debug => 1
  | .info => 2
  | .warn => 3
  | .error => 4
  | .fatal => 5

/-- `g_level_tags[level]` -/
def VomLogLevel.tag : VomLogLevel → List UInt8
  | .trace => asciiBytes "TRACE"
  | .debug => asciiBytes "DEBUG"
  | .info => asciiBytes "INFO"
  | .warn => asciiBytes "WARN"
  | .error => asciiBytes "ERROR"
  | .fatal => asciiBytes "FATAL"

/-- The arguments of a `vom_log_emit`, the message as its format gives it, the time of the call, and the
    bytes `fwrite` accepts of its three writes. -/
structure LogCall where
  level : VomLogLevel
  file : CStr
  line : Int
  message : CStr
  timeStr : NulBuf 32
  usec : Fin 1000000
  metaAccepted : Nat
  msgAccepted : Nat
  newlineAccepted : Nat

/-- The loop that sets `short_file` behind the last separator, `p` still to be read. -/
def shortFile (short : List UInt8) : List UInt8 → List UInt8
  | [] => short
  | c :: p => shortFile (if c = 92 ∨ c = 47 then p else short) p

/-- `%d` -/
def decimalText (n : Int) : List UInt8 := asciiBytes (toString n)

/-- `%06d` -/
def microsText (usec : Fin 1000000) : List UInt8 :=
  List.replicate (6 - (decimalText usec.val).length) 48 ++ decimalText usec.val

/-- `"%s.%06d [%s] [%s:%d] "` -/
def LogCall.metaText (c : LogCall) : List UInt8 :=
  c.timeStr.str.bytes ++ asciiBytes "." ++ microsText c.usec ++ asciiBytes " [" ++ c.level.tag ++
    asciiBytes "] [" ++ shortFile c.file.bytes c.file.bytes ++ asciiBytes ":" ++ decimalText c.line ++
    asciiBytes "] "

/-- What `snprintf` returns for a text: its length, whatever the buffer holds of it. -/
def snprintfReturn (text : List UInt8) : Int := if text.length ≤ 2147483647 then text.length else -1

/-! ## 2. The ring file -/

/-- `g_ring_file` at its position, and `g_ring_max_size`. -/
structure RingFile where
  position : Nat
  maxSize : Int
  deriving DecidableEq

/-- A call of `write_to_ring_buffer`: the size of the array it is given, the length, and what `fwrite`
    accepts. -/
structure RingPiece where
  bufSize : Nat
  len : Nat
  accepted : Nat
  deriving DecidableEq

/-- Where the write starts. -/
def RingFile.seek (f : RingFile) (len : Nat) : Nat :=
  if (f.position : Int) + len > f.maxSize then 0 else f.position

/-- `write_to_ring_buffer` -/
def writeToRingBuffer (f : RingFile) (p : RingPiece) : RingFile :=
  { f with position := f.seek p.len + min p.accepted p.len }

/-- The writes of a call, in order. `"\n"` is an array of two bytes. -/
def LogCall.pieces (c : LogCall) : List RingPiece :=
  let metaLen := snprintfReturn c.metaText
  let msgLen := snprintfReturn c.message.bytes
  (if metaLen > 0 then [⟨256, metaLen.toNat, c.metaAccepted⟩] else []) ++
    if msgLen > 0 then [⟨1024, msgLen.toNat, c.msgAccepted⟩, ⟨2, 1, c.newlineAccepted⟩] else []

/-- `g_current_level`, where `none` is `VOM_LOG_LEVEL_NONE`, and the ring file. -/
structure Logger where
  currentLevel : Option VomLogLevel
  ring : RingFile

/-- The guard of `vom_log_emit`. -/
def Logger.emits (s : Logger) (level : VomLogLevel) : Bool :=
  s.currentLevel.any fun current => current.rank ≤ level.rank

/-- A piece that was written, and the position behind it. -/
structure RingWrite where
  piece : RingPiece
  position : Nat

/-- The pieces, one after another. -/
def writePieces (f : RingFile) : List RingPiece → RingFile × List RingWrite
  | [] => (f, [])
  | p :: ps =>
    let g := writeToRingBuffer f p
    let r := writePieces g ps
    (r.1, ⟨p, g.position⟩ :: r.2)

/-- `vom_log_emit` with a ring file, and its writes. -/
def vomLogEmit (s : Logger) (c : LogCall) : Logger × List RingWrite :=
  if s.emits c.level then
    let r := writePieces s.ring c.pieces
    ({ s with ring := r.1 }, r.2)
  else (s, [])

inductive LogOp
  | setLevel (level : Option VomLogLevel)
  | emit (call : LogCall)

def logMachine : Machine Logger LogOp (List RingWrite) where
  step s
    | .setLevel level => ({ s with currentLevel := level }, [])
    | .emit call => vomLogEmit s call

/-- The logger after `vom_log_init_postmortem_ring_buffer`, at any level. -/
def loggerWith (currentLevel : Option VomLogLevel) (maxSize : Int) : Logger where
  currentLevel := currentLevel
  ring := ⟨0, maxSize⟩

/-! ## 3. Positions -/

/-- **A write that fits the file** ends within the maximum size, from any position. -/
theorem write_bounded (f : RingFile) {p : RingPiece} (hlen : (p.len : Int) ≤ f.maxSize) :
    ((writeToRingBuffer f p).position : Int) ≤ f.maxSize := by
  show ((f.seek p.len + min p.accepted p.len : Nat) : Int) ≤ f.maxSize
  unfold RingFile.seek
  split <;> omega

theorem writePieces_maxSize : ∀ (f : RingFile) (ps : List RingPiece),
    (writePieces f ps).1.maxSize = f.maxSize
  | _, [] => rfl
  | f, p :: ps => writePieces_maxSize (writeToRingBuffer f p) ps

theorem writePieces_pieces : ∀ (f : RingFile) (ps : List RingPiece),
    (writePieces f ps).2.map (·.piece) = ps
  | _, [] => rfl
  | f, p :: ps => congrArg (p :: ·) (writePieces_pieces (writeToRingBuffer f p) ps)

theorem writes_forall_iff {P : RingPiece → Prop} (f : RingFile) (ps : List RingPiece) :
    (∀ w ∈ (writePieces f ps).2, P w.piece) ↔ ∀ p ∈ ps, P p := by
  rw [← List.forall_mem_map, writePieces_pieces]

/-- Pieces that fit the file keep the position within the maximum size, write by write. -/
theorem writePieces_bounded : ∀ {f : RingFile} {ps : List RingPiece},
    (∀ p ∈ ps, (p.len : Int) ≤ f.maxSize) → (f.position : Int) ≤ f.maxSize →
    (∀ w ∈ (writePieces f ps).2, (w.position : Int) ≤ f.maxSize) ∧
      ((writePieces f ps).1.position : Int) ≤ f.maxSize
  | _, [], _, hpos => ⟨fun _ hw => absurd hw List.not_mem_nil, hpos⟩
  | f, p :: ps, hfit, _ => by
      have hfirst := write_bounded f (hfit p List.mem_cons_self)
      obtain ⟨hwrites, hend⟩ := writePieces_bounded (f := writeToRingBuffer f p)
        (fun q hq => hfit q (List.mem_cons_of_mem _ hq)) hfirst
      exact ⟨List.forall_mem_cons.mpr ⟨hfirst, hwrites⟩, hend⟩

/-! ## 4. Buffers -/

/-- The texts of a call fit the two buffers. -/
def LogCall.FitsBuffers (c : LogCall) : Prop :=
  snprintfReturn c.metaText ≤ 256 ∧ snprintfReturn c.message.bytes ≤ 1024

theorem pieces_fit_iff (c : LogCall) : (∀ p ∈ c.pieces, p.len ≤ p.bufSize) ↔ c.FitsBuffers := by
  unfold LogCall.pieces LogCall.FitsBuffers
  generalize snprintfReturn c.metaText = metaLen
  generalize snprintfReturn c.message.bytes = msgLen
  dsimp only
  rw [List.forall_mem_append]
  refine and_congr ?_ ?_
  · split
    · rw [List.forall_mem_singleton]
      exact Int.toNat_le
    · exact iff_of_true (fun _ hp => absurd hp List.not_mem_nil) (by omega)
  · split
    · rw [List.forall_mem_cons, List.forall_mem_singleton]
      exact (and_iff_left (by decide : 1 ≤ 2)).trans Int.toNat_le
    · exact iff_of_true (fun _ hp => absurd hp List.not_mem_nil) (by omega)

/-- The largest of the three arrays. -/
theorem pieces_bufSize (c : LogCall) : ∀ p ∈ c.pieces, p.bufSize ≤ 1024 := by
  unfold LogCall.pieces
  dsimp only
  rw [List.forall_mem_append]
  constructor
  · split <;> simp
  · split <;> simp

/-- The step conditions: what the writes and the position are to be, and what the texts are. -/
def WritesBounded (maxSize : Int) (writes : List RingWrite) : Prop :=
  ∀ w ∈ writes, w.piece.len ≤ w.piece.bufSize ∧ (w.position : Int) ≤ maxSize

def LogOp.FitsBuffers (s : Logger) : LogOp → Prop
  | .setLevel _ => True
  | .emit call => s.emits call.level = true → call.FitsBuffers

/-- **One call.** -/
theorem step_bounded_iff {maxSize : Int} (hsize : 1280 ≤ maxSize) {s : Logger}
    (hmax : s.ring.maxSize = maxSize) (hpos : (s.ring.position : Int) ≤ maxSize) (o : LogOp) :
    (WritesBounded maxSize (logMachine.answer s o) ∧
      ((logMachine.next s o).ring.position : Int) ≤ maxSize) ↔ o.FitsBuffers s := by
  cases o with
  | setLevel level => exact iff_of_true ⟨fun _ hw => absurd hw List.not_mem_nil, hpos⟩ trivial
  | emit call =>
    show (WritesBounded maxSize (vomLogEmit s call).2 ∧
      ((vomLogEmit s call).1.ring.position : Int) ≤ maxSize) ↔ (s.emits call.level = true → _)
    unfold vomLogEmit
    by_cases hemits : s.emits call.level = true
    · rw [if_pos hemits, forall_prop_of_true hemits, ← pieces_fit_iff]
      have hsizes := pieces_bufSize call
      generalize call.pieces = ps at hsizes
      subst hmax
      constructor
      · intro h
        exact (writes_forall_iff s.ring ps).mp fun w hw => (h.1 w hw).1
      · intro h
        have hfit : ∀ p ∈ ps, (p.len : Int) ≤ s.ring.maxSize := by
          intro p hp
          have hlen := h p hp
          have hbuf := hsizes p hp
          omega
        obtain ⟨hwrites, hend⟩ := writePieces_bounded hfit hpos
        have hlens := (writes_forall_iff s.ring ps).mpr h
        exact ⟨fun w hw => ⟨hlens w hw, hwrites w hw⟩, hend⟩
    · rw [if_neg hemits]
      exact iff_of_true ⟨fun _ hw => absurd hw List.not_mem_nil, hpos⟩ fun h => absurd h hemits

theorem maxSize_next (s : Logger) (o : LogOp) :
    (logMachine.next s o).ring.maxSize = s.ring.maxSize := by
  cases o with
  | setLevel level => rfl
  | emit call =>
    show (vomLogEmit s call).1.ring.maxSize = _
    unfold vomLogEmit
    generalize call.pieces = ps
    split
    · exact writePieces_maxSize s.ring ps
    · rfl

/-! ## 5. Runs -/

/-- **When the post-mortem log stays within bounds.** With a ring file of at least 1280 bytes, every
    write of a run is given a length within its buffer and ends within the file, and so does every
    call, exactly when the texts of the calls that are emitted fit the two buffers. -/
theorem ring_log_bounded_iff (currentLevel : Option VomLogLevel) (maxSize : Int)
    (hsize : 1280 ≤ maxSize) (ops : List LogOp) :
    ((∀ writes ∈ logMachine.answers (loggerWith currentLevel maxSize) ops, WritesBounded maxSize writes) ∧
      ∀ pre, pre <+: ops →
        ((logMachine.run (loggerWith currentLevel maxSize) pre).ring.position : Int) ≤ maxSize) ↔
    logMachine.Legal (fun s o => o.FitsBuffers s) (loggerWith currentLevel maxSize) ops := by
  have hstart : ((loggerWith currentLevel maxSize).ring.position : Int) ≤ maxSize := by
    show ((0 : Nat) : Int) ≤ maxSize
    omega
  rw [Machine.answers_iff_legal,
    logMachine.prefix_iff_legal (P := fun s => (s.ring.position : Int) ≤ maxSize),
    and_iff_right hstart, Machine.legal_and_iff]
  exact logMachine.legal_congr
    (fun s => s.ring.maxSize = maxSize ∧ (s.ring.position : Int) ≤ maxSize)
    (fun s o h _ => step_bounded_iff hsize h.1 h.2 o)
    (fun s o h _ hnext => ⟨(maxSize_next s o).trans h.1, hnext.2⟩) ⟨rfl, hstart⟩
    (logMachine.legal_true _ ops)

/-- A call with a message of `n` letters. -/
def letterCall (n : Nat) : LogCall where
  level := .info
  file := CStr.upTo (asciiBytes "src/main.c")
  line := 12
  message := ⟨List.replicate n 97, fun b hb => by rw [List.eq_of_mem_replicate hb]; decide⟩
  timeStr := NulBuf.copy 31 (CStr.upTo (asciiBytes "2026-01-01 00:00:00"))
  usec := 0
  metaAccepted := 256
  msgAccepted := n
  newlineAccepted := 1

theorem letterCall_message (n : Nat) (hn : n ≤ 2147483647) :
    snprintfReturn (letterCall n).message.bytes = n := by
  have hlen : (letterCall n).message.bytes.length = n := List.length_replicate
  rw [snprintfReturn, hlen, if_pos hn]

theorem short_message_bounded :
    (∀ writes ∈ logMachine.answers (loggerWith (some .info) 1280) [.emit (letterCall 1024)],
        WritesBounded 1280 writes) ∧
      ∀ pre, pre <+: [LogOp.emit (letterCall 1024)] →
        ((logMachine.run (loggerWith (some .info) 1280) pre).ring.position : Int) ≤ 1280 := by
  refine (ring_log_bounded_iff (some .info) 1280 (by decide) _).mpr ⟨fun _ => ⟨?_, ?_⟩, trivial⟩
  · show snprintfReturn (letterCall 0).metaText ≤ 256
    decide +kernel
  · rw [letterCall_message 1024 (by decide)]
    decide

/-- **A message of 1025 bytes.** The length returned is handed on with a buffer of 1024. -/
theorem long_message_overreads : ¬ ∀ (currentLevel : Option VomLogLevel) (maxSize : Int),
    1280 ≤ maxSize → ∀ ops : List LogOp,
      (∀ writes ∈ logMachine.answers (loggerWith currentLevel maxSize) ops,
          WritesBounded maxSize writes) ∧
        ∀ pre, pre <+: ops →
          ((logMachine.run (loggerWith currentLevel maxSize) pre).ring.position : Int) ≤ maxSize := by
  intro h
  obtain ⟨hwrites, hpos⟩ := h (some .info) 1280 (by decide) [.emit (letterCall 1025)]
  rw [Machine.answers_iff_legal] at hwrites
  rw [logMachine.prefix_iff_legal (P := fun s => (s.ring.position : Int) ≤ 1280)] at hpos
  have hfits : LogOp.FitsBuffers (loggerWith (some .info) 1280) (.emit (letterCall 1025)) :=
    (step_bounded_iff (by decide) rfl (by decide) _).mp ⟨hwrites.1, hpos.2.1⟩
  have hmessage := (hfits rfl).2
  rw [letterCall_message 1025 (by decide)] at hmessage
  exact absurd hmessage (by decide)

end VoidOsMerger
