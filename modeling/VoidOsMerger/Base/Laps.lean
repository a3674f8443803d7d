/-
  File:      VoidOsMerger/Base/Laps.lean
  Subject:   A FILE THAT IS WRITTEN IN LAPS: text goes to the position, and from the start again where it
             would end behind a given size.

  A lap overwrites the one before it from the start, and what it does not reach stands behind it.

  * `LapFile.write` -- one text;
  * `Lapped` -- what the file holds, by the log of all that was written: the log itself, or the lap the
    position is in over the lap before, which together are longer than the size;
  * **`Lapped.write`** -- one more text keeps this;
  * **`Lapped.latest`** -- so the end of the log can be read from the file: all of it, or more than half
    the size.
-/
import Mathlib.Data.List.Basic

namespace VoidOsMerger

variable {α : Type}

/-! ## 1. The file -/

structure LapFile (α : Type) where
  bytes : List α
  position : Nat

/-- A text over what stands at `start`. -/
def overwrite (bytes : List α) (start : Nat) (text : List α) : List α :=
  bytes.take start ++ text ++ bytes.drop (start + text.length)

theorem overwrite_zero (bytes text : List α) :
    overwrite bytes 0 text = text ++ bytes.drop text.length := by
  rw [overwrite, List.take_zero, List.nil_append, Nat.zero_add]

/-- Behind a part of the file. -/
theorem overwrite_append (part rest text : List α) :
    overwrite (part ++ rest) part.length text = part ++ text ++ rest.drop text.length := by
  rw [overwrite, List.take_left, ← List.drop_drop, List.drop_left]

/-- Where the next text starts. -/
def LapFile.start (size : Int) (f : LapFile α) (text : List α) : Nat :=
  if (f.position : Int) + text.length > size then 0 else f.position

def LapFile.write (size : Int) (f : LapFile α) (text : List α) : LapFile α where
  bytes := overwrite f.bytes (f.start size text) text
  position := f.start size text + text.length

/-! ## 2. What the file holds -/

/-- The file after the texts of the log: no lap has ended, or `lap` is over `last`, which was over
    `under`. -/
inductive Lapped (size : Int) (log : List α) (f : LapFile α) : Prop
  | first (hbytes : f.bytes = log) (hpos : f.position = log.length)
  | later (earlier last lap under : List α) (hlog : log = earlier ++ last ++ lap)
      (hbytes : f.bytes = lap ++ (last ++ under.drop last.length).drop lap.length)
      (hpos : f.position = lap.length) (hfull : size < (last.length : Int) + lap.length)

/-- **One more text.** -/
theorem Lapped.write {size : Int} {log : List α} {f : LapFile α} (h : Lapped size log f)
    (text : List α) : Lapped size (log ++ text) (f.write size text) := by
  by_cases hwrap : (f.position : Int) + text.length > size
  · have hstart : f.start size text = 0 := if_pos hwrap
    have hbytes : (f.write size text).bytes = text ++ f.bytes.drop text.length := by
      rw [LapFile.write, hstart, overwrite_zero]
    have hpos : (f.write size text).position = text.length := by
      rw [LapFile.write, hstart, Nat.zero_add]
    cases h with
    | first hlog hat =>
      refine .later [] log text [] rfl ?_ hpos (by rw [← hat]; exact hwrap)
      rw [hbytes, hlog, List.drop_nil, List.append_nil]
    | later earlier last lap under hlog hfile hat hfull =>
      refine .later (earlier ++ last) lap text (last ++ under.drop last.length) (by rw [hlog]) ?_ hpos
        (by rw [← hat]; exact hwrap)
      rw [hbytes, hfile]
  · have hstart : f.start size text = f.position := if_neg hwrap
    cases h with
    | first hlog hat =>
      refine .first ?_ ?_
      · rw [LapFile.write, hstart, hat, hlog]
        have happend := overwrite_append log [] text
        rwa [List.append_nil, List.drop_nil, List.append_nil] at happend
      · rw [LapFile.write, hstart, hat, List.length_append]
    | later earlier last lap under hlog hfile hat hfull =>
      refine .later earlier last (lap ++ text) under (by rw [hlog, List.append_assoc]) ?_ ?_ ?_
      · rw [LapFile.write, hstart, hat, hfile, overwrite_append, List.drop_drop, List.length_append]
      · rw [LapFile.write, hstart, hat, List.length_append]
      · rw [List.length_append]
        omega

/-! ## 3. What can be read -/

/-- The file from the position to `stop`, and then from the start to the position. -/
def LapFile.readFrom (f : LapFile α) (stop : Nat) : List α :=
  (f.bytes.drop f.position).take (stop - f.position) ++ f.bytes.take f.position

/-- **The end of the log is in the file**: all of the log, or more of its end than half the size. -/
theorem Lapped.latest {size : Int} {log : List α} {f : LapFile α} (h : Lapped size log f) :
    ∃ stop k, f.readFrom stop = log.drop k ∧ (k = 0 ∨ size < 2 * ((log.drop k).length : Int)) := by
  cases h with
  | first hbytes hpos =>
    refine ⟨f.position, 0, ?_, Or.inl rfl⟩
    rw [LapFile.readFrom, Nat.sub_self, List.take_zero, List.nil_append, hbytes, hpos, List.take_length,
      List.drop_zero]
  | later earlier last lap under hlog hbytes hpos hfull =>
    have hlap : f.bytes.take f.position = lap := by rw [hbytes, hpos, List.take_left]
    have hbehind : f.bytes.drop f.position =
        (last ++ under.drop last.length).drop lap.length := by rw [hbytes, hpos, List.drop_left]
    by_cases hshort : lap.length ≤ last.length
    · -- what the lap has left of the one before, and then the lap
      have hread : f.readFrom last.length = last.drop lap.length ++ lap := by
        have hlen : last.length - lap.length = (last.drop lap.length).length := by
          rw [List.length_drop]
        rw [LapFile.readFrom, hlap, hbehind, hpos, List.drop_append_of_le_length hshort, hlen,
          List.take_left]
      have hdrop : log.drop (earlier.length + lap.length) = last.drop lap.length ++ lap := by
        rw [hlog, List.append_assoc, ← List.drop_drop, List.drop_left,
          List.drop_append_of_le_length hshort]
      refine ⟨last.length, earlier.length + lap.length, hread.trans hdrop.symm, Or.inr ?_⟩
      rw [hdrop, List.length_append, List.length_drop]
      omega
    · -- the lap is longer than the one before
      have hdrop : log.drop (earlier.length + last.length) = lap := by
        rw [hlog, ← List.length_append, List.drop_left]
      refine ⟨f.position, earlier.length + last.length, ?_, Or.inr ?_⟩
      · rw [LapFile.readFrom, Nat.sub_self, List.take_zero, List.nil_append, hlap, hdrop]
      · rw [hdrop]
        omega

end VoidOsMerger
