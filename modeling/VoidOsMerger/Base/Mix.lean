/-
  File:      VoidOsMerger/Base/Mix.lean
  Subject:   HASH FINALISERS LOSE NOTHING.

  A finaliser mixes a word in rounds: xor with the word shifted right, then a product. A shift by half
  the width or more is undone by the same step (`xorShift_involutive`), a product by the inverse of the
  factor, which a round carries (`MixRound`, `MixRound.undo`). So rounds in a row are a permutation of
  the words (`mixRounds_bijective`).

  What is folded in by xor before the mixing is told apart only above the bits of the other part:
  `exists_xor_eq_iff`.
-/
import Mathlib.Logic.Function.Basic
import Mathlib.Data.Nat.Bitwise

namespace VoidOsMerger

variable {w : Nat}

/-- `x ^= x >> s` -/
def xorShift (s : Nat) (x : BitVec w) : BitVec w := x ^^^ (x >>> s)

theorem xorShift_involutive {s : Nat} (h : w ≤ s + s) : Function.Involutive (xorShift (w := w) s) := by
  intro x
  have hgone : x >>> s >>> s = 0#w := by
    rw [← BitVec.shiftRight_add]
    exact BitVec.ushiftRight_eq_zero h
  unfold xorShift
  rw [BitVec.ushiftRight_xor_distrib, hgone, BitVec.xor_zero, BitVec.xor_assoc, BitVec.xor_self,
    BitVec.xor_zero]

/-- A round that can be undone: `x ^= x >> shift; x *= factor`. -/
structure MixRound (w : Nat) where
  shift : Nat
  covers : w ≤ shift + shift
  factor : BitVec w
  inverse : BitVec w
  factor_inverse : factor * inverse = 1#w

def MixRound.apply (r : MixRound w) (x : BitVec w) : BitVec w := xorShift r.shift x * r.factor

/-- A round back: the product with the inverse, then the shift once more. -/
def MixRound.undo (r : MixRound w) (x : BitVec w) : BitVec w := xorShift r.shift (x * r.inverse)

theorem MixRound.undo_apply (r : MixRound w) : Function.LeftInverse r.undo r.apply := by
  intro x
  unfold MixRound.undo MixRound.apply
  rw [BitVec.mul_assoc, r.factor_inverse, BitVec.mul_one]
  exact xorShift_involutive r.covers x

theorem MixRound.apply_undo (r : MixRound w) : Function.RightInverse r.undo r.apply := by
  intro x
  unfold MixRound.undo MixRound.apply
  rw [xorShift_involutive r.covers, BitVec.mul_assoc, BitVec.mul_comm r.inverse, r.factor_inverse,
    BitVec.mul_one]

theorem MixRound.apply_bijective (r : MixRound w) : Function.Bijective r.apply :=
  Function.bijective_iff_has_inverse.mpr ⟨r.undo, r.undo_apply, r.apply_undo⟩

/-- Rounds in a row. -/
def mixRounds (rs : List (MixRound w)) (x : BitVec w) : BitVec w := rs.foldl (fun x r => r.apply x) x

theorem mixRounds_bijective (rs : List (MixRound w)) : Function.Bijective (mixRounds rs) := by
  induction rs with
  | nil => exact Function.bijective_id
  | cons r rs ih => exact ih.comp r.apply_bijective

/-! Two words, each xored with a number of at most `k` bits. -/

/-- A xor is short exactly when the words agree above. -/
theorem xor_lt_pow_iff (k a b : Nat) : a ^^^ b < 2 ^ k ↔ a / 2 ^ k = b / 2 ^ k := by
  rw [← Nat.div_eq_zero_iff_lt (Nat.two_pow_pos k), ← Nat.shiftRight_eq_div_pow,
    Nat.shiftRight_xor_distrib, Nat.xor_eq_zero_iff, Nat.shiftRight_eq_div_pow,
    Nat.shiftRight_eq_div_pow]

theorem exists_xor_eq_iff (k a b : Nat) :
    (∃ i < 2 ^ k, ∃ j < 2 ^ k, a ^^^ i = b ^^^ j) ↔ a / 2 ^ k = b / 2 ^ k := by
  rw [← xor_lt_pow_iff]
  constructor
  · rintro ⟨i, hi, j, hj, heq⟩
    have hxor : a ^^^ b = i ^^^ j := by
      calc a ^^^ b = (a ^^^ i) ^^^ (i ^^^ b) := by
            rw [Nat.xor_assoc, ← Nat.xor_assoc i i b, Nat.xor_self, Nat.zero_xor]
        _ = (b ^^^ j) ^^^ (i ^^^ b) := by rw [heq]
        _ = i ^^^ j := by
            rw [Nat.xor_comm i b, Nat.xor_comm b j, Nat.xor_assoc, ← Nat.xor_assoc b b i,
              Nat.xor_self, Nat.zero_xor, Nat.xor_comm]
    rw [hxor]
    exact Nat.xor_lt_two_pow hi hj
  · intro hlt
    refine ⟨0, Nat.two_pow_pos k, a ^^^ b, hlt, ?_⟩
    rw [Nat.xor_zero, Nat.xor_comm a b, ← Nat.xor_assoc, Nat.xor_self, Nat.zero_xor]

end VoidOsMerger
