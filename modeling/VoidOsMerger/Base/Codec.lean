/-
  File:      VoidOsMerger/Base/Codec.lean
  Subject:   FIXED-SIZE RECORDS AS BYTES, little-endian.

  `Codec α` writes a value as a fixed number of bytes and reads it back; the two laws are fields, so
  every codec built here round-trips by construction. Records are built from their fields with
  `pair`, `pad`, `vec` and `map`, in the order the fields lie in memory. `CEnum` is an enumeration
  field as memory holds it: a named value or some other integer.
-/
import Mathlib.Algebra.Order.Group.Nat
import Mathlib.Data.Nat.ModEq
import Mathlib.Tactic.Ring

namespace VoidOsMerger

/-! ## 1. Little-endian numbers -/

/-- The `w` low bytes of `n`, the least significant first. -/
def leBytes : Nat → Nat → List UInt8
  | 0, _ => []
  | w + 1, n => UInt8.ofNat n :: leBytes w (n / 256)

/-- The number with these bytes, the least significant first. -/
def leValue : List UInt8 → Nat
  | [] => 0
  | b :: bs => b.toNat + 256 * leValue bs

@[simp] theorem length_leBytes : ∀ (w n : Nat), (leBytes w n).length = w
  | 0, _ => rfl
  | w + 1, n => congrArg (· + 1) (length_leBytes w (n / 256))

theorem leValue_leBytes : ∀ {w n : Nat}, n < 256 ^ w → leValue (leBytes w n) = n
  | 0, n, h => by
      rw [pow_zero, Nat.lt_one_iff] at h
      rw [h]
      rfl
  | w + 1, n, h => by
      have hq : n / 256 < 256 ^ w := by
        rw [pow_succ] at h
        exact Nat.div_lt_of_lt_mul (by omega)
      show (UInt8.ofNat n).toNat + 256 * leValue (leBytes w (n / 256)) = n
      rw [leValue_leBytes hq, UInt8.toNat_ofNat']
      exact Nat.mod_add_div n 256

theorem leValue_lt : ∀ l : List UInt8, leValue l < 256 ^ l.length
  | [] => Nat.one_pos
  | b :: bs => by
      have hb := b.toNat_lt
      have ih := leValue_lt bs
      rw [leValue, List.length_cons, pow_succ]
      omega

theorem leBytes_leValue : ∀ l : List UInt8, leBytes l.length (leValue l) = l
  | [] => rfl
  | b :: bs => by
      have hb := b.toNat_lt
      have hhead : UInt8.ofNat (b.toNat + 256 * leValue bs) = b := by
        apply UInt8.toNat_inj.mp
        rw [UInt8.toNat_ofNat']
        omega
      have htail : (b.toNat + 256 * leValue bs) / 256 = leValue bs := by omega
      rw [List.length_cons, leValue, leBytes, hhead, htail, leBytes_leValue bs]

/-! ## 2. Codecs -/

/-- A value as `size` bytes and back. -/
structure Codec (α : Type) where
  size : Nat
  enc : α → List UInt8
  dec : List UInt8 → α
  length_enc : ∀ a, (enc a).length = size
  dec_enc : ∀ a, dec (enc a) = a

namespace Codec

variable {α β : Type}

/-- An unsigned integer of `w` bytes. -/
def uint (w : Nat) (toNat : α → Nat) (ofNat : Nat → α) (hlt : ∀ a, toNat a < 256 ^ w)
    (hof : ∀ a, ofNat (toNat a) = a) : Codec α where
  size := w
  enc a := leBytes w (toNat a)
  dec l := ofNat (leValue l)
  length_enc a := length_leBytes w (toNat a)
  dec_enc a := by rw [leValue_leBytes (hlt a), hof]

def u8 : Codec UInt8 :=
  uint 1 UInt8.toNat UInt8.ofNat (fun a => a.toNat_lt) fun _ => UInt8.ofNat_toNat

def u16 : Codec UInt16 :=
  uint 2 UInt16.toNat UInt16.ofNat (fun a => a.toNat_lt) fun _ => UInt16.ofNat_toNat

def u32 : Codec UInt32 :=
  uint 4 UInt32.toNat UInt32.ofNat (fun a => a.toNat_lt) fun _ => UInt32.ofNat_toNat

def u64 : Codec UInt64 :=
  uint 8 UInt64.toNat UInt64.ofNat (fun a => a.toNat_lt) fun _ => UInt64.ofNat_toNat

/-- One value after another. -/
def pair (c : Codec α) (d : Codec β) : Codec (α × β) where
  size := c.size + d.size
  enc p := c.enc p.1 ++ d.enc p.2
  dec l := (c.dec (l.take c.size), d.dec (l.drop c.size))
  length_enc p := by rw [List.length_append, c.length_enc, d.length_enc]
  dec_enc p := by
    rw [List.take_left' (c.length_enc p.1), List.drop_left' (c.length_enc p.1), c.dec_enc, d.dec_enc]

/-- The same bytes read as another type. -/
def map (c : Codec α) (f : α → β) (g : β → α) (h : ∀ b, f (g b) = b) : Codec β where
  size := c.size
  enc b := c.enc (g b)
  dec l := f (c.dec l)
  length_enc b := c.length_enc (g b)
  dec_enc b := by rw [c.dec_enc, h]

/-- A C `int`. -/
def int32 : Codec Int32 :=
  u32.map UInt32.toInt32 Int32.toUInt32 fun _ => rfl

/-- `n` bytes of padding after a value, written as zeros and not read. -/
def pad (c : Codec α) (n : Nat) : Codec α where
  size := c.size + n
  enc a := c.enc a ++ List.replicate n 0
  dec l := c.dec (l.take c.size)
  length_enc a := by rw [List.length_append, c.length_enc, List.length_replicate]
  dec_enc a := by rw [List.take_left' (c.length_enc a), c.dec_enc]

/-- A beginning of an encoding is all of it, or shorter than one. -/
theorem take_enc_whole (c : Codec α) (a : α) {n : Nat} (h : c.size ≤ n) :
    (c.enc a).take n = c.enc a :=
  List.take_of_length_le ((c.length_enc a).le.trans h)

theorem take_enc_short (c : Codec α) (a : α) {n : Nat} (h : ¬ c.size ≤ n) :
    ((c.enc a).take n).length < c.size := by
  rw [List.length_take, c.length_enc]
  omega

/-- `n` values read off consecutive bytes. -/
def decList (c : Codec α) : Nat → List UInt8 → List α
  | 0, _ => []
  | n + 1, l => c.dec (l.take c.size) :: c.decList n (l.drop c.size)

theorem length_decList (c : Codec α) : ∀ (n : Nat) (l : List UInt8), (c.decList n l).length = n
  | 0, _ => rfl
  | n + 1, l => congrArg (· + 1) (length_decList c n (l.drop c.size))

theorem decList_flatMap (c : Codec α) : ∀ as : List α, c.decList as.length (as.flatMap c.enc) = as
  | [] => rfl
  | a :: as => by
      rw [List.length_cons, List.flatMap_cons, decList, List.take_left' (c.length_enc a),
        List.drop_left' (c.length_enc a), c.dec_enc, decList_flatMap c as]

theorem length_flatMap_enc (c : Codec α) : ∀ as : List α,
    (as.flatMap c.enc).length = as.length * c.size
  | [] => by simp
  | a :: as => by
      rw [List.flatMap_cons, List.length_append, c.length_enc, length_flatMap_enc c as,
        List.length_cons, Nat.add_mul, Nat.one_mul, Nat.add_comm]

/-- An array of `n` values. -/
def vec (c : Codec α) (n : Nat) : Codec (Vector α n) where
  size := n * c.size
  enc v := v.toList.flatMap c.enc
  dec l := ⟨(c.decList n l).toArray, c.length_decList n l⟩
  length_enc v := by rw [length_flatMap_enc, Vector.length_toList]
  dec_enc v := by
    apply Vector.toList_inj.mp
    show c.decList n (v.toList.flatMap c.enc) = v.toList
    have h := c.decList_flatMap v.toList
    rwa [Vector.length_toList] at h

/-- A record at the head of a longer buffer. -/
theorem dec_take_enc (c : Codec α) (a : α) (rest : List UInt8) :
    c.dec ((c.enc a ++ rest).take c.size) = a := by
  rw [List.take_left' (c.length_enc a), c.dec_enc]

theorem drop_enc (c : Codec α) (a : α) (rest : List UInt8) :
    (c.enc a ++ rest).drop c.size = rest :=
  List.drop_left' (c.length_enc a)

/-! ### Records without slack

Where every byte string of the right length is the image of a value, reading and writing back gives
the bytes again. Padding and enumerations spoil this. -/

/-- Every string of `size` bytes is an image. -/
def Exact (c : Codec α) : Prop := ∀ l : List UInt8, l.length = c.size → c.enc (c.dec l) = l

theorem uint_exact {w : Nat} {toNat : α → Nat} {ofNat : Nat → α} {hlt : ∀ a, toNat a < 256 ^ w}
    {hof : ∀ a, ofNat (toNat a) = a} (hto : ∀ n, n < 256 ^ w → toNat (ofNat n) = n) :
    (uint w toNat ofNat hlt hof).Exact := by
  intro l hl
  have hl : l.length = w := hl
  show leBytes w (toNat (ofNat (leValue l))) = l
  rw [hto _ (hl ▸ leValue_lt l)]
  exact hl ▸ leBytes_leValue l

theorem u16_exact : u16.Exact := uint_exact fun _ h => UInt16.toNat_ofNat_of_lt' h

theorem u32_exact : u32.Exact := uint_exact fun _ h => UInt32.toNat_ofNat_of_lt' h

theorem u64_exact : u64.Exact := uint_exact fun _ h => UInt64.toNat_ofNat_of_lt' h

theorem Exact.pair {c : Codec α} {d : Codec β} (hc : c.Exact) (hd : d.Exact) : (c.pair d).Exact := by
  intro l hl
  have hl : l.length = c.size + d.size := hl
  show c.enc (c.dec (l.take c.size)) ++ d.enc (d.dec (l.drop c.size)) = l
  rw [hc _ (by rw [List.length_take]; omega), hd _ (by rw [List.length_drop]; omega),
    List.take_append_drop]

theorem Exact.map {c : Codec α} (hc : c.Exact) {f : α → β} {g : β → α} {h : ∀ b, f (g b) = b}
    (hgf : ∀ a, g (f a) = a) : (c.map f g h).Exact := by
  intro l hl
  show c.enc (g (f (c.dec l))) = l
  rw [hgf]
  exact hc l hl

/-! ### Records inside a buffer

Where a record lies in a buffer, and with it each of its fields. -/

/-- The image of `a` stands at offset `off`. -/
def At (c : Codec α) (data : List UInt8) (off : Nat) (a : α) : Prop :=
  ∃ before after, data = before ++ (c.enc a ++ after) ∧ before.length = off

section At

variable {c : Codec α} {d : Codec β} {data : List UInt8} {off : Nat}

theorem at_enc (c : Codec α) (a : α) : c.At (c.enc a) 0 a :=
  ⟨[], [], by rw [List.nil_append, List.append_nil], rfl⟩

theorem At.fits {a : α} (h : c.At data off a) : off + c.size ≤ data.length := by
  obtain ⟨before, after, rfl, rfl⟩ := h
  rw [List.length_append, List.length_append, c.length_enc]
  omega

theorem At.dec {a : α} (h : c.At data off a) : c.dec ((data.drop off).take c.size) = a := by
  obtain ⟨before, after, rfl, rfl⟩ := h
  rw [List.drop_left, c.dec_take_enc]

theorem At.take {a : α} (h : c.At data off a) : (data.drop off).take c.size = c.enc a := by
  obtain ⟨before, after, rfl, rfl⟩ := h
  rw [List.drop_left, List.take_left' (c.length_enc a)]

theorem At.head {p : α × β} (h : (c.pair d).At data off p) : c.At data off p.1 := by
  obtain ⟨before, after, rfl, hoff⟩ := h
  refine ⟨before, d.enc p.2 ++ after, ?_, hoff⟩
  show before ++ (c.enc p.1 ++ d.enc p.2 ++ after) = _
  rw [List.append_assoc]

theorem At.tail {p : α × β} (h : (c.pair d).At data off p) : d.At data (off + c.size) p.2 := by
  obtain ⟨before, after, rfl, hoff⟩ := h
  refine ⟨before ++ c.enc p.1, after, ?_, ?_⟩
  · show before ++ (c.enc p.1 ++ d.enc p.2 ++ after) = _
    rw [List.append_assoc, List.append_assoc]
  · rw [List.length_append, c.length_enc, hoff]

theorem At.unpad {a : α} {n : Nat} (h : (c.pad n).At data off a) : c.At data off a := by
  obtain ⟨before, after, rfl, hoff⟩ := h
  refine ⟨before, List.replicate n 0 ++ after, ?_, hoff⟩
  show before ++ (c.enc a ++ List.replicate n 0 ++ after) = _
  rw [List.append_assoc]

theorem At.unmap {f : α → β} {g : β → α} {hfg : ∀ b, f (g b) = b} {b : β}
    (h : (c.map f g hfg).At data off b) : c.At data off (g b) := h

/-- An entry of an array. -/
theorem At.entry {n : Nat} {v : Vector α n} (h : (c.vec n).At data off v) {i : Nat} {a : α}
    (hi : v.toList[i]? = some a) : c.At data (off + i * c.size) a := by
  obtain ⟨before, after, rfl, hoff⟩ := h
  obtain ⟨hlt, hget⟩ := List.getElem?_eq_some_iff.mp hi
  have hsplit : v.toList = v.toList.take i ++ a :: v.toList.drop (i + 1) := by
    rw [← hget, List.getElem_cons_drop, List.take_append_drop]
  refine ⟨before ++ (v.toList.take i).flatMap c.enc,
    (v.toList.drop (i + 1)).flatMap c.enc ++ after, ?_, ?_⟩
  · have hflat : v.toList.flatMap c.enc = (v.toList.take i).flatMap c.enc ++
        (c.enc a ++ (v.toList.drop (i + 1)).flatMap c.enc) := by
      rw [← List.flatMap_cons, ← List.flatMap_append, ← hsplit]
    show before ++ (v.toList.flatMap c.enc ++ after) = _
    rw [hflat, List.append_assoc, List.append_assoc, List.append_assoc]
  · rw [List.length_append, length_flatMap_enc, List.length_take, Nat.min_eq_left hlt.le, hoff]

end At

end Codec

/-! ## 3. Enumerations -/

/-- An enumeration field with the named values `0 .. n - 1`, as memory holds it. -/
inductive CEnum (E : Type) (n : Nat)
  | value (e : E)
  | other (code : { c : UInt32 // n ≤ c.toNat })
  deriving DecidableEq

/-- The four bytes of an enumeration field. -/
def Codec.enum {E : Type} (n : Nat) (code : E → UInt32) (ofCode : UInt32 → E)
    (hlt : ∀ e, (code e).toNat < n) (hof : ∀ e, ofCode (code e) = e) : Codec (CEnum E n) :=
  Codec.u32.map
    (fun c => if h : n ≤ c.toNat then .other ⟨c, h⟩ else .value (ofCode c))
    (fun x => match x with
      | .value e => code e
      | .other c => c.1)
    fun x => by
      cases x with
      | value e => rw [dif_neg (Nat.not_le.mpr (hlt e)), hof]
      | other c => rw [dif_pos c.2]

/-- The word of an enumeration field. -/
def CEnum.word {E : Type} {n : Nat} (code : E → UInt32) : CEnum E n → UInt32
  | .value e => code e
  | .other c => c.1

/-- An enumeration field read as an `int`. -/
theorem Codec.At.enumWord {E : Type} {n : Nat} {code : E → UInt32} {ofCode : UInt32 → E}
    {hlt : ∀ e, (code e).toNat < n} {hof : ∀ e, ofCode (code e) = e} {data : List UInt8} {off : Nat}
    {x : CEnum E n} (h : (Codec.enum n code ofCode hlt hof).At data off x) :
    Codec.int32.At data off (x.word code).toInt32 := by
  cases x with
  | value e => exact h
  | other c => exact h

/-- The words that are no named value are no named value as `int`s either. -/
theorem word_outside {n : Nat} {c : UInt32} (h : n ≤ c.toNat) (hn : n ≤ 2 ^ 31) :
    ¬ (0 ≤ c.toInt32.toInt ∧ c.toInt32.toInt < n) := by
  have hlt := c.toNat_lt
  have hval : c.toInt32.toInt = (c.toNat : Int).bmod (2 ^ 32) := by
    show c.toBitVec.toInt = _
    rw [BitVec.toInt_eq_toNat_bmod]
    rfl
  rw [hval, Int.bmod_def]
  omega

end VoidOsMerger
