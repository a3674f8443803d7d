/-
  File:      VoidOsMerger/Base/Keyed.lean
  Subject:   KEYED TABLES AS FINITE MAPS.

  A table whose entries carry a key is a finite map when no key occurs twice. `Keyed key val l m` says
  that the table `l` holds the map `m`; since a map has each key once, the table then does too
  (`Keyed.nodup`). The operations on tables (Table.lean) become operations on maps:
  * a search is a lookup (`Keyed.lookup`), the fill count the number of keys (`Keyed.card`);
  * `modifyFirst` by key and an append under a new key are insertions (`Keyed.modifyFirst`,
    `Keyed.snoc`);
  * a loop over all entries is a map over all values (`Keyed.map`, `Keyed.countP`).
-/
import VoidOsMerger.Base.Table
import Mathlib.Data.Finmap

namespace VoidOsMerger

variable {α κ ν : Type}

/-- The entries of a table as pairs of key and value. -/
def pairs (key : α → κ) (val : α → ν) (l : List α) : List (Sigma fun _ : κ => ν) :=
  l.map fun x => ⟨key x, val x⟩

/-- The table `l` holds the finite map `m`. -/
def Keyed (key : α → κ) (val : α → ν) (l : List α) (m : Finmap fun _ : κ => ν) : Prop :=
  m.entries = (pairs key val l : Multiset (Sigma fun _ : κ => ν))

/-- A map with all its values changed. -/
def mapValues (f : ν → ν) (m : Finmap fun _ : κ => ν) : Finmap fun _ : κ => ν where
  entries := m.entries.map fun p => ⟨p.1, f p.2⟩
  nodupKeys := by
    have hkeys : (m.entries.map fun p => (⟨p.1, f p.2⟩ : Sigma fun _ : κ => ν)).keys =
        m.entries.keys := Multiset.map_map _ _ _
    rw [← Multiset.nodup_keys, hkeys]
    exact m.nodupKeys.nodup_keys

section Keyed

variable {key : α → κ} {val : α → ν} {l : List α} {m : Finmap fun _ : κ => ν}

theorem Keyed.nil : Keyed key val [] ∅ := rfl

/-- A table that holds a map has each key once. -/
theorem Keyed.nodup (h : Keyed key val l m) : (l.map key).Nodup := by
  have hkeys : (pairs key val l).keys = l.map key := List.map_map
  have hnodup := m.nodupKeys.nodup_keys
  rw [h, Multiset.coe_keys, Multiset.coe_nodup, hkeys] at hnodup
  exact hnodup

/-- The number of keys is the fill count. -/
theorem Keyed.card (h : Keyed key val l m) : m.keys.card = l.length := by
  show Multiset.card m.entries.keys = _
  rw [h, Multiset.keys, Multiset.card_map, Multiset.coe_card, pairs, List.length_map]

/-- A loop over all entries. -/
theorem Keyed.map (h : Keyed key val l m) {g : α → α} {f : ν → ν} (hkey : ∀ x, key (g x) = key x)
    (hval : ∀ x, val (g x) = f (val x)) : Keyed key val (l.map g) (mapValues f m) := by
  show m.entries.map _ = _
  rw [h, Multiset.map_coe, pairs, pairs, List.map_map, List.map_map]
  exact congrArg _ (List.map_congr_left fun x _ => by simp [hkey, hval])

/-- A count over all entries. -/
theorem Keyed.countP (h : Keyed key val l m) (p : ν → Bool) :
    m.entries.countP (fun e => p e.2) = l.countP fun x => p (val x) := by
  rw [h, Multiset.coe_countP, pairs, List.countP_map]
  exact List.countP_congr fun x _ => by simp

variable [DecidableEq κ]

/-- The search by key is the lookup. -/
theorem Keyed.lookup (h : Keyed key val l m) {p : α → Bool} {a : κ}
    (hp : ∀ x, p x = true ↔ key x = a) : m.lookup a = (l.find? p).map val := by
  cases hf : l.find? p with
  | some x =>
    refine Finmap.lookup_eq_some_iff.mpr ?_
    rw [h, Multiset.mem_coe, ← (hp x).mp (List.find?_some hf)]
    exact List.mem_map_of_mem (List.mem_of_find?_eq_some hf)
  | none =>
    refine Finmap.lookup_eq_none.mpr fun hmem => ?_
    rw [Finmap.mem_def, h, Multiset.coe_keys, Multiset.mem_coe, List.keys, pairs, List.map_map] at hmem
    obtain ⟨x, hx, hxa⟩ := List.mem_map.mp hmem
    exact List.find?_eq_none.mp hf x hx ((hp x).mpr hxa)

/-- An entry appended under a new key. -/
theorem Keyed.snoc (h : Keyed key val l m) {x : α} (hx : m.lookup (key x) = none) :
    Keyed key val (l ++ [x]) (m.insert (key x) (val x)) := by
  show (m.insert (key x) (val x)).entries = _
  rw [Finmap.entries_insert_of_notMem (Finmap.lookup_eq_none.mp hx), h, Multiset.cons_coe,
    Multiset.coe_eq_coe, pairs, pairs, List.map_append]
  exact (List.perm_append_singleton _ _).symm

/-- The entries of a map after an insertion. -/
theorem entries_insert (h : Keyed key val l m) (a : κ) (b : ν) :
    (m.insert a b).entries = (⟨a, b⟩ :: (pairs key val l).kerase a : List (Sigma fun _ : κ => ν)) := by
  obtain ⟨entries, hnodup⟩ := m
  obtain rfl : entries = (pairs key val l : Multiset (Sigma fun _ : κ => ν)) := h
  rfl

/-- The first entry with the key changed. -/
theorem Keyed.modifyFirst (h : Keyed key val l m) {p : α → Bool} {f : α → α} {x : α} {a : κ}
    (hp : ∀ y, p y = true ↔ key y = a) (hf : l.find? p = some x) (hkey : key (f x) = a) :
    Keyed key val (modifyFirst p f l) (m.insert a (val (f x))) := by
  have herase : (pairs key val l).kerase a = pairs key val (l.eraseP p) := by
    unfold List.kerase pairs
    rw [List.eraseP_map]
    refine congrArg _ (congrArg (fun q => l.eraseP q) (funext fun y => ?_))
    exact Bool.eq_iff_iff.mpr (by simp [hp, eq_comm])
  show (m.insert a (val (f x))).entries = _
  rw [entries_insert h, herase, Multiset.coe_eq_coe]
  refine List.Perm.symm (((modifyFirst_perm f hf).map _).trans ?_)
  rw [List.map_cons, hkey]
  rfl

end Keyed

end VoidOsMerger
