import Mathlib.Data.List.Dedup

/-!
# Hash maps

A hash map by its entries, each key once.  The order of the entries is that of
an iteration over the map and means nothing else: what is proved of a map is
proved of what it holds under each key.

* `get_insert`, `get_mapValues` — what the operations hold.
* `get_collect` — reading a map entry by entry into another one.
* `length_le`, `length_eq_iff` — the size of a map against the keys inserted.
-/

namespace CastApp.Verified

structure HashMap (K V : Type) where
  entries : List (K × V)
  hKeys : (entries.map Prod.fst).Nodup

namespace HashMap

variable {K V W : Type} [DecidableEq K]

def empty : HashMap K V := ⟨[], List.nodup_nil⟩

def get (m : HashMap K V) (key : K) : Option V := m.entries.lookup key

/-- Insert, in the place of what was held under the key. -/
def insert (m : HashMap K V) (key : K) (value : V) : HashMap K V where
  entries := (key, value) :: m.entries.filter (fun entry => entry.1 ≠ key)
  hKeys := by
    rw [List.map_cons, List.nodup_cons]
    constructor
    · simp
    · exact m.hKeys.sublist (List.filter_sublist.map Prod.fst)

/-- The same keys with other values. -/
def mapValues (m : HashMap K V) (f : V → W) : HashMap K W where
  entries := m.entries.map fun entry => (entry.1, f entry.2)
  hKeys := by
    rw [List.map_map]
    exact m.hKeys

/-- Insert the entries one by one, leaving out those that do not decode. -/
def collect (m : HashMap K V) (decode : V → Option W) : HashMap K W :=
  m.entries.foldl
    (fun collected entry =>
      match decode entry.2 with
      | some value => collected.insert entry.1 value
      | none => collected)
    empty

@[simp] theorem get_empty (key : K) : (empty : HashMap K V).get key = none := rfl

theorem lookup_filter_ne (entries : List (K × V)) {key other : K} (hNe : other ≠ key) :
    (entries.filter fun entry => entry.1 ≠ key).lookup other = entries.lookup other := by
  induction entries with
  | nil => rfl
  | cons entry entries ih =>
      obtain ⟨k, v⟩ := entry
      by_cases hKey : k = key
      · subst hKey
        simp only [List.filter_cons, ne_eq, not_true_eq_false, decide_false, Bool.false_eq_true,
          if_false, List.lookup_cons]
        rw [ih, beq_false_of_ne hNe]
      · simp only [List.filter_cons, ne_eq, hKey, not_false_eq_true, decide_true, if_true,
          List.lookup_cons, ih]

theorem get_insert (m : HashMap K V) (key other : K) (value : V) :
    (m.insert key value).get other = if other = key then some value else m.get other := by
  unfold get insert
  by_cases hKey : other = key
  · simp [hKey]
  · rw [List.lookup_cons, beq_false_of_ne hKey, if_neg hKey]
    exact lookup_filter_ne m.entries hKey

@[simp] theorem get_mapValues (m : HashMap K V) (f : V → W) (key : K) :
    (m.mapValues f).get key = (m.get key).map f := by
  obtain ⟨entries, hKeys⟩ := m
  show (entries.map fun entry => (entry.1, f entry.2)).lookup key = (entries.lookup key).map f
  clear hKeys
  induction entries with
  | nil => rfl
  | cons entry entries ih =>
      obtain ⟨k, v⟩ := entry
      simp only [List.map_cons, List.lookup_cons, ih]
      cases key == k <;> rfl

theorem lookup_eq_none {entries : List (K × V)} {key : K} (h : key ∉ entries.map Prod.fst) :
    entries.lookup key = none := by
  rw [List.lookup_eq_none_iff]
  intro entry hMem
  apply bne_iff_ne.mpr
  rintro rfl
  exact h (List.mem_map_of_mem hMem)

/-- A key that decodes is held as decoded, and no other key is added. -/
theorem get_collect (m : HashMap K V) (decode : V → Option W) (key : K) :
    (m.collect decode).get key = (m.get key).bind decode := by
  unfold collect
  suffices h : ∀ (entries : List (K × V)) (collected : HashMap K W),
      (entries.map Prod.fst).Nodup →
        (entries.foldl (fun collected entry =>
          match decode entry.2 with
          | some value => collected.insert entry.1 value
          | none => collected) collected).get key =
        ((entries.lookup key).bind decode).or (collected.get key) by
    rw [h m.entries empty m.hKeys, get_empty, Option.or_none]
    rfl
  intro entries
  induction entries with
  | nil => simp
  | cons entry entries ih =>
      intro collected hKeys
      obtain ⟨k, v⟩ := entry
      rw [List.map_cons, List.nodup_cons] at hKeys
      rw [List.foldl_cons, ih _ hKeys.2, List.lookup_cons]
      by_cases hKey : key = k
      · subst hKey
        rw [lookup_eq_none hKeys.1]
        cases hDecode : decode v with
        | none => simp [hDecode]
        | some w => simp [hDecode, get_insert]
      · rw [beq_false_of_ne hKey]
        cases decode v with
        | none => rfl
        | some w => simp [get_insert, hKey]

theorem mem_keys_insert (m : HashMap K V) (key other : K) (value : V) :
    other ∈ (m.insert key value).entries.map Prod.fst ↔
      other = key ∨ other ∈ m.entries.map Prod.fst := by
  by_cases hKey : other = key <;> simp [insert, hKey]

section Keys

variable {m : HashMap K V} {keys : List K}

theorem length_dedup (h : ∀ key, key ∈ m.entries.map Prod.fst ↔ key ∈ keys) :
    m.entries.length = keys.dedup.length := by
  have hPerm : (m.entries.map Prod.fst).Perm keys.dedup := by
    rw [List.perm_ext_iff_of_nodup m.hKeys (List.nodup_dedup keys)]
    intro key
    rw [List.mem_dedup]
    exact h key
  rw [← hPerm.length_eq, List.length_map]

/-- A key that is inserted again takes no place of its own. -/
theorem length_le (h : ∀ key, key ∈ m.entries.map Prod.fst ↔ key ∈ keys) :
    m.entries.length ≤ keys.length := by
  rw [length_dedup h]
  exact (List.dedup_sublist keys).length_le

theorem length_eq_iff (h : ∀ key, key ∈ m.entries.map Prod.fst ↔ key ∈ keys) :
    m.entries.length = keys.length ↔ keys.Nodup := by
  rw [length_dedup h]
  constructor
  · intro hLength
    exact List.dedup_eq_self.mp ((List.dedup_sublist keys).eq_of_length hLength)
  · intro hNodup
    rw [hNodup.dedup]

end Keys

end HashMap

end CastApp.Verified
