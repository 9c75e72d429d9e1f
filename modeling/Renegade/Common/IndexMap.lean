import Mathlib.Data.List.Nodup

/-!
# Insertion-ordered maps and their serde

`IndexMap<K, V>` as a wallet holds its orders and balances: the entries in insertion order,
with distinct keys. `insert` replaces the value of a present key in place and appends a new key
at the end; collecting pairs inserts them in turn. `serialize_indexmap` writes the entries as a
vector of pairs and `deserialize_indexmap` collects that vector back, so the vector stands for
its serde text (serde round-trips a `Vec<(K, V)>`). Both round trips are exact, iteration order
included: from a map, and from a pair list with distinct keys.
-/

namespace Renegade

/-- `IndexMap<K, V>`. -/
@[ext] structure IndexMap (κ ν : Type) where
  /-- The entries, in insertion order. -/
  entries : List (κ × ν)
  /-- No key is present twice. -/
  nodup_keys : (entries.map Prod.fst).Nodup

namespace IndexMap

variable {κ ν : Type}

/-- The keys, in insertion order. -/
def keys (m : IndexMap κ ν) : List κ := m.entries.map Prod.fst

/-- `IndexMap::new`. -/
def empty : IndexMap κ ν := ⟨[], List.nodup_nil⟩

/-- `into_iter`: the entries in insertion order. -/
def intoIter (m : IndexMap κ ν) : List (κ × ν) := m.entries

/-- `into_values`: the values in insertion order. -/
def values (m : IndexMap κ ν) : List ν := m.entries.map Prod.snd

/-- `retain`: keep the entries that satisfy `keep`, in their order. -/
def retain (m : IndexMap κ ν) (keep : κ → ν → Bool) : IndexMap κ ν :=
  ⟨m.entries.filter fun e => keep e.1 e.2,
    m.nodup_keys.sublist ((List.filter_sublist _).map _)⟩

/-- The values kept by `retain` are the values that satisfy it, in order. -/
theorem values_retain (m : IndexMap κ ν) (keep : ν → Bool) :
    (m.retain fun _ v => keep v).values = m.values.filter keep := by
  simp only [values, retain, List.filter_map]
  rfl

/-- The map with each value recomputed from its entry, keys and order kept. -/
def mapEntries (m : IndexMap κ ν) (g : κ × ν → ν) : IndexMap κ ν :=
  ⟨m.entries.map fun e => (e.1, g e), by rw [List.map_map]; exact m.nodup_keys⟩

@[simp] theorem keys_mapEntries (m : IndexMap κ ν) (g : κ × ν → ν) :
    (m.mapEntries g).keys = m.keys := by
  rw [keys, mapEntries, List.map_map]
  rfl

theorem mapEntries_congr {m : IndexMap κ ν} {g g' : κ × ν → ν}
    (h : ∀ e ∈ m.entries, g e = g' e) : m.mapEntries g = m.mapEntries g' :=
  IndexMap.ext (List.map_congr_left fun e he => by rw [h e he])

@[simp] theorem mapEntries_snd (m : IndexMap κ ν) : m.mapEntries Prod.snd = m :=
  IndexMap.ext (List.map_id' _)

theorem mapEntries_mapEntries (m : IndexMap κ ν) (g g' : κ × ν → ν) :
    (m.mapEntries g).mapEntries g' = m.mapEntries fun e => g' (e.1, g e) :=
  IndexMap.ext (List.map_map _ _ _)

variable [DecidableEq κ]

/-- `get`: the value under a key. -/
def get? (m : IndexMap κ ν) (k : κ) : Option ν := m.entries.lookup k

/-- `get_mut` followed by an update in place of the value under `k`. -/
def modify (m : IndexMap κ ν) (k : κ) (f : ν → ν) : IndexMap κ ν :=
  m.mapEntries fun e => if e.1 = k then f e.2 else e.2

/-- Recomputing the values changes the value under each key by the same function. -/
theorem get?_mapEntries (m : IndexMap κ ν) (g : κ × ν → ν) (k : κ) :
    (m.mapEntries g).get? k = (m.get? k).map fun v => g (k, v) := by
  simp only [get?, mapEntries]
  induction m.entries with
  | nil => rfl
  | cons e entries ih =>
    obtain ⟨k', v⟩ := e
    by_cases h : k = k'
    · subst h; simp [List.lookup_cons]
    · simp [List.lookup_cons, beq_false_of_ne h, ih]

/-- A key has a value exactly when it is present. -/
theorem isSome_get?_iff (m : IndexMap κ ν) (k : κ) : (m.get? k).isSome ↔ k ∈ m.keys := by
  simp only [get?, keys]
  induction m.entries with
  | nil => simp
  | cons e entries ih =>
    obtain ⟨k', v⟩ := e
    by_cases h : k = k'
    · subst h; simp [List.lookup_cons]
    · simp [List.lookup_cons, beq_false_of_ne h, ih, h]

/-- `retain` keeps the value under a key exactly when it satisfies the predicate; keys are
distinct, so no later entry shows through. -/
theorem get?_retain (m : IndexMap κ ν) (keep : κ → ν → Bool) (k : κ) :
    (m.retain keep).get? k = (m.get? k).filter (keep k) := by
  obtain ⟨entries, hnodup⟩ := m
  simp only [get?, retain]
  induction entries with
  | nil => rfl
  | cons e entries ih =>
    obtain ⟨k', v⟩ := e
    rw [List.map_cons, List.nodup_cons] at hnodup
    by_cases h : k = k'
    · subst h
      have hnone : (entries.filter fun e => keep e.1 e.2).lookup k = none :=
        List.lookup_eq_none_iff.mpr fun p hp => bne_iff_ne.mpr fun hk =>
          hnodup.1 (List.mem_map.mpr ⟨p, (List.mem_filter.mp hp).1, hk.symm⟩)
      by_cases hk : keep k v <;> simp [List.filter_cons, Option.filter, hk, hnone]
    · by_cases hk : keep k' v <;>
        simp [List.filter_cons, List.lookup_cons, hk, beq_false_of_ne h, ih hnodup.2]

/-- The entries after inserting `v` under `k`: in place when `k` is present, else at the end. -/
def insertEntries (entries : List (κ × ν)) (k : κ) (v : ν) : List (κ × ν) :=
  if k ∈ entries.map Prod.fst then entries.map fun e => if e.1 = k then (k, v) else e
  else entries ++ [(k, v)]

theorem nodup_keys_insertEntries (m : IndexMap κ ν) (k : κ) (v : ν) :
    ((insertEntries m.entries k v).map Prod.fst).Nodup := by
  unfold insertEntries
  split
  · have hkeys : ((m.entries.map fun e => if e.1 = k then (k, v) else e).map Prod.fst) =
        m.entries.map Prod.fst := by
      rw [List.map_map]
      exact List.map_congr_left fun e _ => by by_cases h : e.1 = k <;> simp [h]
    rw [hkeys]
    exact m.nodup_keys
  · rename_i hk
    rw [List.map_append, List.nodup_append]
    exact ⟨m.nodup_keys, List.nodup_singleton _, by simpa using hk⟩

/-- `IndexMap::insert`. -/
def insert (m : IndexMap κ ν) (k : κ) (v : ν) : IndexMap κ ν :=
  ⟨insertEntries m.entries k v, m.nodup_keys_insertEntries k v⟩

/-- `FromIterator for IndexMap`: insert the pairs in turn into an empty map. -/
def collect (pairs : List (κ × ν)) : IndexMap κ ν :=
  pairs.foldl (fun m e => m.insert e.1 e.2) empty

/-- `serialize_indexmap`: the entries as a vector of pairs. -/
def serializeIndexmap (m : IndexMap κ ν) : List (κ × ν) := m.intoIter

/-- `deserialize_indexmap`: collect the vector of pairs. -/
def deserializeIndexmap (vec : List (κ × ν)) : IndexMap κ ν := collect vec

/-- Inserting a new key appends its entry. -/
theorem insert_entries_of_not_mem {m : IndexMap κ ν} {k : κ} (hk : k ∉ m.keys) (v : ν) :
    (m.insert k v).entries = m.entries ++ [(k, v)] :=
  if_neg hk

/-- Inserting pairs whose keys are new and distinct appends them in order. -/
theorem foldl_insert_of_nodup : ∀ (pairs : List (κ × ν)) (m : IndexMap κ ν),
    (m.keys ++ pairs.map Prod.fst).Nodup →
    (pairs.foldl (fun m e => m.insert e.1 e.2) m).entries = m.entries ++ pairs
  | [], m, _ => by simp
  | (k, v) :: pairs, m, h => by
    have hk : k ∉ m.keys := fun hk => (List.nodup_append.mp h).2.2 hk (List.mem_cons_self _ _)
    have h' : ((m.insert k v).keys ++ pairs.map Prod.fst).Nodup := by
      rw [keys, insert_entries_of_not_mem hk, List.map_append, List.append_assoc]
      simpa using h
    rw [List.foldl_cons, foldl_insert_of_nodup pairs _ h', insert_entries_of_not_mem hk,
      List.append_assoc, List.singleton_append]

/-- Collecting pairs with distinct keys keeps them, in order. -/
theorem collect_entries_of_nodup {pairs : List (κ × ν)} (h : (pairs.map Prod.fst).Nodup) :
    (collect pairs).entries = pairs :=
  foldl_insert_of_nodup pairs empty h

/-- The serde of an `IndexMap` round-trips with its insertion order: deserializing a serialized
map gives the map back, and serializing a deserialized pair list with distinct keys gives the
list back. -/
theorem indexmap_serde_roundTrip :
    (∀ m : IndexMap κ ν, deserializeIndexmap (serializeIndexmap m) = m) ∧
    (∀ pairs : List (κ × ν), (pairs.map Prod.fst).Nodup →
      serializeIndexmap (deserializeIndexmap pairs) = pairs) :=
  ⟨fun m => IndexMap.ext (collect_entries_of_nodup m.nodup_keys),
    fun _ h => collect_entries_of_nodup h⟩

end IndexMap

end Renegade
