import Mathlib.Data.List.Dedup

/-!
# The least-recently-used cache of the `lru` crate

`LruCache<K, V>` as the peer expiry cache uses it: the entries from the most to the least
recently used, with distinct keys and at most `cap` of them. `put` makes its entry the most
recently used and, when the key is new to a full cache, evicts the least recently used entry;
`get` promotes the entry it finds; `pop_entry` removes one. `Behind c front k v` locates an entry:
`k` is cached with `v`, and exactly the keys `front` were used more recently.
-/

namespace Renegade

/-- `LruCache<K, V>` of capacity `cap`. -/
structure LruCache (κ ν : Type) (cap : Nat) where
  /-- The entries, most recently used first. -/
  entries : List (κ × ν)
  /-- No key is cached twice. -/
  nodup_keys : (entries.map Prod.fst).Nodup
  /-- At most `cap` entries are cached. -/
  length_le : entries.length ≤ cap

namespace LruCache

variable {κ ν : Type} {cap : Nat}

/-- The cached keys, most recently used first. -/
def keys (c : LruCache κ ν cap) : List κ := c.entries.map Prod.fst

/-- `LruCache::new(cap)`. -/
def empty : LruCache κ ν cap := ⟨[], List.nodup_nil, Nat.zero_le _⟩

/-- `k` is cached with `v`, and `front` are the keys used more recently, most recent first. -/
def Behind (c : LruCache κ ν cap) (front : List κ) (k : κ) (v : ν) : Prop :=
  ∃ fe back, c.entries = fe ++ (k, v) :: back ∧ fe.map Prod.fst = front

theorem Behind.nodup {c : LruCache κ ν cap} {front : List κ} {k : κ} {v : ν}
    (h : c.Behind front k v) : front.Nodup ∧ k ∉ front := by
  obtain ⟨fe, back, he, rfl⟩ := h
  have hn := c.nodup_keys
  rw [he, List.map_append, List.map_cons, List.nodup_append, List.nodup_cons] at hn
  exact ⟨hn.1, fun hk => hn.2.2 hk (List.mem_cons_self _ _)⟩

variable [DecidableEq κ]

/-- `peek`: the value cached under `k`. -/
def peek (c : LruCache κ ν cap) (k : κ) : Option ν := (c.entries.find? (·.1 = k)).map Prod.snd

theorem nodup_keys_filter (c : LruCache κ ν cap) (k : κ) :
    ((c.entries.filter (·.1 ≠ k)).map Prod.fst).Nodup :=
  c.nodup_keys.sublist ((List.filter_sublist _).map _)

theorem nodup_keys_put (c : LruCache κ ν cap) (k : κ) (v : ν) :
    ((((k, v) :: c.entries.filter (·.1 ≠ k)).take cap).map Prod.fst).Nodup := by
  refine List.Nodup.sublist ((List.take_sublist _ _).map _) ?_
  rw [List.map_cons, List.nodup_cons]
  exact ⟨by simp, c.nodup_keys_filter k⟩

/-- `put`: cache `v` under `k` as the most recently used entry; a new key evicts the least
recently used entry of a full cache. -/
def put (c : LruCache κ ν cap) (k : κ) (v : ν) : LruCache κ ν cap :=
  ⟨((k, v) :: c.entries.filter (·.1 ≠ k)).take cap, c.nodup_keys_put k v, List.length_take_le _ _⟩

/-- `get`: the value cached under `k`, promoting its entry to the most recently used (which is
putting it back). -/
def get (c : LruCache κ ν cap) (k : κ) : Option ν × LruCache κ ν cap :=
  (c.peek k, (c.peek k).elim c (c.put k))

/-- `pop_entry`: remove the entry under `k` and return it. -/
def popEntry (c : LruCache κ ν cap) (k : κ) : Option (κ × ν) × LruCache κ ν cap :=
  ((c.peek k).map (k, ·),
    ⟨c.entries.filter (·.1 ≠ k), c.nodup_keys_filter k,
      (List.length_filter_le _ _).trans c.length_le⟩)

theorem peek_eq_none_iff {c : LruCache κ ν cap} {k : κ} : c.peek k = none ↔ k ∉ c.keys := by
  simp only [peek, keys, Option.map_eq_none', List.find?_eq_none, decide_eq_true_eq, List.mem_map]
  exact ⟨fun h ⟨e, he, hek⟩ => h e he hek, fun h e he hek => h ⟨e, he, hek⟩⟩

theorem mem_keys_of_peek_eq_some {c : LruCache κ ν cap} {k : κ} {v : ν} (h : c.peek k = some v) :
    ∃ e ∈ c.entries, e.1 = k := by
  obtain ⟨e, he, -⟩ := Option.map_eq_some'.mp h
  exact ⟨e, List.mem_of_find?_eq_some he, by simpa using List.find?_some he⟩

/-- Putting a key that is not cached pushes it in front of the others, up to the capacity. -/
theorem put_entries_of_not_mem {c : LruCache κ ν cap} {k : κ} (hk : k ∉ c.keys) (v : ν) :
    (c.put k v).entries = ((k, v) :: c.entries).take cap := by
  have : c.entries.filter (·.1 ≠ k) = c.entries := List.filter_eq_self.mpr fun e he => by
    simpa using fun h => hk (by rw [keys, ← h]; exact List.mem_map_of_mem _ he)
  change ((k, v) :: c.entries.filter (·.1 ≠ k)).take cap = _
  rw [this]

/-! ## The cached keys -/

/-- `put` caches no key but its own and those already cached. -/
theorem mem_keys_put {c : LruCache κ ν cap} {k q : κ} {v : ν} (h : q ∈ (c.put k v).keys) :
    q = k ∨ q ∈ c.keys := by
  have h' : q ∈ ((k, v) :: c.entries.filter (·.1 ≠ k)).map Prod.fst :=
    ((List.take_sublist _ _).map Prod.fst).subset h
  rw [List.map_cons, List.mem_cons] at h'
  exact h'.imp_right fun hq => ((List.filter_sublist _).map Prod.fst).subset hq

/-- `get` caches no new key. -/
theorem mem_keys_get {c : LruCache κ ν cap} {k q : κ} (h : q ∈ (c.get k).2.keys) : q ∈ c.keys := by
  cases hpeek : c.peek k with
  | none => simpa [get, hpeek] using h
  | some v =>
    simp only [get, hpeek, Option.elim] at h
    obtain ⟨e, he, rfl⟩ := mem_keys_of_peek_eq_some hpeek
    exact (mem_keys_put h).elim (fun hq => hq ▸ List.mem_map_of_mem _ he) id

/-- A `get` that misses returns the cache unchanged, without the key. -/
theorem get_eq_none {c c' : LruCache κ ν cap} {k : κ} (h : c.get k = (none, c')) :
    c' = c ∧ k ∉ c.keys := by
  simp only [get, Prod.mk.injEq] at h
  obtain ⟨hpeek, hc⟩ := h
  rw [hpeek] at hc
  exact ⟨hc.symm, peek_eq_none_iff.mp hpeek⟩

/-- `pop_entry` removes exactly its key. -/
theorem mem_keys_popEntry {c : LruCache κ ν cap} {k q : κ} :
    q ∈ (c.popEntry k).2.keys ↔ q ∈ c.keys ∧ q ≠ k := by
  change q ∈ (c.entries.filter (·.1 ≠ k)).map Prod.fst ↔ _
  simp [List.mem_filter, keys]

/-! ## Where an entry sits -/

namespace Behind

variable {c : LruCache κ ν cap} {front : List κ} {k : κ} {v : ν}

theorem filter_keys {fe : List (κ × ν)} (q : κ) :
    (fe.filter (·.1 ≠ q)).map Prod.fst = (fe.map Prod.fst).filter (· ≠ q) := by
  rw [List.filter_map]
  rfl

theorem peek (h : c.Behind front k v) : c.peek k = some v := by
  obtain ⟨fe, back, he, hfront⟩ := h
  have hk : ∀ e ∈ fe, ¬decide (e.1 = k) = true := fun e he' hek =>
    (Behind.nodup ⟨fe, back, he, hfront⟩).2
      (hfront ▸ (of_decide_eq_true hek) ▸ List.mem_map_of_mem _ he')
  rw [LruCache.peek, he, List.find?_append, List.find?_eq_none.mpr hk, Option.none_or]
  simp

/-- Putting a key makes it the most recently used. -/
theorem put_self (hcap : 0 < cap) (c : LruCache κ ν cap) (k : κ) (v : ν) :
    (c.put k v).Behind [] k v := by
  obtain ⟨n, rfl⟩ : ∃ n, cap = n + 1 := ⟨cap - 1, by omega⟩
  exact ⟨[], _, rfl, rfl⟩

/-- Putting another key moves it in front of `k`, which stays cached if there is room. -/
theorem put_ne (h : c.Behind front k v) {q : κ} (hq : q ≠ k) (w : ν)
    (hroom : (front.filter (· ≠ q)).length + 1 < cap) :
    (c.put q w).Behind (q :: front.filter (· ≠ q)) k v := by
  obtain ⟨fe, back, he, rfl⟩ := h
  have hlen : (fe.filter (·.1 ≠ q)).length + 1 < cap := by
    rwa [← filter_keys, List.length_map] at hroom
  obtain ⟨n, hn⟩ : ∃ n, cap - ((fe.filter (·.1 ≠ q)).length + 1) = n + 1 :=
    ⟨_, (Nat.succ_pred_eq_of_pos (by omega)).symm⟩
  refine ⟨(q, w) :: fe.filter (·.1 ≠ q), (back.filter (·.1 ≠ q)).take n, ?_,
    by rw [List.map_cons, filter_keys]⟩
  have hk : decide (k ≠ q) = true := by simpa using hq.symm
  change ((q, w) :: c.entries.filter (·.1 ≠ q)).take cap = _
  rw [he, List.filter_append, List.filter_cons, if_pos hk, ← List.cons_append,
    List.take_append_eq_append_take, List.take_of_length_le (by rw [List.length_cons]; omega),
    List.length_cons, hn, List.take_succ_cons]

/-- Getting another key promotes it in front of `k`, which stays cached. -/
theorem get_ne (h : c.Behind front k v) {q : κ} (hq : q ≠ k) :
    ∃ front', (c.get q).2.Behind front' k v ∧ front' ⊆ q :: front := by
  cases hpeek : c.peek q with
  | none => exact ⟨front, by simpa [get, hpeek] using h, List.subset_cons_self _ _⟩
  | some w =>
    refine ⟨q :: front.filter (· ≠ q), ?_, List.cons_subset_cons _ (List.filter_subset' _)⟩
    simp only [get, hpeek, Option.elim]
    refine h.put_ne hq w ?_
    obtain ⟨fe, back, he, rfl⟩ := h
    obtain ⟨e, hmem, heq⟩ := mem_keys_of_peek_eq_some hpeek
    have hlt : (c.entries.filter (·.1 ≠ q)).length < c.entries.length :=
      List.length_filter_lt_length_iff_exists.mpr ⟨e, hmem, by simpa using heq⟩
    have hk : decide (k ≠ q) = true := by simpa using hq.symm
    have := c.length_le
    rw [he, List.filter_append, List.filter_cons, if_pos hk] at hlt
    rw [he] at this
    simp only [List.length_append, List.length_cons] at hlt this
    rw [← filter_keys, List.length_map]
    omega

/-- Popping another key leaves `k` cached behind the remaining keys. -/
theorem popEntry_ne (h : c.Behind front k v) {q : κ} (hq : q ≠ k) :
    (c.popEntry q).2.Behind (front.filter (· ≠ q)) k v := by
  obtain ⟨fe, back, he, rfl⟩ := h
  have hk : decide (k ≠ q) = true := by simpa using hq.symm
  refine ⟨fe.filter (·.1 ≠ q), back.filter (·.1 ≠ q), ?_, filter_keys q⟩
  change c.entries.filter (·.1 ≠ q) = _
  rw [he, List.filter_append, List.filter_cons, if_pos hk]

end Behind

/-- A cached key sits behind the keys used more recently. -/
theorem exists_behind_of_peek {c : LruCache κ ν cap} {k : κ} {v : ν} (h : c.peek k = some v) :
    ∃ front, c.Behind front k v := by
  obtain ⟨e, he, rfl⟩ := Option.map_eq_some'.mp h
  have hk : e.1 = k := by simpa using List.find?_some he
  obtain ⟨fe, back, hsplit⟩ := List.append_of_mem (List.mem_of_find?_eq_some he)
  exact ⟨fe.map Prod.fst, fe, back, by rw [hsplit, ← hk], rfl⟩

/-- Getting another key leaves the value cached under `k`. -/
theorem peek_get_ne {c : LruCache κ ν cap} {q k : κ} (hq : q ≠ k) :
    (c.get q).2.peek k = c.peek k := by
  cases hpeek : c.peek k with
  | none => exact peek_eq_none_iff.mpr fun hk => peek_eq_none_iff.mp hpeek (mem_keys_get hk)
  | some v =>
    obtain ⟨front, hb⟩ := exists_behind_of_peek hpeek
    obtain ⟨_, hb', -⟩ := hb.get_ne hq
    exact hb'.peek

/-- Popping another key leaves the value cached under `k`. -/
theorem peek_popEntry_ne {c : LruCache κ ν cap} {q k : κ} (hq : q ≠ k) :
    (c.popEntry q).2.peek k = c.peek k := by
  cases hpeek : c.peek k with
  | none =>
    exact peek_eq_none_iff.mpr fun hk => peek_eq_none_iff.mp hpeek (mem_keys_popEntry.mp hk).1
  | some v =>
    obtain ⟨front, hb⟩ := exists_behind_of_peek hpeek
    exact (hb.popEntry_ne hq).peek

end LruCache

end Renegade
