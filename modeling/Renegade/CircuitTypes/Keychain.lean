import Renegade.Crypto.Scalar
import Renegade.Crypto.Ed25519

/-!
# Non-native keys as base-`2^248` words

`NonNativeKey` stores a key over a foreign field as `KEY_WORDS` scalars of `SCALAR_MAX_BYTES`
bytes each. Splitting chunks the minimal little-endian bytes of the integer, and combining
concatenates the low 31 bytes of every word, so both are base-`2^248` digit maps. Splitting
reduces modulo `2^(248 · KEY_WORDS)`; below that bound and on words below `2^248` the two
maps are mutually inverse, and serde, which goes through the integer, round-trips.
-/

namespace Renegade

/-- The number of bytes used in a single scalar to represent a key. -/
def scalarMaxBytes : Nat := 31

/-- The number of words needed to represent a non-native root key. -/
def rootKeyWords : Nat := 2

/-- `slice::chunks`: consecutive pieces of `size` elements, the last one possibly shorter. -/
def chunks {α : Type} (size : Nat) (l : List α) : List (List α) :=
  if _h : 0 < size ∧ 0 < l.length then l.take size :: chunks size (l.drop size) else []
termination_by l.length
decreasing_by
  have := _h.2
  simp only [List.length_drop]
  omega

/-- A key over a non-native field, held as `n` scalar words (`KEY_WORDS`). -/
structure NonNativeKey (n : Nat) where
  /-- The `Scalar` words used to represent the key. -/
  keyWords : List Scalar
  /-- The fixed-size array `[Scalar; KEY_WORDS]`. -/
  length_keyWords : keyWords.length = n
  deriving DecidableEq

namespace NonNativeKey

variable {n : Nat}

/-- `split_biguint_into_words`: chunk the little-endian bytes, pad each chunk to a 32-byte
buffer, and keep the first `n` words of the word list padded with zeros. -/
def splitBiguintIntoWords (n val : Nat) : List Scalar :=
  let words := (chunks scalarMaxBytes (toBytesLe val)).map fun chunk =>
    Scalar.fromBytesModOrder ((chunk ++ List.replicate 32 0).take 32)
  (words ++ List.replicate n 0).take n

/-- `combine_words_into_biguint`: concatenate the first 31 bytes of every word. -/
def combineWordsIntoBiguint (key : NonNativeKey n) : Nat :=
  fromBytesLe (key.keyWords.flatMap fun word => word.toBytes.take scalarMaxBytes)

/-- `From<&BigUint> for NonNativeKey`. -/
def ofBiguint (val : Nat) : NonNativeKey n :=
  ⟨splitBiguintIntoWords n val, by simp [splitBiguintIntoWords]⟩

/-- `Serialize for NonNativeKey`: the hex text of `combine_words_into_biguint`; the text is an
injective encoding of the integer, so the integer stands for it. -/
def serialize (key : NonNativeKey n) : Nat := key.combineWordsIntoBiguint

/-- `Deserialize for NonNativeKey`: parse the integer and split it into words. -/
def deserialize (val : Nat) : NonNativeKey n := ofBiguint val

/-- `From<&NonNativeKey> for DalekKey`: `PublicKey::from_bytes` on the minimal little-endian
bytes of the combined integer; `none` where its `unwrap` panics. -/
def toDalekKey (key : NonNativeKey n) : Option DalekKey :=
  match DalekKey.fromBytes (toBytesLe key.combineWordsIntoBiguint)
      fun _ => lt_of_mem_toBytesLe with
  | .ok k => some k
  | .error _ => none

/-- `From<DalekKey> for NonNativeKey`: split the little-endian integer of the key's bytes. -/
def ofDalekKey (key : DalekKey) : NonNativeKey n := ofBiguint (fromBytesLe key.bytes)

end NonNativeKey

/-! ## Base-`b` digit lists -/

/-- Truncating a digit list reduces its value modulo the matching power of the base. -/
theorem ofDigits_take {b : Nat} : ∀ {L : List Nat} (k : Nat), (∀ d ∈ L, d < b) →
    Nat.ofDigits b (L.take k) = Nat.ofDigits b L % b ^ k
  | [], _, _ => by simp
  | _ :: _, 0, _ => by simp [Nat.mod_one]
  | d :: L, k + 1, h => by
    have hd : d < b := h d (List.mem_cons_self _ _)
    have hb : 0 < b := by omega
    rw [List.take_succ_cons, Nat.ofDigits_cons, Nat.ofDigits_cons,
      ofDigits_take k fun x hx => h x (List.mem_cons_of_mem _ hx), pow_succ', Nat.mod_mul,
      Nat.add_mul_mod_self_left, Nat.add_mul_div_left _ _ hb, Nat.div_eq_of_lt hd,
      Nat.zero_add, Nat.mod_eq_of_lt hd]

/-- Digit lists of one length and one value are equal. -/
theorem ofDigits_inj_of_length_eq {b : Nat} : ∀ {L₁ L₂ : List Nat}, L₁.length = L₂.length →
    (∀ d ∈ L₁, d < b) → (∀ d ∈ L₂, d < b) →
    Nat.ofDigits b L₁ = Nat.ofDigits b L₂ → L₁ = L₂
  | [], [], _, _, _, _ => rfl
  | d₁ :: L₁, d₂ :: L₂, hl, h₁, h₂, he => by
    have hd₁ := h₁ d₁ (List.mem_cons_self _ _)
    have hd₂ := h₂ d₂ (List.mem_cons_self _ _)
    rw [Nat.ofDigits_cons, Nat.ofDigits_cons] at he
    have hd : d₁ = d₂ := by
      have := congrArg (· % b) he
      simpa [Nat.add_mul_mod_self_left, Nat.mod_eq_of_lt hd₁, Nat.mod_eq_of_lt hd₂] using this
    subst hd
    have ht : Nat.ofDigits b L₁ = Nat.ofDigits b L₂ :=
      Nat.eq_of_mul_eq_mul_left (by omega) (Nat.add_left_cancel he)
    rw [ofDigits_inj_of_length_eq (Nat.succ.inj hl) (fun d hd => h₁ d (List.mem_cons_of_mem _ hd))
      (fun d hd => h₂ d (List.mem_cons_of_mem _ hd)) ht]

/-- Trailing zero digits carry no value. -/
@[simp] theorem ofDigits_append_replicate_zero (b : Nat) (L : List Nat) (m : Nat) :
    Nat.ofDigits b (L ++ List.replicate m 0) = Nat.ofDigits b L := by
  have hz : ∀ m, Nat.ofDigits b (List.replicate m 0) = 0 := by
    intro m
    induction m <;> simp_all [List.replicate_succ, Nat.ofDigits_cons]
  rw [Nat.ofDigits_append, hz, Nat.mul_zero, Nat.add_zero]

/-! ## Chunks of a byte string -/

/-- Chunking loses no element. -/
theorem mem_of_mem_chunks {α : Type} {size : Nat} {l c : List α} {x : α}
    (hc : c ∈ chunks size l) (hx : x ∈ c) : x ∈ l := by
  induction l using chunks.induct size with
  | case1 l h ih =>
    rw [chunks, dif_pos h] at hc
    rcases List.mem_cons.mp hc with rfl | hc
    · exact List.mem_of_mem_take hx
    · exact List.mem_of_mem_drop (ih hc)
  | case2 l h =>
    rw [chunks, dif_neg h] at hc
    simp at hc

/-- No chunk is longer than the chunk size. -/
theorem length_le_of_mem_chunks {α : Type} {size : Nat} {l c : List α}
    (hc : c ∈ chunks size l) : c.length ≤ size := by
  induction l using chunks.induct size with
  | case1 l h ih =>
    rw [chunks, dif_pos h] at hc
    rcases List.mem_cons.mp hc with rfl | hc
    · exact List.length_take_le _ _
    · exact ih hc
  | case2 l h =>
    rw [chunks, dif_neg h] at hc
    simp at hc

/-- Read as digits of base `256 ^ size`, the chunk values are the value of the whole string. -/
theorem ofDigits_chunks {size : Nat} (hs : 0 < size) (l : List Nat) :
    Nat.ofDigits (256 ^ size) ((chunks size l).map (Nat.ofDigits 256)) = Nat.ofDigits 256 l := by
  induction l using chunks.induct size with
  | case1 l h ih =>
    have hsplit : Nat.ofDigits 256 l =
        Nat.ofDigits 256 (l.take size) + 256 ^ size * Nat.ofDigits 256 (l.drop size) := by
      conv_lhs => rw [← List.take_append_drop size l]
      rw [Nat.ofDigits_append]
      by_cases hl : size ≤ l.length
      · rw [List.length_take_of_le hl]
      · rw [List.drop_eq_nil_of_le (by omega)]
        simp
    rw [chunks, dif_pos h, List.map_cons, Nat.ofDigits_cons, ih, hsplit]
  | case2 l h =>
    have hl : l = [] := List.eq_nil_of_length_eq_zero (by omega)
    simp [chunks, hl]

/-! ## Words -/

/-- The base of the word digits, `2 ^ (8 · SCALAR_MAX_BYTES)`. -/
theorem wordBase_eq : (256 : Nat) ^ scalarMaxBytes = 2 ^ (8 * scalarMaxBytes) := by
  rw [pow_mul]
  norm_num

/-- A chunk of at most 31 bytes, padded to a buffer, becomes the scalar of its own value. -/
theorem val_fromBytesModOrder_chunk {c : List Nat} (hc : c.length ≤ scalarMaxBytes)
    (hb : ∀ x ∈ c, x < 256) :
    (Scalar.fromBytesModOrder ((c ++ List.replicate 32 0).take 32)).val = Nat.ofDigits 256 c := by
  have hpad : (c ++ List.replicate 32 0).take 32 = c ++ List.replicate (32 - c.length) 0 := by
    rw [List.take_append_eq_append_take,
      List.take_of_length_le (by simp [scalarMaxBytes] at hc; omega), List.take_replicate,
      Nat.min_eq_left (Nat.sub_le _ _)]
  have hlt : Nat.ofDigits 256 c < 2 ^ 248 :=
    calc Nat.ofDigits 256 c < 256 ^ c.length := Nat.ofDigits_lt_base_pow_length (by decide) hb
      _ ≤ 256 ^ 31 := Nat.pow_le_pow_right (by decide) hc
      _ = 2 ^ 248 := by norm_num
  simp only [Scalar.fromBytesModOrder, fromBytesLe, hpad, ofDigits_append_replicate_zero]
  exact Nat.mod_eq_of_lt (hlt.trans pow_248_lt_scalarModulus)

namespace NonNativeKey

variable {n : Nat}

/-- Every split word is a base-`2^248` digit. -/
theorem lt_of_mem_splitBiguintIntoWords {val : Nat} {w : Scalar}
    (hw : w ∈ splitBiguintIntoWords n val) : w.val < 2 ^ (8 * scalarMaxBytes) := by
  rcases List.mem_append.mp (List.mem_of_mem_take hw) with hw | hw
  · obtain ⟨c, hc, rfl⟩ := List.mem_map.mp hw
    have hb : ∀ x ∈ c, x < 256 := fun x hx => lt_of_mem_toBytesLe (mem_of_mem_chunks hc hx)
    rw [val_fromBytesModOrder_chunk (length_le_of_mem_chunks hc) hb, ← wordBase_eq]
    exact (Nat.ofDigits_lt_base_pow_length (by decide) hb).trans_le
      (Nat.pow_le_pow_right (by decide) (length_le_of_mem_chunks hc))
  · rw [(List.mem_replicate.mp hw).2]
    exact Nat.pos_pow_of_pos _ (by decide)

/-- Splitting is reduction modulo `2 ^ (248 · n)`, written in base-`2^248` digits. -/
theorem ofDigits_splitBiguintIntoWords (n val : Nat) :
    Nat.ofDigits (2 ^ (8 * scalarMaxBytes)) ((splitBiguintIntoWords n val).map Fin.val) =
      val % 2 ^ (8 * scalarMaxBytes * n) := by
  have hwords : ((chunks scalarMaxBytes (toBytesLe val)).map fun chunk =>
      (Scalar.fromBytesModOrder ((chunk ++ List.replicate 32 0).take 32)).val) =
      (chunks scalarMaxBytes (toBytesLe val)).map (Nat.ofDigits 256) :=
    List.map_congr_left fun c hc => val_fromBytesModOrder_chunk (length_le_of_mem_chunks hc)
      fun x hx => lt_of_mem_toBytesLe (mem_of_mem_chunks hc hx)
  rw [show 2 ^ (8 * scalarMaxBytes * n) = (256 ^ scalarMaxBytes) ^ n by
    rw [wordBase_eq, ← pow_mul], ← wordBase_eq]
  simp only [splitBiguintIntoWords, List.map_take, List.map_append, List.map_map,
    Function.comp_def, List.map_replicate, Fin.val_zero]
  rw [ofDigits_take]
  · rw [ofDigits_append_replicate_zero, hwords, ofDigits_chunks (by decide),
      ← fromBytesLe, fromBytesLe_toBytesLe]
  · intro d hd
    rcases List.mem_append.mp hd with hd | hd
    · rw [hwords] at hd
      obtain ⟨c, hc, rfl⟩ := List.mem_map.mp hd
      exact Nat.ofDigits_lt_base_pow_length (by decide)
        (fun x hx => lt_of_mem_toBytesLe (mem_of_mem_chunks hc hx)) |>.trans_le
        (Nat.pow_le_pow_right (by decide) (length_le_of_mem_chunks hc))
    · rw [(List.mem_replicate.mp hd).2]
      exact Nat.pos_pow_of_pos _ (by decide)

/-- Combining reads the low 31 bytes of every word as a base-`2^248` digit. -/
theorem combineWordsIntoBiguint_eq (key : NonNativeKey n) :
    key.combineWordsIntoBiguint = Nat.ofDigits (2 ^ (8 * scalarMaxBytes))
      (key.keyWords.map fun w => w.val % 2 ^ (8 * scalarMaxBytes)) := by
  rw [combineWordsIntoBiguint, ← wordBase_eq]
  induction key.keyWords with
  | nil => rfl
  | cons w ws ih =>
    rw [List.flatMap_cons, fromBytesLe, Nat.ofDigits_append, ← fromBytesLe, ← fromBytesLe, ih,
      Scalar.toBytes, take_leBytes (by decide : scalarMaxBytes ≤ 32), length_leBytes,
      fromBytesLe_leBytes, List.map_cons, Nat.ofDigits_cons]

/-- On words that are digits, combining is the plain base-`2^248` value. -/
theorem combineWordsIntoBiguint_of_lt {key : NonNativeKey n}
    (h : ∀ w ∈ key.keyWords, w.val < 2 ^ (8 * scalarMaxBytes)) :
    key.combineWordsIntoBiguint = Nat.ofDigits (2 ^ (8 * scalarMaxBytes))
      (key.keyWords.map Fin.val) := by
  rw [combineWordsIntoBiguint_eq, List.map_congr_left fun w hw => Nat.mod_eq_of_lt (h w hw)]

/-- Splitting then combining reduces modulo `2 ^ (248 · n)`. -/
theorem combineWordsIntoBiguint_ofBiguint (val : Nat) :
    (ofBiguint val : NonNativeKey n).combineWordsIntoBiguint =
      val % 2 ^ (8 * scalarMaxBytes * n) := by
  rw [combineWordsIntoBiguint_of_lt fun w => lt_of_mem_splitBiguintIntoWords]
  exact ofDigits_splitBiguintIntoWords n val

/-- `split_biguint_into_words` and `combine_words_into_biguint` are mutually inverse between
the integers below `2 ^ (248 · n)` and the word arrays whose words are below `2 ^ 248`, and the
serde of a key built from such an integer round-trips. -/
theorem split_combine_roundTrip (n : Nat) :
    (∀ val : Nat, ∀ w ∈ (ofBiguint val : NonNativeKey n).keyWords,
      w.val < 2 ^ (8 * scalarMaxBytes)) ∧
    (∀ key : NonNativeKey n, (∀ w ∈ key.keyWords, w.val < 2 ^ (8 * scalarMaxBytes)) →
      key.combineWordsIntoBiguint < 2 ^ (8 * scalarMaxBytes * n)) ∧
    (∀ val, val < 2 ^ (8 * scalarMaxBytes * n) →
      (ofBiguint val : NonNativeKey n).combineWordsIntoBiguint = val) ∧
    (∀ key : NonNativeKey n, (∀ w ∈ key.keyWords, w.val < 2 ^ (8 * scalarMaxBytes)) →
      ofBiguint key.combineWordsIntoBiguint = key) ∧
    (∀ val, val < 2 ^ (8 * scalarMaxBytes * n) →
      deserialize (ofBiguint val : NonNativeKey n).serialize =
        (ofBiguint val : NonNativeKey n)) := by
  have hbound : ∀ key : NonNativeKey n, (∀ w ∈ key.keyWords, w.val < 2 ^ (8 * scalarMaxBytes)) →
      key.combineWordsIntoBiguint < 2 ^ (8 * scalarMaxBytes * n) := fun key h => by
    rw [combineWordsIntoBiguint_of_lt h, pow_mul 2 (8 * scalarMaxBytes) n]
    calc _ < (2 ^ (8 * scalarMaxBytes)) ^ (key.keyWords.map Fin.val).length :=
          Nat.ofDigits_lt_base_pow_length (by decide) (by simpa using h)
      _ = _ := by rw [List.length_map, key.length_keyWords]
  refine ⟨fun _ _ => lt_of_mem_splitBiguintIntoWords, hbound,
    fun val hv => (combineWordsIntoBiguint_ofBiguint val).trans (Nat.mod_eq_of_lt hv),
    fun key h => ?_, fun val hv => by
      rw [deserialize, serialize, combineWordsIntoBiguint_ofBiguint, Nat.mod_eq_of_lt hv]⟩
  have hvals : (splitBiguintIntoWords n key.combineWordsIntoBiguint).map Fin.val =
      key.keyWords.map Fin.val := by
    apply @ofDigits_inj_of_length_eq (2 ^ (8 * scalarMaxBytes))
    · simp [splitBiguintIntoWords, key.length_keyWords]
    · simpa using fun w hw => lt_of_mem_splitBiguintIntoWords hw
    · simpa using h
    · rw [ofDigits_splitBiguintIntoWords, Nat.mod_eq_of_lt (hbound key h),
        combineWordsIntoBiguint_of_lt h]
  cases key
  simp only [ofBiguint, mk.injEq]
  exact List.map_injective_iff.mpr Fin.val_injective hvals

/-! ## Root keys as ed25519 keys -/

/-- The integer of a key's 32 bytes fits the `2 · 248` bits of a root key. -/
theorem fromBytesLe_lt_rootKey (k : DalekKey) :
    fromBytesLe k.bytes < 2 ^ (8 * scalarMaxBytes * rootKeyWords) :=
  calc fromBytesLe k.bytes < 256 ^ k.bytes.length :=
        Nat.ofDigits_lt_base_pow_length (by decide) k.lt_bytes
    _ ≤ 2 ^ (8 * scalarMaxBytes * rootKeyWords) := by
        rw [k.length_bytes]
        norm_num [scalarMaxBytes, rootKeyWords]

/-- Bytes whose last one is not zero are the minimal encoding of their value. -/
theorem toBytesLe_fromBytesLe {bytes : List Nat} (hb : ∀ b ∈ bytes, b < 256)
    (hne : bytes ≠ []) (hlast : bytes.getLast hne ≠ 0) : toBytesLe (fromBytesLe bytes) = bytes := by
  have hd : Nat.digits 256 (fromBytesLe bytes) = bytes :=
    Nat.digits_ofDigits 256 (by decide) bytes hb fun _ => hlast
  have hv : fromBytesLe bytes ≠ 0 := fun h => hne (by rw [← hd, h, Nat.digits_zero])
  rw [toBytesLe, if_neg hv, hd]

/-- A value below `256 ^ k`, for `k ≥ 1`, has a minimal encoding of at most `k` bytes. -/
theorem length_toBytesLe_le {v k : Nat} (hk : 0 < k) (hv : v < 256 ^ k) :
    (toBytesLe v).length ≤ k := by
  unfold toBytesLe
  split
  · exact hk
  · rename_i h0
    have hpow : 256 ^ (Nat.digits 256 v).length < 256 ^ (k + 1) :=
      calc 256 ^ (Nat.digits 256 v).length ≤ 256 * v := Nat.base_pow_length_digits_le _ _
            (by decide) h0
        _ < 256 ^ (k + 1) := by rw [pow_succ']; omega
    have := (Nat.pow_lt_pow_iff_right (by decide)).mp hpow
    omega

/-- `PublicKey::from_bytes` returns a key exactly on that key's bytes. -/
theorem DalekKey.fromBytes_eq_ok_iff {bytes : List Nat} {hb : ∀ b ∈ bytes, b < 256}
    {k : DalekKey} : DalekKey.fromBytes bytes hb = .ok k ↔ bytes = k.bytes := by
  constructor
  · intro h
    unfold DalekKey.fromBytes at h
    split_ifs at h
    cases h
    rfl
  · rintro rfl
    exact k.fromBytes_bytes

/-- The round trip to a key succeeds with `k` exactly on `k`'s bytes. -/
theorem toDalekKey_eq_some_iff {key : NonNativeKey n} {k : DalekKey} :
    key.toDalekKey = some k ↔ toBytesLe key.combineWordsIntoBiguint = k.bytes := by
  unfold toDalekKey
  split
  · rename_i k' hk
    rw [DalekKey.fromBytes_eq_ok_iff.mp hk, Option.some.injEq]
    exact DalekKey.ext_iff
  · rename_i e he
    refine ⟨fun h => Option.noConfusion h, fun h => ?_⟩
    rw [DalekKey.fromBytes_eq_ok_iff.mpr h] at he
    cases he

/-- Fewer or more than 32 bytes make `from_bytes(..).unwrap()` panic. -/
theorem toDalekKey_eq_none_of_length {key : NonNativeKey n}
    (h : (toBytesLe key.combineWordsIntoBiguint).length ≠ 32) : key.toDalekKey = none := by
  unfold toDalekKey
  rw [DalekKey.fromBytes, dif_neg h]

/-- A key encoding whose most significant byte is zero has a value below `256 ^ 31`. -/
theorem fromBytesLe_lt_of_getLast_eq_zero (k : DalekKey) (hne : k.bytes ≠ [])
    (h0 : k.bytes.getLast hne = 0) : fromBytesLe k.bytes < 256 ^ 31 := by
  have hsplit := List.dropLast_append_getLast hne
  rw [h0] at hsplit
  calc fromBytesLe k.bytes = Nat.ofDigits 256 (k.bytes.dropLast ++ List.replicate 1 0) := by
        conv_lhs => rw [← hsplit]
        rfl
    _ = Nat.ofDigits 256 k.bytes.dropLast := ofDigits_append_replicate_zero _ _ _
    _ < 256 ^ k.bytes.dropLast.length := Nat.ofDigits_lt_base_pow_length (by decide)
        fun b hb => k.lt_bytes b (List.dropLast_subset _ hb)
    _ = 256 ^ 31 := by rw [List.length_dropLast, k.length_bytes]

/-- Converting an ed25519 key to a root key and back gives the key back exactly when its most
significant byte is not zero. When it is, `to_bytes_le` drops it, `from_bytes` sees fewer than 32
bytes and its `unwrap` panics. -/
theorem toDalekKey_ofDalekKey (k : DalekKey) :
    toDalekKey (ofDalekKey k : NonNativeKey rootKeyWords) =
      if k.bytes.getLast? = some 0 then none else some k := by
  have hne : k.bytes ≠ [] := fun h => by simpa [h] using k.length_bytes
  have hv : (ofDalekKey k : NonNativeKey rootKeyWords).combineWordsIntoBiguint =
      fromBytesLe k.bytes := by
    rw [ofDalekKey, combineWordsIntoBiguint_ofBiguint, Nat.mod_eq_of_lt (fromBytesLe_lt_rootKey k)]
  simp only [List.getLast?_eq_getLast k.bytes hne, Option.some.injEq]
  split_ifs with h0
  · refine toDalekKey_eq_none_of_length ?_
    have := length_toBytesLe_le (by decide) (fromBytesLe_lt_of_getLast_eq_zero k hne h0)
    rw [hv]
    omega
  · rw [toDalekKey_eq_some_iff, hv, toBytesLe_fromBytesLe k.lt_bytes hne h0]

set_option maxRecDepth 4000 in
/-- The ed25519 key encoding the curve point with `y = 3` and a clear sign bit. -/
def yThreeKey : DalekKey :=
  ⟨3 :: List.replicate 31 0, rfl, by decide, by unfold decompresses; decide⟩

/-- The key `y = 3` is accepted by `PublicKey::from_bytes`, but its root key combines to the
integer `3`, whose `to_bytes_le` is one byte long, so converting back panics. -/
theorem dalekKey_roundTrip_yThree_panics :
    DalekKey.fromBytes yThreeKey.bytes yThreeKey.lt_bytes = .ok yThreeKey ∧
    toBytesLe (ofDalekKey yThreeKey : NonNativeKey rootKeyWords).combineWordsIntoBiguint = [3] ∧
    toDalekKey (ofDalekKey yThreeKey : NonNativeKey rootKeyWords) = none := by
  refine ⟨yThreeKey.fromBytes_bytes, ?_, ?_⟩
  · have h3 : fromBytesLe yThreeKey.bytes = 3 := rfl
    rw [ofDalekKey, combineWordsIntoBiguint_ofBiguint, h3,
      Nat.mod_eq_of_lt (by norm_num [scalarMaxBytes, rootKeyWords]),
      toBytesLe, if_neg (by decide), Nat.digits_of_lt 256 3 (by decide) (by decide)]
  · rw [toDalekKey_ofDalekKey]
    rfl

end NonNativeKey

end Renegade
