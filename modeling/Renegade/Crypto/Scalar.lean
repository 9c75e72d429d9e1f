import Mathlib.Data.Nat.Digits

/-!
# Ristretto scalars and their little-endian byte encodings

A `Scalar` is a residue modulo the order `ℓ` of the Ristretto group. Byte strings are lists of
natural numbers read as base-256 digits, least significant first: the same reading that
`BigUint::from_bytes_le` and `Scalar::from_bytes_mod_order` give a `[u8]` buffer. The
fixed-width encoding `leBytes` is what `Scalar::to_bytes` writes, and `toBytesLe` is the minimal
encoding of `BigUint::to_bytes_le`, which writes a single zero byte for zero.
-/

namespace Renegade

/-- The order `ℓ = 2^252 + 27742317777372353535851937790883648493` of the Ristretto group. -/
def scalarModulus : Nat := 2 ^ 252 + 27742317777372353535851937790883648493

instance : NeZero scalarModulus := ⟨by decide⟩

/-- `curve25519_dalek::scalar::Scalar`, a canonical residue modulo `ℓ`. -/
abbrev Scalar := Fin scalarModulus

/-- A 31-byte value is below the group order, so it is its own canonical residue. -/
theorem pow_248_lt_scalarModulus : 2 ^ 248 < scalarModulus := by decide

/-- The `width` little-endian bytes of `n`, dropping what does not fit. -/
def leBytes : Nat → Nat → List Nat
  | 0, _ => []
  | width + 1, n => n % 256 :: leBytes width (n / 256)

/-- `BigUint::from_bytes_le`: the base-256 value of a little-endian byte string. -/
def fromBytesLe (bytes : List Nat) : Nat := Nat.ofDigits 256 bytes

/-- `BigUint::to_bytes_le`: the minimal little-endian bytes, and `[0]` for zero. -/
def toBytesLe (n : Nat) : List Nat := if n = 0 then [0] else Nat.digits 256 n

/-- `Scalar::from_bytes_mod_order`: reduce the little-endian value of a buffer modulo `ℓ`. -/
def Scalar.fromBytesModOrder (bytes : List Nat) : Scalar :=
  ⟨fromBytesLe bytes % scalarModulus, Nat.mod_lt _ (NeZero.pos _)⟩

/-- `Scalar::to_bytes`: the canonical 32-byte little-endian encoding. -/
def Scalar.toBytes (s : Scalar) : List Nat := leBytes 32 s.val

/-- `mpc_ristretto::mpc_scalar::scalar_to_u64`: the first eight bytes of `to_bytes`, read as a
little-endian `u64`. -/
def scalarToU64 (s : Scalar) : UInt64 := UInt64.ofNat (fromBytesLe (s.toBytes.take 8))

@[simp] theorem length_leBytes (width n : Nat) : (leBytes width n).length = width := by
  induction width generalizing n <;> simp [leBytes, *]

/-- Every entry of a fixed-width encoding is a byte. -/
theorem lt_of_mem_leBytes {width n b : Nat} (h : b ∈ leBytes width n) : b < 256 := by
  induction width generalizing n with
  | zero => simp [leBytes] at h
  | succ width ih =>
    rcases List.mem_cons.mp h with rfl | h
    · exact Nat.mod_lt _ (by decide)
    · exact ih h

/-- Reading back `width` bytes recovers the value modulo `256 ^ width`. -/
@[simp] theorem fromBytesLe_leBytes (width n : Nat) :
    fromBytesLe (leBytes width n) = n % 256 ^ width := by
  induction width generalizing n with
  | zero => simp [leBytes, fromBytesLe, Nat.mod_one]
  | succ width ih =>
    simp only [fromBytesLe] at ih
    rw [fromBytesLe, leBytes, Nat.ofDigits_cons, ih, pow_succ', Nat.mod_mul]

/-- A prefix of a fixed-width encoding is the narrower encoding. -/
theorem take_leBytes {k width : Nat} (h : k ≤ width) (n : Nat) :
    (leBytes width n).take k = leBytes k n := by
  induction k generalizing width n with
  | zero => rfl
  | succ k ih =>
    obtain ⟨width, rfl⟩ : ∃ w, width = w + 1 := ⟨width - 1, by omega⟩
    simp [leBytes, ih (Nat.le_of_succ_le_succ h)]

/-- The minimal encoding is made of bytes. -/
theorem lt_of_mem_toBytesLe {n b : Nat} (h : b ∈ toBytesLe n) : b < 256 := by
  unfold toBytesLe at h
  split at h
  · simp_all
  · exact Nat.digits_lt_base (by decide) h

@[simp] theorem fromBytesLe_toBytesLe (n : Nat) : fromBytesLe (toBytesLe n) = n := by
  unfold toBytesLe fromBytesLe
  split <;> simp_all [Nat.ofDigits_digits]

/-- `scalar_to_u64` keeps exactly the low 64 bits of the canonical value. -/
theorem toNat_scalarToU64 (s : Scalar) : (scalarToU64 s).toNat = s.val % 2 ^ 64 := by
  have h8 : (2 : Nat) ^ 64 = 256 ^ 8 := by norm_num
  simp only [scalarToU64, Scalar.toBytes, take_leBytes (by decide : 8 ≤ 32),
    fromBytesLe_leBytes, h8]
  exact UInt64.toNat_ofNat_of_lt (Nat.mod_lt _ (by decide))

end Renegade
