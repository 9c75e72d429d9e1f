import Renegade.Crypto.Scalar

/-!
# Ed25519 public keys

`ed25519_dalek::PublicKey`, of the 1.x line of the crate that the keychain imports, is a
compressed Edwards point together with the point it decompresses to. `PublicKey::from_bytes`
accepts exactly the 32-byte strings that `CompressedEdwardsY::decompress` of `curve25519-dalek`
accepts: the `y` coordinate is the low 255 bits read modulo `p = 2^255 - 19`, and
`FieldElement::sqrt_ratio_i` must find `x` with `x² = (y² - 1) / (d y² + 1)`. The sign bit only
picks the root, so it plays no part in the check. The point is a function of the bytes, so a key
is its bytes together with the proof that they decompress.
-/

namespace Renegade

/-- The prime `p = 2^255 - 19` of the field of `curve25519`. -/
def fieldPrime : Nat := 2 ^ 255 - 19

/-- `EDWARDS_D`, the curve constant `d = -121665 / 121666` modulo `p`. -/
def edwardsD : Nat :=
  37095705934669439343138083508754565189542113879843219016388785533085940283555

/-- `b ^ e` modulo `m` by squaring, over the low `bits` bits of `e`. -/
def powMod (m : Nat) : Nat → Nat → Nat → Nat
  | 0, _, _ => 1 % m
  | bits + 1, b, e =>
    let r := powMod m bits (b * b % m) (e / 2)
    if e % 2 = 1 then r * b % m else r

/-- The `Choice` of `FieldElement::sqrt_ratio_i(u, v)`: whether `u / v` is a square, read off
`v r²` for the candidate root `r = u v³ (u v⁷)^((p - 5) / 8)`. -/
def sqrtRatioIIsSquare (u v : Nat) : Bool :=
  let p := fieldPrime
  let v3 := v * v % p * v % p
  let v7 := v3 * v3 % p * v % p
  let r := u * v3 % p * powMod p 255 (u * v7 % p) ((p - 5) / 8) % p
  let check := v * (r * r % p) % p
  check == u % p || check == (p - u % p) % p

/-- Whether `CompressedEdwardsY::decompress` returns a point: `u = y² - 1`, `v = d y² + 1`.
Irreducible, so that the key structure below does not evaluate it. -/
@[irreducible] def decompresses (bytes : List Nat) : Bool :=
  let p := fieldPrime
  let y := fromBytesLe bytes % 2 ^ 255
  let yy := y * y % p
  sqrtRatioIIsSquare ((yy + p - 1) % p) ((yy * edwardsD + 1) % p)

/-- `ed25519_dalek::PublicKey`, by its compressed encoding. -/
@[ext] structure DalekKey where
  /-- `as_bytes`: the compressed Edwards `y` coordinate and sign bit. -/
  bytes : List Nat
  length_bytes : bytes.length = 32
  lt_bytes : ∀ b ∈ bytes, b < 256
  /-- The encoding decompresses to a curve point. -/
  decompresses_bytes : decompresses bytes = true

/-- `SignatureError`, by the two ways `PublicKey::from_bytes` fails. -/
inductive SignatureError
  /-- `BytesLengthError`: the input is not 32 bytes long. -/
  | bytesLength
  /-- `PointDecompressionError`: the input is not a curve point. -/
  | pointDecompression
  deriving DecidableEq, Repr

/-- `PublicKey::from_bytes` on a byte slice. -/
def DalekKey.fromBytes (bytes : List Nat) (hb : ∀ b ∈ bytes, b < 256) :
    Except SignatureError DalekKey :=
  if hl : bytes.length = 32 then
    if hd : decompresses bytes = true then .ok ⟨bytes, hl, hb, hd⟩ else .error .pointDecompression
  else .error .bytesLength

/-- A key is its own encoding: `from_bytes(k.as_bytes())` gives `k` back. -/
theorem DalekKey.fromBytes_bytes (k : DalekKey) :
    DalekKey.fromBytes k.bytes k.lt_bytes = .ok k := by
  rw [DalekKey.fromBytes, dif_pos k.length_bytes, dif_pos k.decompresses_bytes]

end Renegade
