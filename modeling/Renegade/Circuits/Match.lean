import Renegade.CircuitMacros.CircuitType

/-!
# Match results and their MPC encodings

A `MatchResult` is flattened into five shared scalars in the order quote mint, base mint, quote
amount, base amount, direction; opening reads them back in that order through `scalar_to_u64`.
The slice decoder `TryFrom<&[AuthenticatedScalar]>` reads the second and third scalars into the
quote amount and the base mint, so a flatten-then-decode round trip swaps those two fields, and
opening keeps only the low 64 bits of each mint.
-/

namespace Renegade.Circuits

/-- The number of scalars in a match tuple for serialization/deserialization. -/
def matchSizeScalars : Nat := 5

/-- The errors of the MPC circuit types. -/
inductive MpcError
  | serializationError (msg : String)
  | openingError (msg : String)
  | sharingError (msg : String)
  deriving DecidableEq, Repr

/-- The match result of a matching MPC in the cleartext. -/
structure MatchResult where
  /-- The mint of the order token in the asset pair being matched. -/
  quoteMint : Int
  /-- The mint of the base token in the asset pair being matched. -/
  baseMint : Int
  /-- The amount of the quote token exchanged by this match. -/
  quoteAmount : UInt64
  /-- The amount of the base token exchanged by this match. -/
  baseAmount : UInt64
  /-- The direction of the match, binary. -/
  direction : UInt64
  deriving DecidableEq, Repr

/-- `TryFrom<&[u64]> for MatchResult`: exactly `MATCH_SIZE_SCALARS` values, in field order. -/
def MatchResult.tryFrom : List UInt64 → Except MpcError MatchResult
  | [v₀, v₁, v₂, v₃, v₄] =>
    .ok { quoteMint := v₀.toNat, baseMint := v₁.toNat, quoteAmount := v₂, baseAmount := v₃,
          direction := v₄ }
  | values => .error (.serializationError ("Expected 12 values, got " ++ toString values.length))

/-- A match result whose values are authenticated shares in an MPC network. -/
structure AuthenticatedMatchResult where
  /-- The mint of the order token in the asset pair being matched. -/
  quoteMint : AuthenticatedScalar
  /-- The mint of the base token in the asset pair being matched. -/
  baseMint : AuthenticatedScalar
  /-- The amount of the quote token exchanged by this match. -/
  quoteAmount : AuthenticatedScalar
  /-- The amount of the base token exchanged by this match. -/
  baseAmount : AuthenticatedScalar
  /-- The direction of the match, binary. -/
  direction : AuthenticatedScalar
  deriving DecidableEq

namespace AuthenticatedMatchResult

/-- `From<AuthenticatedMatchResult> for Vec<AuthenticatedScalar>`. -/
def toVec (m : AuthenticatedMatchResult) : List AuthenticatedScalar :=
  [m.quoteMint, m.baseMint, m.quoteAmount, m.baseAmount, m.direction]

/-- `TryFrom<&[AuthenticatedScalar]> for AuthenticatedMatchResult`. -/
def tryFrom : List AuthenticatedScalar → Except MpcError AuthenticatedMatchResult
  | [v₀, v₁, v₂, v₃, v₄] =>
    .ok { quoteMint := v₀, quoteAmount := v₁, baseMint := v₂, baseAmount := v₃, direction := v₄ }
  | values =>
    .error (.serializationError ("Expected 12 elements, got " ++ toString values.length))

/-- `Open for AuthenticatedMatchResult`, for an opening primitive of the fabric: flatten, open
the batch, cast every value with `scalar_to_u64`, and decode the `u64` slice. -/
def openWith (batchOpen : List AuthenticatedScalar → Except String (List Scalar))
    (self : AuthenticatedMatchResult) : Except MpcError MatchResult :=
  match batchOpen self.toVec with
  | .error err => .error (.openingError err)
  | .ok opened => MatchResult.tryFrom (opened.map scalarToU64)

/-- `AuthenticatedScalar::batch_open` over a network where every party follows the protocol:
each shared value opens to itself. -/
def honestBatchOpen (values : List AuthenticatedScalar) : Except String (List Scalar) :=
  .ok (values.map AuthenticatedScalar.value)

/-- `open`: `batch_open`, then decode. -/
def «open» (batchOpen : List AuthenticatedScalar → Except String (List Scalar))
    (self : AuthenticatedMatchResult) : Except MpcError MatchResult :=
  openWith batchOpen self

/-- `open_and_authenticate`: `batch_open_and_authenticate`, then decode. -/
def openAndAuthenticate
    (batchOpenAndAuthenticate : List AuthenticatedScalar → Except String (List Scalar))
    (self : AuthenticatedMatchResult) : Except MpcError MatchResult :=
  openWith batchOpenAndAuthenticate self

/-- Decoding a flattened result swaps its base mint and quote amount. -/
theorem tryFrom_toVec (m : AuthenticatedMatchResult) :
    tryFrom m.toVec = .ok { m with baseMint := m.quoteAmount, quoteAmount := m.baseMint } := rfl

/-- At the shares `1, 2, 3, 4, 0` the decoder returns base mint `3` and quote amount `2`. -/
theorem tryFrom_toVec_one_two_three :
    tryFrom (toVec ⟨⟨1⟩, ⟨2⟩, ⟨3⟩, ⟨4⟩, ⟨0⟩⟩) = .ok ⟨⟨1⟩, ⟨3⟩, ⟨2⟩, ⟨4⟩, ⟨0⟩⟩ := rfl

end AuthenticatedMatchResult

/-- A match result is admissible when its mints are canonical scalars and its direction is
binary. -/
def MatchResult.Admissible (m : MatchResult) : Prop :=
  0 ≤ m.quoteMint ∧ m.quoteMint < scalarModulus ∧ 0 ≤ m.baseMint ∧ m.baseMint < scalarModulus ∧
    m.direction.toNat ≤ 1

/-- The shared scalars of a match result's fields. -/
def MatchResult.share (m : MatchResult) : AuthenticatedMatchResult :=
  ⟨⟨(m.quoteMint.toNat : Scalar)⟩, ⟨(m.baseMint.toNat : Scalar)⟩, ⟨(m.quoteAmount.toNat : Scalar)⟩,
    ⟨(m.baseAmount.toNat : Scalar)⟩, ⟨(m.direction.toNat : Scalar)⟩⟩

/-- A `u64` survives the round trip through a scalar. -/
theorem scalarToU64_natCast_u64 (v : UInt64) : scalarToU64 (v.toNat : Scalar) = v := by
  apply UInt64.toNat.inj
  have hv : v.toNat < 2 ^ 64 := v.toNat_lt_size
  rw [toNat_scalarToU64, Fin.val_natCast, Nat.mod_eq_of_lt (hv.trans (by decide)),
    Nat.mod_eq_of_lt hv]

/-- Opening the shares of an admissible match result returns it with each mint reduced to its low
64 bits. -/
theorem open_share {m : MatchResult} (hm : m.Admissible) :
    AuthenticatedMatchResult.open AuthenticatedMatchResult.honestBatchOpen m.share =
      .ok { m with quoteMint := m.quoteMint % 2 ^ 64, baseMint := m.baseMint % 2 ^ 64 } := by
  obtain ⟨hq₀, hq, hb₀, hb, -⟩ := hm
  have hmint : ∀ z : Int, 0 ≤ z → z < scalarModulus →
      ((scalarToU64 (z.toNat : Scalar)).toNat : Int) = z % 2 ^ 64 := fun z h₀ h => by
    have hz : z.toNat % scalarModulus = z.toNat := Nat.mod_eq_of_lt (by omega)
    rw [toNat_scalarToU64, Fin.val_natCast, hz]
    omega
  simp only [AuthenticatedMatchResult.open, AuthenticatedMatchResult.openWith,
    AuthenticatedMatchResult.honestBatchOpen, AuthenticatedMatchResult.toVec, MatchResult.share,
    List.map, MatchResult.tryFrom, scalarToU64_natCast_u64, hmint _ hq₀ hq, hmint _ hb₀ hb]

/-- Opening loses information exactly when a mint does not fit in 64 bits. -/
theorem open_share_eq_ok_iff {m : MatchResult} (hm : m.Admissible) :
    AuthenticatedMatchResult.open AuthenticatedMatchResult.honestBatchOpen m.share = .ok m ↔
      m.quoteMint < 2 ^ 64 ∧ m.baseMint < 2 ^ 64 := by
  rw [open_share hm]
  obtain ⟨hq₀, -, hb₀, -, -⟩ := hm
  cases m
  simp only [Except.ok.injEq, MatchResult.mk.injEq, and_true]
  constructor
  · rintro ⟨hq, hb⟩
    omega
  · rintro ⟨hq, hb⟩
    exact ⟨Int.emod_eq_of_lt hq₀ hq, Int.emod_eq_of_lt hb₀ hb⟩

/-- A result with quote mint `5` and base mint `1` opens to itself. -/
theorem open_share_eq_ok_iff_small :
    MatchResult.Admissible ⟨5, 1, 2, 3, 0⟩ ∧
    (AuthenticatedMatchResult.open AuthenticatedMatchResult.honestBatchOpen
      (MatchResult.share ⟨5, 1, 2, 3, 0⟩) = .ok ⟨5, 1, 2, 3, 0⟩ ↔
      (5 : Int) < 2 ^ 64 ∧ (1 : Int) < 2 ^ 64) :=
  have hm : MatchResult.Admissible ⟨5, 1, 2, 3, 0⟩ := by
    unfold MatchResult.Admissible scalarModulus
    decide
  ⟨hm, open_share_eq_ok_iff hm⟩

/-- A quote mint of `2 ^ 64` opens to zero. -/
theorem open_share_quoteMint_two_pow_64 :
    AuthenticatedMatchResult.open AuthenticatedMatchResult.honestBatchOpen
      (MatchResult.share ⟨2 ^ 64, 1, 2, 3, 0⟩) = .ok ⟨0, 1, 2, 3, 0⟩ := by
  rw [open_share (by unfold MatchResult.Admissible scalarModulus; decide)]
  rfl

end Renegade.Circuits
