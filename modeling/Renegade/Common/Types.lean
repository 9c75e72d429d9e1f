import Renegade.Crypto.Scalar

/-!
# Network orders and validity proof bundles

The records the order book stores and gossips. Identifiers are natural numbers (a `Uuid` is a
128-bit one); proofs, commitments and witnesses are opaque data, since every function that reads
them is a primitive of the proof system. Only the statement fields that the relayer checks are
kept.
-/

namespace Renegade

/-- `OrderIdentifier`, a `Uuid`. -/
abbrev OrderIdentifier := Nat

/-- `WalletIdentifier`, a `Uuid`. -/
abbrev WalletIdentifier := Nat

/-- A wallet share nullifier. -/
abbrev Nullifier := Scalar

/-- `ClusterId`, the name of a relayer cluster. -/
structure ClusterId where
  /-- The cluster's name. -/
  name : String
  deriving DecidableEq, Repr

/-- `WrappedPeerId`, a libp2p peer identifier. -/
structure WrappedPeerId where
  /-- The peer's identity. -/
  id : Nat
  deriving DecidableEq, Repr

/-- `NetworkOrderState`. -/
inductive NetworkOrderState
  | received
  | verified
  | matched
  | cancelled
  deriving DecidableEq, Repr

/-- The public statement of `VALID REBLIND`, by the fields the relayer checks. -/
structure ValidReblindStatement where
  /-- The nullifier of the shares the wallet was reblinded from. -/
  originalSharesNullifier : Nullifier
  /-- The Merkle root the opening of the original shares is proved against. -/
  merkleRoot : Scalar
  deriving DecidableEq, Repr

/-- A proof together with its statement and its witness commitment. -/
structure ProofBundle (σ : Type) where
  /-- The public statement. -/
  statement : σ
  /-- The commitment to the witness. -/
  commitment : Nat
  /-- The proof. -/
  proof : Nat
  deriving DecidableEq, Repr

/-- `OrderValidityProofBundle`: the proofs of `VALID REBLIND` and `VALID COMMITMENTS`. -/
structure OrderValidityProofBundle where
  /-- The proof of `VALID REBLIND`. -/
  reblindProof : ProofBundle ValidReblindStatement
  /-- The proof of `VALID COMMITMENTS`, whose statement is opaque here. -/
  commitmentProof : ProofBundle Nat
  deriving DecidableEq, Repr

/-- `OrderValidityWitnessBundle`, opaque. -/
abbrev OrderValidityWitnessBundle := Nat

/-- `NetworkOrder`, an order as the network order book stores it. -/
structure NetworkOrder where
  /-- The order's identifier. -/
  id : OrderIdentifier
  /-- The nullifier of the public shares of the wallet holding the order. -/
  publicShareNullifier : Nullifier
  /-- The cluster managing the order. -/
  cluster : ClusterId
  /-- The order's state. -/
  state : NetworkOrderState
  /-- The validity proofs, once verified. -/
  validityProofs : Option OrderValidityProofBundle
  /-- The validity proof witnesses, for a locally managed order. -/
  validityProofWitnesses : Option OrderValidityWitnessBundle
  /-- `local`: whether the order is managed by the local cluster. -/
  isLocal : Bool
  deriving DecidableEq, Repr

/-- Modelled from the spec: `NetworkOrder::new`, an order inserted in `Received` with no proofs
or witnesses attached. -/
def NetworkOrder.new (id : OrderIdentifier) (nullifier : Nullifier) (cluster : ClusterId)
    (isLocal : Bool) : NetworkOrder :=
  ⟨id, nullifier, cluster, .received, none, none, isLocal⟩

end Renegade
