import Renegade.Crypto.Scalar

/-!
# The `BaseType` impls generated by `#[circuit_type]`

The macro serializes a named-field struct by concatenating the fields' serializations in
declaration order, and deserializes it by reading the fields in the same order from one shared
iterator. The generator is modelled once over the serialized item type: `Scalar` gives
`build_base_type_impl`, `AuthenticatedScalar` gives `build_mpc_type_impl`. If every field obeys
the prefix round-trip law, so does the struct, and by induction so does every nesting of derived
structs over lawful primitives.
-/

namespace Renegade

/-- A value shared in the MPC fabric, by the scalar it opens to. -/
structure AuthenticatedScalar where
  /-- The jointly held value. -/
  value : Scalar
  deriving DecidableEq

namespace CircuitMacros

variable {σ : Type}

/-- A serialization trait over items `σ`: `to_scalars`, `to_scalars_with_linking` and
`from_scalars`, which consumes a prefix of the iterator and returns the rest, or panics
(`none`) when the iterator runs out. -/
structure BaseType (σ α : Type) where
  /-- `to_scalars`. -/
  toScalars : α → List σ
  /-- `to_scalars_with_linking`. -/
  toScalarsWithLinking : α → List σ
  /-- `from_scalars`, run on the iterator's remaining items. -/
  fromScalars : List σ → Option (α × List σ)

/-- The prefix round-trip law: decoding an encoding followed by anything returns the value and
leaves the iterator at the rest. -/
def BaseType.PrefixRoundTrip {α : Type} (impl : BaseType σ α) : Prop :=
  ∀ v rest, impl.fromScalars (impl.toScalars v ++ rest) = some (v, rest)

/-- A named field of the struct given to the macro: its identifier, its type and that type's
impl. -/
structure Field (σ : Type) where
  /-- The field identifier. -/
  ident : String
  /-- The field type. -/
  ty : Type
  /-- The field type's impl of the trait. -/
  impl : BaseType σ ty

/-- The values of a struct with the given fields, as nested pairs in declaration order. -/
def StructValue : List (Field σ) → Type
  | [] => Unit
  | f :: fs => f.ty × StructValue fs

/-- `build_serialize_method`: `res.extend(self.field.method())` for every field in order. -/
def buildSerializeMethod (method : (f : Field σ) → f.ty → List σ) :
    (fields : List (Field σ)) → StructValue fields → List σ
  | [], _ => []
  | f :: fs, (v, vs) => method f v ++ buildSerializeMethod method fs vs

/-- `build_deserialize_method`: `Self { field: <T as Trait>::method(i), .. }`, reading the fields
in declaration order from one iterator. -/
def buildDeserializeMethod :
    (fields : List (Field σ)) → List σ → Option (StructValue fields × List σ)
  | [], i => some ((), i)
  | f :: fs, i => do
    let (v, i) ← f.impl.fromScalars i
    let (vs, i) ← buildDeserializeMethod fs i
    pure ((v, vs), i)

/-- `build_base_type_impl`: the `BaseType` impl of a struct with the given fields. -/
def buildBaseTypeImpl (fields : List (Field Scalar)) : BaseType Scalar (StructValue fields) where
  toScalars := buildSerializeMethod (fun f => f.impl.toScalars) fields
  toScalarsWithLinking := buildSerializeMethod (fun f => f.impl.toScalarsWithLinking) fields
  fromScalars := buildDeserializeMethod fields

/-- `build_mpc_type_impl`: the `MpcType` impl of the `Authenticated` struct, whose fields are the
fields' allocated types, with `to_authenticated_scalars` and `from_authenticated_scalars`. -/
def buildMpcTypeImpl (fields : List (Field AuthenticatedScalar)) :
    BaseType AuthenticatedScalar (StructValue fields) where
  toScalars := buildSerializeMethod (fun f => f.impl.toScalars) fields
  toScalarsWithLinking := buildSerializeMethod (fun f => f.impl.toScalarsWithLinking) fields
  fromScalars := buildDeserializeMethod fields

/-- Reading the fields back from their concatenated encodings consumes exactly them. -/
theorem buildDeserializeMethod_serialize :
    ∀ (fields : List (Field σ)), (∀ f ∈ fields, f.impl.PrefixRoundTrip) →
      ∀ (vs : StructValue fields) (rest : List σ),
        buildDeserializeMethod fields
          (buildSerializeMethod (fun f => f.impl.toScalars) fields vs ++ rest) = some (vs, rest)
  | [], _, _, _ => rfl
  | f :: fs, h, (v, vs), rest => by
    have hf : f.impl.PrefixRoundTrip := h f (List.mem_cons_self _ _)
    have hfs := buildDeserializeMethod_serialize fs fun g hg => h g (List.mem_cons_of_mem _ hg)
    simp [buildSerializeMethod, buildDeserializeMethod, List.append_assoc, hf v, hfs vs rest]

/-- The impls reachable by nesting: lawful primitives (`Scalar`, integers, arrays, written by
hand), and the derived impl of any struct whose fields are reachable. -/
inductive Derived : {α : Type} → BaseType Scalar α → Prop
  | primitive {α : Type} {impl : BaseType Scalar α} : impl.PrefixRoundTrip → Derived impl
  | struct (fields : List (Field Scalar)) :
      (∀ f ∈ fields, Derived f.impl) → Derived (buildBaseTypeImpl fields)

/-- `#[circuit_type]` preserves the prefix round-trip law, for `BaseType` and for `MpcType`, and
every impl obtained by nesting derived structs over lawful primitives decodes its own encoding. -/
theorem circuitType_prefixRoundTrip :
    (∀ fields : List (Field Scalar), (∀ f ∈ fields, f.impl.PrefixRoundTrip) →
      (buildBaseTypeImpl fields).PrefixRoundTrip) ∧
    (∀ fields : List (Field AuthenticatedScalar), (∀ f ∈ fields, f.impl.PrefixRoundTrip) →
      (buildMpcTypeImpl fields).PrefixRoundTrip) ∧
    (∀ {α : Type} (impl : BaseType Scalar α), Derived impl →
      ∀ x, impl.fromScalars (impl.toScalars x) = some (x, [])) := by
  have hbase : ∀ fields : List (Field Scalar), (∀ f ∈ fields, f.impl.PrefixRoundTrip) →
      (buildBaseTypeImpl fields).PrefixRoundTrip :=
    fun fields h => buildDeserializeMethod_serialize fields h
  have hderived : ∀ {α : Type} {impl : BaseType Scalar α}, Derived impl → impl.PrefixRoundTrip := by
    intro α impl hd
    induction hd with
    | primitive h => exact h
    | struct fields _ ih => exact hbase fields ih
  refine ⟨hbase, fun fields h => buildDeserializeMethod_serialize fields h, fun impl hd x => ?_⟩
  simpa using hderived hd x []

end CircuitMacros

end Renegade
