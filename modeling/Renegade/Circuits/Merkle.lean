import Renegade.Crypto.Scalar

/-!
# The Merkle opening gadget

`PoseidonMerkleHashGadget::compute_root` sponge-hashes the leaf data, then hashes the running
value with each sibling of the opening from the leaf up, always as `[current, sibling]`. It is
generic over the constraint system, so it is modelled once over any monad: over `Id` with the
sponge evaluated to a function `spongeHash`, it gives the value the root variable takes; over a
constraint-system state, the variables and constraints the prover and the verifier allocate.

On the Merkle tree whose leaves are sponge hashes of their data and whose parents are sponge
hashes of `[left, right]`, the gadget applied to leaf `i` and its sibling path evaluates to the
root of the tree with the two children swapped at every level where the path to `i` turns
right, that is, the root only for leaf `0` in general. A tree of two leaves and the leaf at
index `1` shows it: the gadget hashes `[leaf 1, leaf 0]`.

`prove` commits the leaf data, then the opening, then the public expected root, and returns the
opening's commitments followed by the leaf's. `verify` splits the commitments at
`tree_height - 1` and commits the leaf's part, then the opening's, then the root: when
`tree_height` is one more than the length of the opening, the split gives back exactly the
prover's two parts, and the verifier allocates the same variables, bound to the same
commitments, and the same constraints as the prover. The Poseidon sponge gadget and the
Pedersen commitment are not in the sources and are parameters; the proof itself is left out.
-/

namespace Renegade.Circuits

/-! ## The gadget -/

section Gadget

variable {m : Type → Type} [Monad m] {α : Type} (spongeHash : List α → m α)

/-- `PoseidonMerkleHashGadget::leaf_hash`: a fresh sponge absorbs the leaf data and squeezes. -/
def leafHash (values : List α) : m α := spongeHash values

/-- `PoseidonMerkleHashGadget::hash_internal_nodes`: a fresh sponge absorbs `[left, right]` and
squeezes. -/
def hashInternalNodes (left right : α) : m α := spongeHash [left, right]

/-- `PoseidonMerkleHashGadget::compute_root`: hash the leaf, then the running value with each
sibling of the opening in turn, the running value on the left. -/
def computeRoot (leafNode opening : List α) : m α := do
  let currentHash ← leafHash spongeHash leafNode
  opening.foldlM (fun currentHash pathElem => hashInternalNodes spongeHash currentHash pathElem)
    currentHash

end Gadget

variable {α : Type}

/-- The value `compute_root` gives when the sponge gadget evaluates to `spongeHash`. -/
def evalComputeRoot (spongeHash : List α → α) (leafNode opening : List α) : α :=
  Id.run (computeRoot (pure ∘ spongeHash) leafNode opening)

/-- The gadget's value folds the opening from the leaf hash, the running value on the left. -/
theorem evalComputeRoot_eq (spongeHash : List α → α) (leafNode opening : List α) :
    evalComputeRoot spongeHash leafNode opening =
      opening.foldl (fun current sibling => spongeHash [current, sibling])
        (spongeHash leafNode) := by
  simp only [evalComputeRoot, computeRoot, leafHash, hashInternalNodes, Id.run, Id.pure_eq,
    Id.bind_eq, Function.comp_apply]
  generalize spongeHash leafNode = current
  induction opening generalizing current with
  | nil => rfl
  | cons sibling opening ih => exact ih _

/-! ## Merkle trees -/

/-- A perfect binary Merkle tree of height `n`, each leaf holding its leaf data. -/
inductive MerkleTree (α : Type) : Nat → Type
  | leaf (data : List α) : MerkleTree α 0
  | node {n : Nat} (left right : MerkleTree α n) : MerkleTree α (n + 1)

namespace MerkleTree

variable (spongeHash : List α → α)

/-- The root: a leaf is the sponge hash of its data, a parent that of `[left, right]`. -/
def root : {n : Nat} → MerkleTree α n → α
  | _, leaf data => spongeHash data
  | _, node left right => spongeHash [root left, root right]

/-- The data of leaf `i`: bit `n` of `i` picks the child below a node of height `n + 1`. -/
def leafAt : {n : Nat} → MerkleTree α n → Nat → List α
  | _, leaf data, _ => data
  | n + 1, node left right, i => if i.testBit n then leafAt right i else leafAt left i

/-- The sibling path of leaf `i`, from the leaf up. -/
def siblingPath : {n : Nat} → MerkleTree α n → Nat → List α
  | _, leaf _, _ => []
  | n + 1, node left right, i =>
    if i.testBit n then siblingPath right i ++ [root spongeHash left]
    else siblingPath left i ++ [root spongeHash right]

/-- The tree with the children swapped at every node where the path to leaf `i` turns right. -/
def swapAlong : {n : Nat} → MerkleTree α n → Nat → MerkleTree α n
  | _, leaf data, _ => leaf data
  | n + 1, node left right, i =>
    if i.testBit n then node (swapAlong right i) left else node (swapAlong left i) right

section Node

variable {n : Nat} (left right : MerkleTree α n) (i : Nat)

theorem root_node :
    root spongeHash (node left right) = spongeHash [root spongeHash left, root spongeHash right] :=
  rfl

theorem leafAt_node :
    leafAt (node left right) i = if i.testBit n then leafAt right i else leafAt left i := rfl

theorem siblingPath_node :
    siblingPath spongeHash (node left right) i =
      if i.testBit n then siblingPath spongeHash right i ++ [root spongeHash left]
      else siblingPath spongeHash left i ++ [root spongeHash right] := rfl

theorem swapAlong_node :
    swapAlong (node left right) i =
      if i.testBit n then node (swapAlong right i) left else node (swapAlong left i) right := rfl

end Node

@[simp] theorem length_siblingPath : ∀ {n : Nat} (t : MerkleTree α n) (i : Nat),
    (siblingPath spongeHash t i).length = n
  | _, leaf _, _ => rfl
  | n + 1, node left right, i => by
    rw [siblingPath_node]
    split_ifs <;> simp [length_siblingPath]

/-- The gadget on leaf `i` and its sibling path evaluates to the root of the tree swapped along
the path to `i`. -/
theorem evalComputeRoot_siblingPath : ∀ {n : Nat} (t : MerkleTree α n) (i : Nat),
    evalComputeRoot spongeHash (leafAt t i) (siblingPath spongeHash t i) =
      root spongeHash (swapAlong t i)
  | _, leaf _, _ => by rw [evalComputeRoot_eq]; rfl
  | n + 1, node left right, i => by
    have step (t : MerkleTree α n) (sibling : α) :
        evalComputeRoot spongeHash (leafAt t i) (siblingPath spongeHash t i ++ [sibling]) =
          spongeHash [root spongeHash (swapAlong t i), sibling] := by
      rw [evalComputeRoot_eq, List.foldl_append, ← evalComputeRoot_eq,
        evalComputeRoot_siblingPath t i]
      rfl
    rw [leafAt_node, siblingPath_node, swapAlong_node]
    by_cases h : i.testBit n
    · rw [if_pos h, if_pos h, if_pos h, step, root_node]
    · rw [if_neg h, if_neg h, if_neg h, step, root_node]

@[simp] theorem swapAlong_zero : ∀ {n : Nat} (t : MerkleTree α n), swapAlong t 0 = t
  | _, leaf _ => rfl
  | _, node left right => by
    rw [swapAlong_node, if_neg (by simp), swapAlong_zero left]

/-- At leaf `0`, the case the gadget's tests check, the gadget evaluates to the root. -/
theorem evalComputeRoot_leafZero {n : Nat} (t : MerkleTree α n) :
    evalComputeRoot spongeHash (leafAt t 0) (siblingPath spongeHash t 0) = root spongeHash t := by
  rw [evalComputeRoot_siblingPath, swapAlong_zero]

/-- At leaf `1` of a tree of two leaves, the gadget hashes `[leaf 1, leaf 0]` where the root
is the hash of `[leaf 0, leaf 1]`. -/
theorem evalComputeRoot_leafOne (d₀ d₁ : List α) :
    evalComputeRoot spongeHash (leafAt (node (leaf d₀) (leaf d₁)) 1)
        (siblingPath spongeHash (node (leaf d₀) (leaf d₁)) 1) =
      spongeHash [spongeHash d₁, spongeHash d₀] ∧
    root spongeHash (node (leaf d₀) (leaf d₁)) = spongeHash [spongeHash d₀, spongeHash d₁] :=
  ⟨evalComputeRoot_siblingPath spongeHash _ 1, rfl⟩

end MerkleTree

/-! ## Proving and verifying -/

/-- `Variable`, by the kinds the Merkle circuit's constraint systems allocate. -/
inductive Variable
  /-- The `i`-th committed variable. -/
  | committed (i : Nat)
  /-- The left input of the `i`-th multiplier. -/
  | multiplierLeft (i : Nat)
  /-- The right input of the `i`-th multiplier. -/
  | multiplierRight (i : Nat)
  /-- The output of the `i`-th multiplier. -/
  | multiplierOutput (i : Nat)
  /-- The constant one. -/
  | one
  deriving DecidableEq, Repr

/-- `LinearCombination`: variables with scalar coefficients. -/
abbrev LinearCombination := List (Variable × Scalar)

/-- `From<Variable> for LinearCombination`. -/
def LinearCombination.ofVariable (var : Variable) : LinearCombination := [(var, 1)]

/-- `Sub for LinearCombination`. -/
def LinearCombination.sub (a b : LinearCombination) : LinearCombination :=
  a ++ b.map fun term => (term.1, -term.2)

/-- What a committed variable is bound to in the transcript. -/
inductive Binding (Commitment : Type)
  /-- A hiding commitment to a witness value. -/
  | secret (commitment : Commitment)
  /-- A public value. -/
  | public (value : Scalar)
  deriving DecidableEq

/-- The part of a constraint system that the prover and the verifier both build. -/
structure ConstraintSystem (Commitment : Type) where
  /-- The binding of each committed variable, by index, in transcript order. -/
  bindings : List (Binding Commitment)
  /-- The number of multipliers allocated. -/
  numMultipliers : Nat
  /-- The constraints, each a linear combination required to be zero. -/
  constraints : List LinearCombination

/-- The witness: the sibling path and the leaf data. -/
structure MerkleWitness where
  /-- The opening, from the leaf up. -/
  opening : List Scalar
  /-- The leaf's preimage. -/
  leafData : List Scalar

/-- The statement: the expected root and the tree height. -/
structure MerkleStatement where
  /-- The root the opening must reach. -/
  expectedRoot : Scalar
  /-- The tree height, used to split the commitments. -/
  treeHeight : Nat

section Circuit

variable {Commitment : Type}

/-- Allocate the next committed variable, with its binding appended to the transcript. -/
def allocCommitted (binding : Binding Commitment) :
    StateM (ConstraintSystem Commitment) Variable :=
  modifyGet fun cs =>
    (.committed cs.bindings.length, { cs with bindings := cs.bindings ++ [binding] })

/-- `Prover::commit(v, blinder)`, with `pedersen` the Pedersen commitment. -/
def proverCommit (pedersen : Scalar → Scalar → Commitment) (v blinder : Scalar) :
    StateM (ConstraintSystem Commitment) (Commitment × Variable) := do
  let commitment := pedersen v blinder
  let var ← allocCommitted (.secret commitment)
  pure (commitment, var)

/-- `Verifier::commit(commitment)`. -/
def verifierCommit (commitment : Commitment) : StateM (ConstraintSystem Commitment) Variable :=
  allocCommitted (.secret commitment)

/-- `commit_public(v)`, on either side. -/
def commitPublic (v : Scalar) : StateM (ConstraintSystem Commitment) Variable :=
  allocCommitted (.public v)

/-- `constrain(lc)`. -/
def constrain (lc : LinearCombination) : StateM (ConstraintSystem Commitment) Unit :=
  modify fun cs => { cs with constraints := cs.constraints ++ [lc] }

variable (poseidon : List LinearCombination →
  StateM (ConstraintSystem Commitment) LinearCombination)

/-- `compute_and_constrain_root`, with `poseidon` the sponge gadget: absorb, then squeeze. -/
def computeAndConstrainRoot (leafNode : List LinearCombination) (opening : List Variable)
    (expectedRoot : LinearCombination) : StateM (ConstraintSystem Commitment) Unit := do
  let root ← computeRoot poseidon leafNode (opening.map LinearCombination.ofVariable)
  constrain (expectedRoot.sub root)

/-- `prove` up to the proof itself: the commitments it returns, with `rng j` the `j`-th blinder
drawn. -/
def proveCircuit (pedersen : Scalar → Scalar → Commitment) (rng : Nat → Scalar)
    (witness : MerkleWitness) (statement : MerkleStatement) :
    StateM (ConstraintSystem Commitment) (List Commitment) := do
  let leafDataLength := witness.leafData.length
  let openingLen := witness.opening.length
  let leaf ← (witness.leafData.zip ((List.range leafDataLength).map rng)).mapM
    fun valBlinder => proverCommit pedersen valBlinder.1 valBlinder.2
  let opening ← (witness.opening.zip
      ((List.range openingLen).map fun j => rng (leafDataLength + j))).mapM
    fun valBlind => proverCommit pedersen valBlind.1 valBlind.2
  let rootVar ← commitPublic statement.expectedRoot
  computeAndConstrainRoot poseidon (leaf.unzip.2.map LinearCombination.ofVariable)
    opening.unzip.2 (LinearCombination.ofVariable rootVar)
  pure (opening.unzip.1 ++ leaf.unzip.1)

/-- `verify` up to the proof check: `none` where slicing the commitments panics. -/
def verifyCircuit (witnessCommitments : List Commitment) (statement : MerkleStatement) :
    Option (StateM (ConstraintSystem Commitment) Unit) :=
  if statement.treeHeight = 0 ∨ witnessCommitments.length < statement.treeHeight - 1 then none
  else some do
    let leafVars ← (witnessCommitments.drop (statement.treeHeight - 1)).mapM verifierCommit
    let openingVars ← (witnessCommitments.take (statement.treeHeight - 1)).mapM verifierCommit
    let rootVar ← commitPublic statement.expectedRoot
    computeAndConstrainRoot poseidon (leafVars.map LinearCombination.ofVariable) openingVars
      (LinearCombination.ofVariable rootVar)

/-- The variables `n` commitments allocate from index `start`. -/
def committedVars : Nat → Nat → List Variable
  | _, 0 => []
  | start, n + 1 => .committed start :: committedVars (start + 1) n

@[simp] theorem length_committedVars (start n : Nat) : (committedVars start n).length = n := by
  induction n generalizing start <;> simp [committedVars, *]

theorem run_allocCommitted (binding : Binding Commitment) (cs : ConstraintSystem Commitment) :
    (allocCommitted binding).run cs =
      (.committed cs.bindings.length, { cs with bindings := cs.bindings ++ [binding] }) := rfl

theorem run_proverCommit (pedersen : Scalar → Scalar → Commitment) (v blinder : Scalar)
    (cs : ConstraintSystem Commitment) :
    (proverCommit pedersen v blinder).run cs =
      ((pedersen v blinder, .committed cs.bindings.length),
        { cs with bindings := cs.bindings ++ [.secret (pedersen v blinder)] }) := rfl

/-- Committing a list on the verifier's side appends it to the transcript. -/
theorem run_mapM_verifierCommit (commitments : List Commitment) (cs : ConstraintSystem Commitment) :
    (commitments.mapM verifierCommit).run cs =
      (committedVars cs.bindings.length commitments.length,
        { cs with bindings := cs.bindings ++ commitments.map .secret }) := by
  induction commitments generalizing cs with
  | nil => simp only [List.mapM_nil, StateT.run_pure, List.map_nil, List.append_nil]; rfl
  | cons c commitments ih =>
    simp only [List.mapM_cons, StateT.run_bind, verifierCommit, run_allocCommitted, Id.bind_eq,
      ih, StateT.run_pure, Id.pure_eq, List.length_append, List.length_singleton, List.map_cons,
      List.append_assoc, List.singleton_append, committedVars]

/-- Committing values on the prover's side appends their commitments to the transcript. -/
theorem run_mapM_proverCommit (pedersen : Scalar → Scalar → Commitment)
    (pairs : List (Scalar × Scalar)) (cs : ConstraintSystem Commitment) :
    (pairs.mapM fun p => proverCommit pedersen p.1 p.2).run cs =
      ((pairs.map fun p => pedersen p.1 p.2).zip
          (committedVars cs.bindings.length pairs.length),
        { cs with
          bindings := cs.bindings ++ (pairs.map fun p => pedersen p.1 p.2).map .secret }) := by
  induction pairs generalizing cs with
  | nil => simp only [List.mapM_nil, StateT.run_pure, List.map_nil, List.append_nil]; rfl
  | cons p pairs ih =>
    simp only [List.mapM_cons, StateT.run_bind, run_proverCommit, Id.bind_eq, ih,
      StateT.run_pure, Id.pure_eq, List.length_append, List.length_singleton, List.map_cons,
      List.append_assoc, List.singleton_append, committedVars, List.zip_cons_cons]

/-- On the prover's commitments, `verify` commits the leaf's part, then the opening's, as the
prover did. -/
theorem run_verifyCircuit (openingCommitments leafCommitments : List Commitment)
    (statement : MerkleStatement)
    (hheight : statement.treeHeight = openingCommitments.length + 1) :
    verifyCircuit poseidon (openingCommitments ++ leafCommitments) statement = some (do
      let leafVars ← leafCommitments.mapM verifierCommit
      let openingVars ← openingCommitments.mapM verifierCommit
      let rootVar ← commitPublic statement.expectedRoot
      computeAndConstrainRoot poseidon (leafVars.map LinearCombination.ofVariable) openingVars
        (LinearCombination.ofVariable rootVar)) := by
  have hsplit : statement.treeHeight - 1 = openingCommitments.length := by omega
  rw [verifyCircuit, if_neg (by rw [List.length_append]; omega), hsplit, List.drop_left,
    List.take_left]

/-- For every witness and every statement whose tree height is one more than the length of the
opening, `prove` returns the opening's commitments then the leaf's; `verify` splits them back
into exactly those two parts and, from the same constraint system, builds the same variables,
bound to the same commitments, and the same constraints as `prove`. -/
theorem verifyCircuit_proveCircuit (pedersen : Scalar → Scalar → Commitment)
    (rng : Nat → Scalar) (witness : MerkleWitness) (statement : MerkleStatement)
    (hheight : statement.treeHeight = witness.opening.length + 1)
    (cs : ConstraintSystem Commitment) :
    let leafCommitments := (witness.leafData.zip
      ((List.range witness.leafData.length).map rng)).map fun p => pedersen p.1 p.2
    let openingCommitments := (witness.opening.zip ((List.range witness.opening.length).map
      fun j => rng (witness.leafData.length + j))).map fun p => pedersen p.1 p.2
    let proved := (proveCircuit poseidon pedersen rng witness statement).run cs
    proved.1 = openingCommitments ++ leafCommitments ∧
    proved.1.drop (statement.treeHeight - 1) = leafCommitments ∧
    proved.1.take (statement.treeHeight - 1) = openingCommitments ∧
    (verifyCircuit poseidon proved.1 statement).map (fun verifier => (verifier.run cs).2) =
      some proved.2 := by
  intro leafCommitments openingCommitments proved
  have hleaf : (witness.leafData.zip ((List.range witness.leafData.length).map rng)).length =
      witness.leafData.length := by simp
  have hopening : (witness.opening.zip ((List.range witness.opening.length).map
      fun j => rng (witness.leafData.length + j))).length = witness.opening.length := by simp
  have hprove : proved.1 = openingCommitments ++ leafCommitments := by
    simp (disch := simp [hleaf, hopening]) only [proved, proveCircuit, StateT.run_bind,
      run_mapM_proverCommit, Id.bind_eq, List.unzip_zip, StateT.run_pure, Id.pure_eq]
  have hsplit : statement.treeHeight - 1 = openingCommitments.length := by
    simp [openingCommitments, hopening, hheight]
  refine ⟨hprove, by rw [hprove, hsplit, List.drop_left], by rw [hprove, hsplit, List.take_left],
    ?_⟩
  rw [hprove, run_verifyCircuit poseidon _ _ statement (by omega), Option.map_some']
  congr 1
  simp (disch := simp [hleaf, hopening]) only [proved, proveCircuit, StateT.run_bind,
    run_mapM_proverCommit, run_mapM_verifierCommit, Id.bind_eq, List.unzip_zip, StateT.run_pure,
    Id.pure_eq, leafCommitments, openingCommitments, List.length_map]

end Circuit

/-- A one-level opening with one leaf scalar, commitments as the pairs they open to and a gadget
that allocates nothing. -/
theorem verifyCircuit_proveCircuit_oneLevel :
    let poseidon : List LinearCombination →
        StateM (ConstraintSystem (Scalar × Scalar)) LinearCombination := fun _ => pure []
    let proved := (proveCircuit poseidon Prod.mk (fun _ => 0) ⟨[1], [2]⟩ ⟨0, 2⟩).run ⟨[], 0, []⟩
    (⟨0, 2⟩ : MerkleStatement).treeHeight = ([1] : List Scalar).length + 1 ∧
    proved.1 = [(1, 0), (2, 0)] ∧
    (verifyCircuit poseidon proved.1 ⟨0, 2⟩).map (fun verifier => (verifier.run ⟨[], 0, []⟩).2) =
      some proved.2 := by
  intro poseidon proved
  have h := verifyCircuit_proveCircuit poseidon Prod.mk (fun _ => 0) ⟨[1], [2]⟩ ⟨0, 2⟩ rfl
    ⟨[], 0, []⟩
  exact ⟨rfl, h.1, h.2.2.2⟩

end Renegade.Circuits
