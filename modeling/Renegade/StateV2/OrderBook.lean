import Renegade.StateV2.Applicator

/-!
# Applicator methods for the network order book

The handlers `new_order`, `add_order_validity_proof` and `nullify_orders` and their transaction
helpers, as the applicator runs them. Beside each helper stands the transition of the
transaction's view it performs, as a function on `Tables`, and an `Implements` lemma connecting
the two.
-/

namespace Renegade.StateV2

/-! ## Transitions of the view -/

namespace Tables

/-- Add an order id to a nullifier set unless it is already there. -/
def appendToNullifierSet (t : Tables) (n : Nullifier) (id : OrderIdentifier) : Tables :=
  if id ∈ t.nullifierSet n then t else t.putNullifierSet n (t.nullifierSet n ++ [id])

/-- Move an order id from the set of its old nullifier to the set of its new one. -/
def updateOrderNullifier (t : Tables) (id : OrderIdentifier) (old new : Nullifier) : Tables :=
  (t.putNullifierSet old ((t.nullifierSet old).filter (· ≠ id))).appendToNullifierSet new id

/-- Index an order by its nullifier, re-indexing a stored one, and write it. -/
def addOrder (t : Tables) (o : NetworkOrder) : Tables :=
  (match t.orders o.id with
    | some info => t.updateOrderNullifier o.id info.publicShareNullifier o.publicShareNullifier
    | none => t.appendToNullifierSet o.publicShareNullifier o.id).putOrder o

/-- A stored order after a validity proof is attached: verified, indexed by the proof's
nullifier. -/
def NetworkOrder.withProof (info : NetworkOrder) (proof : OrderValidityProofBundle) :
    NetworkOrder :=
  { info with state := .verified,
              publicShareNullifier := proof.reblindProof.statement.originalSharesNullifier,
              validityProofs := some proof }

/-- Re-index the order read under `id` by a proof's nullifier and write it back verified. -/
def attachValidityProof (t : Tables) (id : OrderIdentifier) (info : NetworkOrder)
    (proof : OrderValidityProofBundle) : Tables :=
  let new := proof.reblindProof.statement.originalSharesNullifier
  (if info.publicShareNullifier ≠ new then t.updateOrderNullifier id info.publicShareNullifier new
    else t).putOrder (NetworkOrder.withProof info proof)

/-- A stored order after cancellation. -/
def NetworkOrder.cancelled (o : NetworkOrder) : NetworkOrder :=
  { o with state := .cancelled, validityProofWitnesses := none, validityProofs := none }

/-- Cancel a stored order, failing when it is missing. -/
def cancelOrder (t : Tables) (id : OrderIdentifier) : Option Tables :=
  (t.orders id).map fun o => t.putOrder (NetworkOrder.cancelled o)

/-- Cancel the orders of a list in turn. -/
def cancelOrders (t : Tables) : List OrderIdentifier → Option Tables
  | [] => some t
  | id :: ids => (t.cancelOrder id).bind fun t' => t'.cancelOrders ids

@[simp] theorem NetworkOrder.cancelled_id (o : NetworkOrder) :
    (NetworkOrder.cancelled o).id = o.id := rfl

@[simp] theorem NetworkOrder.cancelled_cancelled (o : NetworkOrder) :
    NetworkOrder.cancelled (NetworkOrder.cancelled o) = NetworkOrder.cancelled o := rfl

@[simp] theorem appendToNullifierSet_orders (t : Tables) (n : Nullifier) (id : OrderIdentifier) :
    (t.appendToNullifierSet n id).orders = t.orders := by
  unfold appendToNullifierSet
  split <;> rfl

@[simp] theorem updateOrderNullifier_orders (t : Tables) (id : OrderIdentifier)
    (old new : Nullifier) : (t.updateOrderNullifier id old new).orders = t.orders := by
  simp [updateOrderNullifier]

@[simp] theorem appendToNullifierSet_priorities (t : Tables) (n : Nullifier)
    (id : OrderIdentifier) : (t.appendToNullifierSet n id).priorities = t.priorities := by
  unfold appendToNullifierSet
  split <;> rfl

@[simp] theorem appendToNullifierSet_clusterPriorities (t : Tables) (n : Nullifier)
    (id : OrderIdentifier) :
    (t.appendToNullifierSet n id).clusterPriorities = t.clusterPriorities := by
  unfold appendToNullifierSet
  split <;> rfl

@[simp] theorem updateOrderNullifier_priorities (t : Tables) (id : OrderIdentifier)
    (old new : Nullifier) : (t.updateOrderNullifier id old new).priorities = t.priorities := by
  simp [updateOrderNullifier]

@[simp] theorem updateOrderNullifier_clusterPriorities (t : Tables) (id : OrderIdentifier)
    (old new : Nullifier) :
    (t.updateOrderNullifier id old new).clusterPriorities = t.clusterPriorities := by
  simp [updateOrderNullifier]

@[simp] theorem addOrder_priorities (t : Tables) (o : NetworkOrder) :
    (t.addOrder o).priorities = t.priorities := by
  unfold addOrder
  split <;> simp

@[simp] theorem addOrder_clusterPriorities (t : Tables) (o : NetworkOrder) :
    (t.addOrder o).clusterPriorities = t.clusterPriorities := by
  unfold addOrder
  split <;> simp

@[simp] theorem attachValidityProof_priorities (t : Tables) (id : OrderIdentifier)
    (info : NetworkOrder) (proof : OrderValidityProofBundle) :
    (t.attachValidityProof id info proof).priorities = t.priorities := by
  unfold attachValidityProof
  dsimp only
  split <;> simp

@[simp] theorem attachValidityProof_clusterPriorities (t : Tables) (id : OrderIdentifier)
    (info : NetworkOrder) (proof : OrderValidityProofBundle) :
    (t.attachValidityProof id info proof).clusterPriorities = t.clusterPriorities := by
  unfold attachValidityProof
  dsimp only
  split <;> simp

@[simp] theorem addOrder_orders (t : Tables) (o : NetworkOrder) :
    (t.addOrder o).orders = Function.update t.orders o.id (some o) := by
  unfold addOrder
  split <;> simp

@[simp] theorem attachValidityProof_orders (t : Tables) (id : OrderIdentifier) (info : NetworkOrder)
    (proof : OrderValidityProofBundle) :
    (t.attachValidityProof id info proof).orders =
      Function.update t.orders info.id (some (NetworkOrder.withProof info proof)) := by
  unfold attachValidityProof
  dsimp only
  split <;> simp [NetworkOrder.withProof]

end Tables

/-! ## The applicator's helpers -/

/-- `read_order_info`. -/
def readOrderInfo (id : OrderIdentifier) : AppM (Option NetworkOrder) := readTxn (·.orders id)

/-- `read_order_info_unchecked`: errors if the order is not present. -/
def readOrderInfoUnchecked (id : OrderIdentifier) : AppM NetworkOrder := do
  (← readOrderInfo id).elim (fail (.missingEntry errOrderMissing)) pure

/-- `write_order_info`. -/
def writeOrderInfo (o : NetworkOrder) : AppM Unit := writeTxn (·.putOrder o)

/-- `get_cluster_priority_with_tx`. -/
def getClusterPriorityWithTx (cluster : ClusterId) : AppM UInt32 := do
  let priority ← readTxn (·.clusterPriorities cluster)
  pure (priority.getD clusterDefaultPriority)

/-- `write_order_priority_with_tx`. -/
def writeOrderPriorityWithTx (o : NetworkOrder) : AppM Unit := do
  let clusterPriority ← getClusterPriorityWithTx o.cluster
  writeTxn (·.putPriority o.id ⟨clusterPriority, orderDefaultPriority⟩)

/-- `read_nullifier_set`. -/
def readNullifierSet (n : Nullifier) : AppM (List OrderIdentifier) := readTxn (·.nullifierSet n)

/-- `write_nullifier_set`. -/
def writeNullifierSet (n : Nullifier) (set : List OrderIdentifier) : AppM Unit :=
  writeTxn (·.putNullifierSet n set)

/-- `append_to_nullifier_set`. -/
def appendToNullifierSet (n : Nullifier) (id : OrderIdentifier) : AppM Unit := do
  let set ← readNullifierSet n
  if id ∉ set then writeTxn (·.putNullifierSet n (set ++ [id])) else pure ()

/-- `update_order_nullifier`. -/
def updateOrderNullifier (id : OrderIdentifier) (old new : Nullifier) : AppM Unit := do
  let oldSet ← readNullifierSet old
  writeNullifierSet old (oldSet.filter (· ≠ id))
  appendToNullifierSet new id

/-- `add_order_with_tx`. -/
def addOrderWithTx (o : NetworkOrder) : AppM Unit := do
  (← readOrderInfo o.id).elim (appendToNullifierSet o.publicShareNullifier o.id) fun info =>
    updateOrderNullifier o.id info.publicShareNullifier o.publicShareNullifier
  writeOrderInfo o

/-- `attach_validity_proof_with_tx`. -/
def attachValidityProofWithTx (id : OrderIdentifier) (proof : OrderValidityProofBundle) :
    AppM Unit := do
  let info ← readOrderInfoUnchecked id
  (if info.publicShareNullifier ≠ proof.reblindProof.statement.originalSharesNullifier then
    updateOrderNullifier id info.publicShareNullifier
      proof.reblindProof.statement.originalSharesNullifier
  else pure ())
  writeOrderInfo (Tables.NetworkOrder.withProof info proof)

/-- `cancel_order_with_tx`: the bus message goes out before the transaction commits. -/
def cancelOrderWithTx (id : OrderIdentifier) : AppM Unit := do
  let o ← readOrderInfoUnchecked id
  let o := Tables.NetworkOrder.cancelled o
  writeOrderInfo o
  publish (.orderStateChange o)

/-- The loop of `nullify_orders_with_tx` over a nullifier set. -/
def cancelOrdersWithTx : List OrderIdentifier → AppM Unit
  | [] => pure ()
  | id :: ids => do
    cancelOrderWithTx id
    cancelOrdersWithTx ids

/-- `nullify_orders_with_tx`. -/
def nullifyOrdersWithTx (n : Nullifier) : AppM Unit := do
  let set ← readNullifierSet n
  cancelOrdersWithTx set

/-! ## The interface -/

/-- `new_order`: index the order, commit, then publish `NewOrder`. -/
def newOrder (o : NetworkOrder) : AppM Unit := do
  inWriteTx (do writeOrderPriorityWithTx o; addOrderWithTx o)
  publish (.newOrder o)

/-- `add_order_validity_proof`: attach the proof, read the order back, commit, then publish
`OrderStateChange`. -/
def addOrderValidityProof (id : OrderIdentifier) (proof : OrderValidityProofBundle) :
    AppM Unit := do
  let info ← inWriteTx (do attachValidityProofWithTx id proof; readOrderInfoUnchecked id)
  publish (.orderStateChange info)

/-- `nullify_orders`. -/
def nullifyOrders (n : Nullifier) : AppM Unit := inWriteTx (nullifyOrdersWithTx n)

/-! ## Each helper implements its transition -/

theorem readOrderInfoUnchecked_implements (id : OrderIdentifier) :
    Implements (readOrderInfoUnchecked id) fun t => (t.orders id).map (·, t) := by
  refine ((Implements.readTxn _).bind fun o => Implements.elim (Implements.fail _)
    Implements.pure).congr fun t => ?_
  cases t.orders id <;> rfl

theorem writeOrderPriorityWithTx_implements (o : NetworkOrder) :
    Implements (writeOrderPriorityWithTx o) fun t =>
      some ((), t.putPriority o.id
        ⟨(t.clusterPriorities o.cluster).getD clusterDefaultPriority, orderDefaultPriority⟩) :=
  (((Implements.readTxn _).bind fun _ => Implements.pure _).bind fun _ =>
    Implements.writeTxn _).congr fun _ => rfl

theorem appendToNullifierSet_implements (n : Nullifier) (id : OrderIdentifier) :
    Implements (appendToNullifierSet n id) fun t => some ((), t.appendToNullifierSet n id) := by
  refine ((Implements.readTxn _).bind fun set =>
    (Implements.writeTxn _).ite (Implements.pure ())).congr fun t => ?_
  by_cases h : id ∈ t.nullifierSet n <;> simp [Tables.appendToNullifierSet, h]

theorem updateOrderNullifier_implements (id : OrderIdentifier) (old new : Nullifier) :
    Implements (updateOrderNullifier id old new) fun t =>
      some ((), t.updateOrderNullifier id old new) :=
  (((Implements.readTxn _).bind fun _ => (Implements.writeTxn _).seq
    (appendToNullifierSet_implements new id))).congr fun _ => rfl

theorem addOrderWithTx_implements (o : NetworkOrder) :
    Implements (addOrderWithTx o) fun t => some ((), t.addOrder o) := by
  refine ((Implements.readTxn _).bind fun info =>
    (Implements.elim (appendToNullifierSet_implements _ _) fun _ =>
      updateOrderNullifier_implements _ _ _).seq (Implements.writeTxn _)).congr fun t => ?_
  simp only [Option.some_bind, Tables.addOrder]
  cases t.orders o.id <;> rfl

theorem attachValidityProofWithTx_implements (id : OrderIdentifier)
    (proof : OrderValidityProofBundle) :
    Implements (attachValidityProofWithTx id proof) fun t =>
      (t.orders id).map fun info => ((), t.attachValidityProof id info proof) := by
  refine ((readOrderInfoUnchecked_implements id).bind fun info =>
    ((updateOrderNullifier_implements _ _ _).ite (Implements.pure ())).seq
      (Implements.writeTxn _)).congr fun t => ?_
  cases t.orders id with
  | none => rfl
  | some info =>
    by_cases h : info.publicShareNullifier = proof.reblindProof.statement.originalSharesNullifier
      <;> simp [Tables.attachValidityProof, h]

theorem cancelOrderWithTx_implements (id : OrderIdentifier) :
    Implements (cancelOrderWithTx id) fun t => (t.cancelOrder id).map ((), ·) := by
  refine ((readOrderInfoUnchecked_implements id).bind fun o =>
    (Implements.writeTxn _).seq (Implements.publish _)).congr fun t => ?_
  simp only [Tables.cancelOrder]
  cases t.orders id <;> rfl

theorem cancelOrdersWithTx_implements : ∀ ids : List OrderIdentifier,
    Implements (cancelOrdersWithTx ids) fun t => (t.cancelOrders ids).map ((), ·)
  | [] => (Implements.pure ()).congr fun _ => rfl
  | id :: ids => ((cancelOrderWithTx_implements id).seq (cancelOrdersWithTx_implements ids)).congr
      fun t => by
        simp only [Tables.cancelOrders]
        cases t.cancelOrder id <;> rfl

theorem nullifyOrdersWithTx_implements (n : Nullifier) :
    Implements (nullifyOrdersWithTx n) fun t => (t.cancelOrders (t.nullifierSet n)).map ((), ·) :=
  ((Implements.readTxn _).bind fun set => cancelOrdersWithTx_implements set).congr fun _ => rfl

end Renegade.StateV2
