import Renegade.StateV2.NullifierIndex

/-!
# The gossip server's order-book handlers

The handlers of `OrderBookManagementJob` in the gossip protocol executor. The relayer's order book
is the state applicator's, so `global_state.add_order` is the applicator's `new_order`, which
overwrites the stored record, and `add_order_validity_proofs` is its `add_order_validity_proof`.
The chain client and the proof verifier are arbitrary functions in the executor's environment.
-/

namespace Renegade.GossipServer

open StateV2

/-- Error message emitted when an already-used nullifier is received. -/
def errNullifierUsed : String := "invalid nullifier, already used"

/-- Error message emitted when two validity proofs are improperly commitment linked. -/
def errInvalidProofLink : String := "invalid proof link between VALID REBLIND and VALID COMMITMENTS"

/-- The error raised when a requesting peer is missing from the peer index. -/
def errPeerInfoNotFound : String := "peer info not found in state"

/-- `GossipError`, restricted to the variants the order-book handlers raise. -/
inductive GossipError
  | starknetRequest (msg : String)
  | nullifierUsed (msg : String)
  | validCommitmentVerification (msg : String)
  | validReblindVerification (msg : String)
  | missingState (msg : String)
  deriving DecidableEq, Repr

/-- What the handlers consult besides the node's state: the local node's identity, the answers of
the chain client and the verdicts of the proof verifier. -/
structure ExecutorEnv where
  /-- `global_state.local_cluster_id`. -/
  localClusterId : ClusterId
  /-- `global_state.local_peer_id`. -/
  localPeerId : WrappedPeerId
  /-- `starknet_client().check_nullifier_unused`. -/
  checkNullifierUnused : Nullifier → Except String Bool
  /-- `starknet_client().check_merkle_root_valid`. -/
  checkMerkleRootValid : Scalar → Except String Bool
  /-- `verify_reblind_commitments_link`, on the two proofs' witness commitments. -/
  verifyReblindCommitmentsLink : Nat → Nat → Bool
  /-- `verify_singleprover_proof::<SizedValidReblind>`. -/
  verifyValidReblind : ProofBundle ValidReblindStatement → Except String Unit
  /-- `verify_singleprover_proof::<SizedValidCommitments>`. -/
  verifyValidCommitments : ProofBundle Nat → Except String Unit

/-- `GossipOutbound`, restricted to the messages the order-book handlers send. -/
inductive GossipOutbound
  /-- `GossipResponse::OrderInfo` on the request's response channel. -/
  | orderInfoResponse (orderId : OrderIdentifier) (info : Option NetworkOrder)
  /-- `ClusterManagementMessage::RequestOrderValidityWitness` on a cluster's management topic. -/
  | requestOrderValidityWitness (cluster : ClusterId) (orderId : OrderIdentifier)
      (sender : WrappedPeerId)
  /-- `GossipRequest::ValidityWitness` to a peer. -/
  | validityWitness (peer : WrappedPeerId) (orderId : OrderIdentifier)
      (witness : OrderValidityWitnessBundle)
  deriving DecidableEq, Repr

/-- `OrderBookManagementJob`; response channels are left implicit. -/
inductive OrderBookManagementJob
  | orderInfo (orderId : OrderIdentifier)
  | orderInfoResponse (info : Option NetworkOrder)
  | orderReceived (orderId : OrderIdentifier) (nullifier : Nullifier) (cluster : ClusterId)
  | orderProofUpdated (orderId : OrderIdentifier) (cluster : ClusterId)
      (proofBundle : OrderValidityProofBundle)
  | orderWitness (orderId : OrderIdentifier) (requestingPeer : WrappedPeerId)
  | orderWitnessResponse (orderId : OrderIdentifier) (witness : OrderValidityWitnessBundle)

/-- What the handlers read and change: the order book as the applicator keeps it, the cluster of
each indexed peer, and the messages sent on the network channel. -/
structure ExecutorState where
  /-- The relayer's order book. -/
  globalState : AppState
  /-- `read_peer_index().get_peer_info(peer).get_cluster_id()`. -/
  peerClusters : WrappedPeerId → Option ClusterId
  /-- The messages sent on `network_channel`. -/
  outbound : List GossipOutbound

namespace ExecutorState

/-- Modelled from the spec: `global_state.add_order` is the applicator's `new_order`; its result
is dropped. -/
def addOrder (s : ExecutorState) (o : NetworkOrder) : ExecutorState :=
  { s with globalState := (StateV2.newOrder o s.globalState).2 }

/-- Modelled from the spec: `global_state.add_order_validity_proofs` is the applicator's
`add_order_validity_proof`. -/
def addOrderValidityProofs (s : ExecutorState) (id : OrderIdentifier)
    (proof : OrderValidityProofBundle) : ExecutorState :=
  { s with globalState := (StateV2.addOrderValidityProof id proof s.globalState).2 }

/-- Modelled from the spec: `read_order_book().get_order_info` reads the stored order. -/
def getOrderInfo (s : ExecutorState) (id : OrderIdentifier) : Option NetworkOrder :=
  s.globalState.store.orders id

/-- Modelled from the spec: `read_order_book().contains_order` holds of a stored order. -/
def containsOrder (s : ExecutorState) (id : OrderIdentifier) : Bool := (s.getOrderInfo id).isSome

/-- Modelled from the spec: `attach_validity_proof_witness` records the witness on the stored
order, outside any transaction. -/
def attachValidityProofWitness (s : ExecutorState) (id : OrderIdentifier)
    (witness : OrderValidityWitnessBundle) : ExecutorState :=
  { s with globalState := { s.globalState with store := { s.globalState.store with
      orders := Function.update s.globalState.store.orders id
        ((s.getOrderInfo id).map fun o => { o with validityProofWitnesses := some witness }) } } }

/-- Send a message on the network channel. -/
def send (s : ExecutorState) (msg : GossipOutbound) : ExecutorState :=
  { s with outbound := s.outbound ++ [msg] }

/-- `request_order_witness`: ask the local cluster for an order's validity witness. -/
def requestOrderWitness (s : ExecutorState) (env : ExecutorEnv) (id : OrderIdentifier) :
    ExecutorState :=
  s.send (.requestOrderValidityWitness env.localClusterId id env.localPeerId)

end ExecutorState

/-! ## The handlers -/

section Handlers

variable (env : ExecutorEnv)

/-- `assert_nullifier_unused`. -/
def assertNullifierUnused (nullifier : Nullifier) : Except GossipError Unit :=
  match env.checkNullifierUnused nullifier with
  | .error err => .error (.starknetRequest err)
  | .ok false => .error (.nullifierUsed errNullifierUsed)
  | .ok true => .ok ()

/-- `verify_validity_proofs`: a Merkle root outside the contract's history is only logged. -/
def verifyValidityProofs (proofBundle : OrderValidityProofBundle) : Except GossipError Unit := do
  if !env.verifyReblindCommitmentsLink proofBundle.reblindProof.commitment
      proofBundle.commitmentProof.commitment then
    throw (.validCommitmentVerification errInvalidProofLink)
  assertNullifierUnused env proofBundle.reblindProof.statement.originalSharesNullifier
  let _valid ← (env.checkMerkleRootValid proofBundle.reblindProof.statement.merkleRoot).mapError
    .starknetRequest
  (env.verifyValidReblind proofBundle.reblindProof).mapError .validReblindVerification
  (env.verifyValidCommitments proofBundle.commitmentProof).mapError .validCommitmentVerification

/-- Verify a bundle unless it comes from the local cluster. -/
def verifyUnlessLocal (isLocal : Bool) (proofBundle : OrderValidityProofBundle) :
    Except GossipError Unit :=
  if isLocal then .ok () else verifyValidityProofs env proofBundle

/-- `handle_order_info_request`: answer with the stored order, if any. -/
def handleOrderInfoRequest (orderId : OrderIdentifier) (s : ExecutorState) :
    Except GossipError Unit × ExecutorState :=
  (.ok (), s.send (.orderInfoResponse orderId (s.getOrderInfo orderId)))

/-- `handle_order_info_response`: store the order in `Received` without its proofs, then verify
the proofs unless the order is local and attach them. -/
def handleOrderInfoResponse (orderInfo : NetworkOrder) (s : ExecutorState) :
    Except GossipError Unit × ExecutorState :=
  let isLocal := orderInfo.cluster == env.localClusterId
  let s := s.addOrder
    { orderInfo with validityProofs := none, state := .received, isLocal := isLocal }
  match orderInfo.validityProofs with
  | none => (.ok (), s)
  | some proofBundle =>
    match verifyUnlessLocal env isLocal proofBundle with
    | .error e => (.error e, s)
    | .ok () =>
      (.ok (), (if isLocal then s.requestOrderWitness env orderInfo.id else s)
        |>.addOrderValidityProofs orderInfo.id proofBundle)

/-- `handle_new_order`: index an order in `Received` unless the chain reports its nullifier
spent. -/
def handleNewOrder (orderId : OrderIdentifier) (nullifier : Nullifier) (cluster : ClusterId)
    (s : ExecutorState) : Except GossipError Unit × ExecutorState :=
  match env.checkNullifierUnused nullifier with
  | .error err => (.error (.starknetRequest err), s)
  | .ok false => (.ok (), s)
  | .ok true =>
    (.ok (),
      s.addOrder (NetworkOrder.new orderId nullifier cluster (cluster == env.localClusterId)))

/-- `handle_new_validity_proof`: verify the bundle unless it is local, add the order if it is
unknown, attach the bundle, and ask for the witness of a local order. -/
def handleNewValidityProof (orderId : OrderIdentifier) (cluster : ClusterId)
    (proofBundle : OrderValidityProofBundle) (s : ExecutorState) :
    Except GossipError Unit × ExecutorState :=
  let isLocal := cluster == env.localClusterId
  match verifyUnlessLocal env isLocal proofBundle with
  | .error e => (.error e, s)
  | .ok () =>
    let s := if s.containsOrder orderId then s else
      s.addOrder (NetworkOrder.new orderId
        proofBundle.reblindProof.statement.originalSharesNullifier cluster isLocal)
    let s := s.addOrderValidityProofs orderId proofBundle
    (.ok (), if isLocal then s.requestOrderWitness env orderId else s)

/-- `handle_validity_witness_request`: send the stored witness to a peer of the local cluster. -/
def handleValidityWitnessRequest (orderId : OrderIdentifier) (requestingPeer : WrappedPeerId)
    (s : ExecutorState) : Except GossipError Unit × ExecutorState :=
  match s.peerClusters requestingPeer with
  | none => (.error (.missingState errPeerInfoNotFound), s)
  | some cluster =>
    if cluster ≠ env.localClusterId then (.ok (), s) else
      match (s.getOrderInfo orderId).bind NetworkOrder.validityProofWitnesses with
      | some witness => (.ok (), s.send (.validityWitness requestingPeer orderId witness))
      | none => (.ok (), s)

/-- `handle_validity_witness_response`. -/
def handleValidityWitnessResponse (orderId : OrderIdentifier)
    (witness : OrderValidityWitnessBundle) (s : ExecutorState) : ExecutorState :=
  s.attachValidityProofWitness orderId witness

/-- `handle_order_book_management_job`: dispatch a job to its handler. -/
def handleOrderBookManagementJob :
    OrderBookManagementJob → ExecutorState → Except GossipError Unit × ExecutorState
  | .orderInfo orderId, s => handleOrderInfoRequest orderId s
  | .orderInfoResponse info, s => info.elim (.ok (), s) fun orderInfo =>
      handleOrderInfoResponse env orderInfo s
  | .orderReceived orderId nullifier cluster, s => handleNewOrder env orderId nullifier cluster s
  | .orderProofUpdated orderId cluster proofBundle, s =>
      handleNewValidityProof env orderId cluster proofBundle s
  | .orderWitness orderId requestingPeer, s =>
      handleValidityWitnessRequest env orderId requestingPeer s
  | .orderWitnessResponse orderId witness, s =>
      (.ok (), handleValidityWitnessResponse orderId witness s)

end Handlers

/-! ## What verification accepts -/

/-- The verdicts under which `verify_validity_proofs` accepts a bundle: the proofs are linked, the
nullifier is reported unused, the Merkle root query is answered (either way), and both proofs
verify. -/
structure BundleAccepted (env : ExecutorEnv) (b : OrderValidityProofBundle) : Prop where
  linked : env.verifyReblindCommitmentsLink b.reblindProof.commitment b.commitmentProof.commitment
  nullifierUnused :
    env.checkNullifierUnused b.reblindProof.statement.originalSharesNullifier = .ok true
  merkleRootAnswered :
    ∃ valid, env.checkMerkleRootValid b.reblindProof.statement.merkleRoot = .ok valid
  reblindVerified : env.verifyValidReblind b.reblindProof = .ok ()
  commitmentsVerified : env.verifyValidCommitments b.commitmentProof = .ok ()

theorem assertNullifierUnused_eq_ok {env : ExecutorEnv} {n : Nullifier} :
    assertNullifierUnused env n = .ok () ↔ env.checkNullifierUnused n = .ok true := by
  unfold assertNullifierUnused
  split <;> simp_all

/-- `verify_validity_proofs` succeeds exactly on the accepted bundles. -/
theorem verifyValidityProofs_eq_ok {env : ExecutorEnv} {b : OrderValidityProofBundle} :
    verifyValidityProofs env b = .ok () ↔ BundleAccepted env b := by
  constructor
  · intro h
    unfold verifyValidityProofs at h
    cases hl : env.verifyReblindCommitmentsLink b.reblindProof.commitment
      b.commitmentProof.commitment <;> simp only [hl] at h
    · cases h
    cases hn : assertNullifierUnused env b.reblindProof.statement.originalSharesNullifier <;>
      simp only [hn] at h
    · cases h
    cases hr : env.checkMerkleRootValid b.reblindProof.statement.merkleRoot <;> simp only [hr] at h
    · cases h
    cases hv : env.verifyValidReblind b.reblindProof <;> simp only [hv] at h
    · cases h
    cases hc : env.verifyValidCommitments b.commitmentProof <;> simp only [hc] at h
    · cases h
    exact ⟨hl, assertNullifierUnused_eq_ok.mp hn, ⟨_, hr⟩, hv, hc⟩
  · rintro ⟨h₁, h₂, ⟨_, h₃⟩, h₄, h₅⟩
    simp only [verifyValidityProofs, h₁, assertNullifierUnused_eq_ok.mpr h₂, h₃, h₄, h₅]
    rfl

/-- A bundle from another cluster passes only if it is accepted. -/
theorem bundleAccepted_of_verifyUnlessLocal {env : ExecutorEnv} {cluster : ClusterId}
    {b : OrderValidityProofBundle} (hc : cluster ≠ env.localClusterId)
    (h : verifyUnlessLocal env (cluster == env.localClusterId) b = .ok ()) :
    BundleAccepted env b := by
  rw [verifyUnlessLocal, beq_false_of_ne hc] at h
  exact verifyValidityProofs_eq_ok.mp h

/-! ## The applicator's writes, seen from the order records -/

/-- `new_order` either aborts or writes the order under its id. -/
theorem newOrder_orders (o : NetworkOrder) (s : AppState) :
    (newOrder o s).2.store.orders = s.store.orders ∨
      (newOrder o s).2.store.orders = Function.update s.store.orders o.id (some o) := by
  rcases (OrderBookCall.newOrder o).store_apply s with h | h
  · exact .inl (congrArg Tables.orders h)
  · refine .inr ?_
    have h : (s.store.putPriority o.id _).addOrder o = (newOrder o s).2.store := Option.some.inj h
    rw [← h, Tables.addOrder_orders, Tables.putPriority_orders]

/-- With no storage faults, `new_order` writes the order under its id. -/
theorem newOrder_orders_of_noFaults {s : AppState} (hs : s.NoFaults) (o : NetworkOrder) :
    (newOrder o s).2.store.orders = Function.update s.store.orders o.id (some o) := by
  obtain ⟨-, h⟩ := inWriteTx_of_noFaults
    ((writeOrderPriorityWithTx_implements o).seq (addOrderWithTx_implements o)) hs rfl
  rw [newOrder, store_bind_publish, h, Tables.addOrder_orders, Tables.putPriority_orders]

/-- `add_order_validity_proof` either aborts or writes the stored order back verified with the
proof. -/
theorem addOrderValidityProof_orders (id : OrderIdentifier) (proof : OrderValidityProofBundle)
    (s : AppState) :
    (addOrderValidityProof id proof s).2.store.orders = s.store.orders ∨
      ∃ info, s.store.orders id = some info ∧ (addOrderValidityProof id proof s).2.store.orders =
        Function.update s.store.orders info.id
          (some (Tables.NetworkOrder.withProof info proof)) := by
  rcases (OrderBookCall.addOrderValidityProof id proof).store_apply s with h | h
  · exact .inl (congrArg Tables.orders h)
  · obtain ⟨info, hinfo, h⟩ := Option.map_eq_some'.mp h
    refine .inr ⟨info, hinfo, ?_⟩
    rw [← Tables.attachValidityProof_orders s.store id]
    exact congrArg Tables.orders h.symm

/-! ## Validity proofs are attached only after verification -/

/-- The validity proofs stored with an order. -/
def proofsAt (t : Tables) (id : OrderIdentifier) : Option OrderValidityProofBundle :=
  (t.orders id).bind NetworkOrder.validityProofs

/-- Storing an order without proofs attaches nothing under its id. -/
theorem proofsAt_addOrder (s : ExecutorState) (o : NetworkOrder) (ho : o.validityProofs = none)
    {b : OrderValidityProofBundle} (hb : proofsAt (s.addOrder o).globalState.store o.id = some b) :
    proofsAt s.globalState.store o.id = some b := by
  rcases newOrder_orders o s.globalState with h | h <;>
    simp only [proofsAt, ExecutorState.addOrder, h, Function.update_same, Option.some_bind, ho]
      at hb ⊢
  · exact hb
  · cases hb

/-- Whenever `handle_new_validity_proof` or `handle_order_info_response` leaves an order of another
cluster holding a bundle it did not hold, the verifier and the chain client accepted that
bundle. -/
theorem validityProof_attached_accepted (env : ExecutorEnv) (s : ExecutorState)
    (b : OrderValidityProofBundle) :
    (∀ id cluster, cluster ≠ env.localClusterId →
      proofsAt (handleNewValidityProof env id cluster b s).2.globalState.store id = some b →
      proofsAt s.globalState.store id ≠ some b → BundleAccepted env b) ∧
    (∀ info : NetworkOrder, info.cluster ≠ env.localClusterId → info.validityProofs = some b →
      proofsAt (handleOrderInfoResponse env info s).2.globalState.store info.id = some b →
      proofsAt s.globalState.store info.id ≠ some b → BundleAccepted env b) := by
  refine ⟨fun id cluster hc hafter hbefore => ?_, fun info hc hinfo hafter hbefore => ?_⟩
  · cases hv : verifyUnlessLocal env (cluster == env.localClusterId) b with
    | error e =>
      simp only [handleNewValidityProof, hv] at hafter
      exact absurd hafter hbefore
    | ok u => exact bundleAccepted_of_verifyUnlessLocal hc hv
  · cases hv : verifyUnlessLocal env (info.cluster == env.localClusterId) b with
    | error e =>
      simp only [handleOrderInfoResponse, hinfo, hv] at hafter
      exact absurd (proofsAt_addOrder s _ rfl hafter) hbefore
    | ok u => exact bundleAccepted_of_verifyUnlessLocal hc hv

/-! ## Proofs come with `Verified` -/

/-- Every stored order holding validity proofs is `Verified`. -/
def ProofsVerified (t : Tables) : Prop :=
  ∀ k o, t.orders k = some o → o.validityProofs.isSome → o.state = .verified

namespace ProofsVerified

variable {s : ExecutorState}

theorem of_update {t t' : Tables} (h : ProofsVerified t) {id : OrderIdentifier} {o : NetworkOrder}
    (ht : t'.orders = Function.update t.orders id (some o))
    (ho : o.validityProofs.isSome → o.state = .verified) : ProofsVerified t' := by
  intro k o' hk
  rw [ht] at hk
  by_cases hkid : k = id
  · subst hkid
    rw [Function.update_same, Option.some.injEq] at hk
    exact hk ▸ ho
  · rw [Function.update_noteq hkid] at hk
    exact h k o' hk

theorem of_orders_eq {t t' : Tables} (h : ProofsVerified t) (ht : t'.orders = t.orders) :
    ProofsVerified t' := fun k o hk => h k o (ht ▸ hk)

theorem addOrder (h : ProofsVerified s.globalState.store) {o : NetworkOrder}
    (ho : o.validityProofs = none) : ProofsVerified (s.addOrder o).globalState.store := by
  rcases newOrder_orders o s.globalState with he | he
  · exact h.of_orders_eq he
  · exact h.of_update he fun hp => by simp [ho] at hp

theorem addOrderValidityProofs (h : ProofsVerified s.globalState.store) (id : OrderIdentifier)
    (proof : OrderValidityProofBundle) :
    ProofsVerified (s.addOrderValidityProofs id proof).globalState.store := by
  rcases addOrderValidityProof_orders id proof s.globalState with he | ⟨info, -, he⟩
  · exact h.of_orders_eq he
  · exact h.of_update he fun _ => rfl

theorem attachValidityProofWitness (h : ProofsVerified s.globalState.store) (id : OrderIdentifier)
    (witness : OrderValidityWitnessBundle) :
    ProofsVerified (s.attachValidityProofWitness id witness).globalState.store := by
  intro k o' hk
  by_cases hkid : k = id
  · subst hkid
    have hk : (s.globalState.store.orders k).map
        (fun o => { o with validityProofWitnesses := some witness }) = some o' := by
      simpa [ExecutorState.attachValidityProofWitness, ExecutorState.getOrderInfo] using hk
    obtain ⟨o, ho, rfl⟩ := Option.map_eq_some'.mp hk
    exact h k o ho
  · exact h k o' (by simpa [ExecutorState.attachValidityProofWitness, hkid] using hk)

/-- Every order-book job keeps proofs with `Verified`. -/
theorem handleOrderBookManagementJob (env : ExecutorEnv) (h : ProofsVerified s.globalState.store)
    (job : OrderBookManagementJob) :
    ProofsVerified (GossipServer.handleOrderBookManagementJob env job s).2.globalState.store := by
  cases job with
  | orderInfo id => exact h
  | orderInfoResponse info =>
    cases info with
    | none => exact h
    | some info =>
      simp only [GossipServer.handleOrderBookManagementJob, Option.elim, handleOrderInfoResponse]
      split
      · exact h.addOrder rfl
      · split
        · exact h.addOrder rfl
        · split <;> exact (h.addOrder rfl).addOrderValidityProofs _ _
  | orderReceived id n cluster =>
    simp only [GossipServer.handleOrderBookManagementJob, handleNewOrder]
    split
    · exact h
    · exact h
    · exact h.addOrder rfl
  | orderProofUpdated id cluster proof =>
    simp only [GossipServer.handleOrderBookManagementJob, handleNewValidityProof]
    split
    · exact h
    · have h₁ : ProofsVerified (if s.containsOrder id then s else s.addOrder (NetworkOrder.new id
          proof.reblindProof.statement.originalSharesNullifier cluster
          (cluster == env.localClusterId))).globalState.store := by
        split
        · exact h
        · exact h.addOrder rfl
      split <;> exact h₁.addOrderValidityProofs _ _
  | orderWitness id peer =>
    simp only [GossipServer.handleOrderBookManagementJob, handleValidityWitnessRequest]
    split
    · exact h
    · split
      · exact h
      · split <;> exact h
  | orderWitnessResponse id witness => exact h.attachValidityProofWitness id witness

end ProofsVerified

/-- Handle jobs in turn; a job that fails leaves what it did before failing. -/
def runJobs (env : ExecutorEnv) : List OrderBookManagementJob → ExecutorState → ExecutorState
  | [], s => s
  | job :: jobs, s => runJobs env jobs (handleOrderBookManagementJob env job s).2

/-- Along every run of order-book jobs, every stored order holding validity proofs is `Verified`,
whatever the chain client, the verifier and the storage faults do. -/
theorem proofsVerified_runJobs (env : ExecutorEnv) :
    ∀ (jobs : List OrderBookManagementJob) {s : ExecutorState},
      ProofsVerified s.globalState.store → ProofsVerified (runJobs env jobs s).globalState.store
  | [], _, h => h
  | _ :: jobs, _, h => proofsVerified_runJobs env jobs (h.handleOrderBookManagementJob env _)

/-- An environment in which the chain client and the verifier accept everything except the Merkle
root, which is reported outside the contract's history. -/
def staleRootEnv : ExecutorEnv :=
  ⟨⟨"local"⟩, ⟨0⟩, fun _ => .ok true, fun _ => .ok false, fun _ _ => true, fun _ => .ok (),
    fun _ => .ok ()⟩

/-- A validity proof bundle for nullifier `7` against Merkle root `3`. -/
def nullifierSevenBundle : OrderValidityProofBundle := ⟨⟨⟨7, 3⟩, 0, 0⟩, ⟨0, 0, 0⟩⟩

/-- The executor over the empty order book. -/
def ExecutorState.empty : ExecutorState := ⟨AppState.empty, fun _ => none, []⟩

/-- From the empty book, a new order of another cluster and a proof reported on a stale root keep
every order holding proofs `Verified`. -/
theorem proofsVerified_runJobs_empty :
    ProofsVerified ExecutorState.empty.globalState.store ∧
    ProofsVerified (runJobs staleRootEnv [.orderReceived 1 7 ⟨"remote"⟩,
      .orderProofUpdated 1 ⟨"remote"⟩ nullifierSevenBundle]
      ExecutorState.empty).globalState.store :=
  have h : ProofsVerified ExecutorState.empty.globalState.store := fun _ _ h => nomatch h
  ⟨h, proofsVerified_runJobs staleRootEnv _ h⟩

/-! ## Re-gossip of a known order -/

/-- With no storage faults, `handle_new_order` for a nullifier the chain reports unused stores a
fresh `Received` record over whatever was stored under the id. -/
theorem handleNewOrder_orders (env : ExecutorEnv) {s : ExecutorState} (hs : s.globalState.NoFaults)
    (id : OrderIdentifier) {n : Nullifier} (cluster : ClusterId)
    (hn : env.checkNullifierUnused n = .ok true) :
    (handleNewOrder env id n cluster s).2.globalState.store.orders id =
      some (NetworkOrder.new id n cluster (cluster == env.localClusterId)) := by
  simp only [handleNewOrder, hn, ExecutorState.addOrder, newOrder_orders_of_noFaults hs]
  exact Function.update_same _ _ _

/-- An environment in which the chain client and the verifier accept everything. -/
def acceptingEnv : ExecutorEnv :=
  ⟨⟨"local"⟩, ⟨0⟩, fun _ => .ok true, fun _ => .ok true, fun _ _ => true, fun _ => .ok (),
    fun _ => .ok ()⟩

/-- Order `1` of a remote cluster under nullifier `7`, as `handle_new_order` stores it. -/
def remoteOrder : NetworkOrder := NetworkOrder.new 1 7 ⟨"remote"⟩ false

/-- The order book after order `1` is added and its validity proofs are attached. -/
def verifiedState : ExecutorState :=
  ⟨runCalls [.newOrder remoteOrder, .addOrderValidityProof 1 nullifierSevenBundle] AppState.empty,
    fun _ => none, []⟩

/-- Gossiping `OrderReceived` again for a verified order moves it back to `Received` and drops its
validity proofs. -/
theorem orderReceived_unverifies :
    (verifiedState.globalState.store.orders 1).map (fun o => (o.state, o.validityProofs)) =
      some (.verified, some nullifierSevenBundle) ∧
    ((handleOrderBookManagementJob acceptingEnv (.orderReceived 1 7 ⟨"remote"⟩)
      verifiedState).2.globalState.store.orders 1).map (fun o => (o.state, o.validityProofs)) =
      some (.received, none) := by
  refine ⟨rfl, ?_⟩
  rw [handleOrderBookManagementJob, handleNewOrder_orders acceptingEnv (fun _ _ => rfl) 1 _ rfl]
  rfl

/-! ## Bundles attached without verification

Two gaps let a bundle that verification does not accept reach an order of another cluster.
`verify_validity_proofs` only logs a Merkle root outside the contract's history, as its TODO and
the TODO of `handle_new_validity_proof` say. And `handle_new_validity_proof` decides whether to
verify from the cluster the job names, not from the cluster of the stored order. -/

/-- An environment in which the chain client and the verifier reject everything. -/
def rejectingEnv : ExecutorEnv :=
  ⟨⟨"local"⟩, ⟨0⟩, fun _ => .ok false, fun _ => .ok false, fun _ _ => false,
    fun _ => .error "invalid", fun _ => .error "invalid"⟩

/-- The executor over a book holding order `1` of a remote cluster, without proofs. -/
def remoteOrderBook : ExecutorState :=
  ⟨runCalls [.newOrder remoteOrder] AppState.empty, fun _ => none, []⟩

/-- Bundles the verification does not accept are attached to an order of another cluster: one on a
Merkle root the chain reports outside its history, through a job naming the order's cluster; and
one failing every check, through a job naming the local cluster for a stored remote order. -/
theorem unverifiedBundle_attached :
    (staleRootEnv.checkMerkleRootValid nullifierSevenBundle.reblindProof.statement.merkleRoot =
        .ok false ∧
      (⟨"remote"⟩ : ClusterId) ≠ staleRootEnv.localClusterId ∧
      proofsAt ExecutorState.empty.globalState.store 1 = none ∧
      proofsAt (handleNewValidityProof staleRootEnv 1 ⟨"remote"⟩ nullifierSevenBundle
        ExecutorState.empty).2.globalState.store 1 = some nullifierSevenBundle) ∧
    (¬BundleAccepted rejectingEnv nullifierSevenBundle ∧
      (remoteOrderBook.getOrderInfo 1).map NetworkOrder.cluster = some ⟨"remote"⟩ ∧
      (⟨"remote"⟩ : ClusterId) ≠ rejectingEnv.localClusterId ∧
      proofsAt remoteOrderBook.globalState.store 1 = none ∧
      ((handleNewValidityProof rejectingEnv 1 rejectingEnv.localClusterId nullifierSevenBundle
        remoteOrderBook).2.getOrderInfo 1).map (fun o => (o.cluster, o.validityProofs)) =
        some (⟨"remote"⟩, some nullifierSevenBundle)) :=
  ⟨⟨rfl, by decide, rfl, rfl⟩, fun h => absurd h.linked (by decide), rfl, by decide, rfl, rfl⟩

/-! ## Invariants of the order book's writes

The order-book handlers write the order book in three ways only: `add_order` of an order without
proofs, `add_order_validity_proofs`, and the witness record of `attach_validity_proof_witness`. A
property of the tables that these writes keep holds after every job. -/

/-- A property of the order book kept by each write the order-book handlers make. -/
structure KeptByWrites (P : Tables → Prop) : Prop where
  /-- `add_order`, of an order without proofs. -/
  addOrder : ∀ (s : ExecutorState) (o : NetworkOrder), o.validityProofs = none →
    P s.globalState.store → P (s.addOrder o).globalState.store
  /-- `add_order_validity_proofs`. -/
  addOrderValidityProofs : ∀ (s : ExecutorState) (id : OrderIdentifier)
    (proof : OrderValidityProofBundle), P s.globalState.store →
    P (s.addOrderValidityProofs id proof).globalState.store
  /-- `attach_validity_proof_witness`. -/
  attachValidityProofWitness : ∀ (s : ExecutorState) (id : OrderIdentifier)
    (witness : OrderValidityWitnessBundle), P s.globalState.store →
    P (s.attachValidityProofWitness id witness).globalState.store

/-- Every order-book job keeps a property that the handlers' writes keep. -/
theorem KeptByWrites.handleOrderBookManagementJob {P : Tables → Prop} (hP : KeptByWrites P)
    (env : ExecutorEnv) {s : ExecutorState} (h : P s.globalState.store)
    (job : OrderBookManagementJob) :
    P (GossipServer.handleOrderBookManagementJob env job s).2.globalState.store := by
  cases job with
  | orderInfo id => exact h
  | orderInfoResponse info =>
    cases info with
    | none => exact h
    | some info =>
      simp only [GossipServer.handleOrderBookManagementJob, Option.elim, handleOrderInfoResponse]
      split
      · exact hP.addOrder _ _ rfl h
      · split
        · exact hP.addOrder _ _ rfl h
        · split <;> exact hP.addOrderValidityProofs _ _ _ (hP.addOrder _ _ rfl h)
  | orderReceived id n cluster =>
    simp only [GossipServer.handleOrderBookManagementJob, handleNewOrder]
    split
    · exact h
    · exact h
    · exact hP.addOrder _ _ rfl h
  | orderProofUpdated id cluster proof =>
    simp only [GossipServer.handleOrderBookManagementJob, handleNewValidityProof]
    split
    · exact h
    · have h₁ : P (if s.containsOrder id then s else s.addOrder (NetworkOrder.new id
          proof.reblindProof.statement.originalSharesNullifier cluster
          (cluster == env.localClusterId))).globalState.store := by
        split
        · exact h
        · exact hP.addOrder _ _ rfl h
      split <;> exact hP.addOrderValidityProofs _ _ _ h₁
  | orderWitness id peer =>
    simp only [GossipServer.handleOrderBookManagementJob, handleValidityWitnessRequest]
    split
    · exact h
    · split
      · exact h
      · split <;> exact h
  | orderWitnessResponse id witness => exact hP.attachValidityProofWitness _ id witness h

/-- The writes keep every order holding proofs `Verified`. -/
theorem ProofsVerified.keptByWrites : KeptByWrites ProofsVerified :=
  ⟨fun _ _ ho h => h.addOrder ho, fun _ id proof h => h.addOrderValidityProofs id proof,
    fun _ id witness h => h.attachValidityProofWitness id witness⟩

/-- The writes keep the nullifier index exact: two are applicator calls, and the witness record
keeps each order's id and nullifier. -/
theorem nullifierIndexed_keptByWrites : KeptByWrites NullifierIndexed := by
  refine ⟨fun _ o _ h => NullifierIndexed.runCalls [.newOrder o] h,
    fun _ id proof h => NullifierIndexed.runCalls [.addOrderValidityProof id proof] h,
    fun s id witness h => h.of_orders_map rfl fun k => ?_⟩
  by_cases hk : k = id
  · subst hk
    simp only [ExecutorState.attachValidityProofWitness, ExecutorState.getOrderInfo,
      Function.update_same, Option.map_map]
    rfl
  · simp [ExecutorState.attachValidityProofWitness, hk]

end Renegade.GossipServer
