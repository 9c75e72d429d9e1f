import Renegade.GossipServer.OrderBook
import Renegade.Gossip.Heartbeat
import Renegade.Common.Wallet

/-!
# Cluster management jobs

`handle_cluster_management_job` dispatches the five cluster-management jobs of the gossip
executor. A join request for the local cluster indexes the joining peer and asks it to replicate
every locally managed wallet, and does so twice: `add_peer_to_cluster` already sends the
`Replicate` request, and `handle_cluster_join_job` sends it again after it returns. A replicate
request stores the wallets, announces the replication on the cluster's management topic and asks
the cluster for the validity proofs of their orders that the local order book lacks; a cluster
peer answers that request with the proofs it holds, and the answers are attached without
verification, since they come from the local cluster.

The relayer state's wallet index, peer index and replica sets are not in the sources: they are
modelled from the spec by what the handlers read and write. The order book is the applicator's,
as for the order-book jobs. Sending on the network channel fails only once the network manager
has stopped, which the model leaves out.
-/

namespace Renegade.GossipServer

/-- `ClusterJoinMessage`: the joining peer and its info. -/
structure ClusterJoinMessage where
  /-- The joining peer. -/
  peerId : WrappedPeerId
  /-- Its peer info. -/
  peerInfo : Gossip.PeerInfo

/-- `ValidityProofRequest`: the orders whose proofs the sender asks its cluster for. -/
structure ValidityProofRequest where
  /-- The orders. -/
  orderIds : List OrderIdentifier
  /-- The requesting peer. -/
  sender : WrappedPeerId

/-- `ClusterManagementJob`. -/
inductive ClusterManagementJob
  | clusterJoinRequest (clusterId : ClusterId) (req : ClusterJoinMessage)
  | replicateRequest (wallets : List (WalletIdentifier × Wallet))
  | addWalletReplica (walletId : WalletIdentifier) (peerId : WrappedPeerId)
  | shareValidityProofs (req : ValidityProofRequest)
  | updateValidityProof (orderId : OrderIdentifier) (proofBundle : OrderValidityProofBundle)

/-- The messages the cluster-management handlers send on the network channel. -/
inductive ClusterOutbound
  /-- A `GossipRequest::Replicate` request to a peer, with each wallet's id. -/
  | replicate (peerId : WrappedPeerId) (wallets : List (WalletIdentifier × Wallet))
  /-- `ClusterManagementMessage::Replicated` on a cluster's management topic. -/
  | replicated (clusterId : ClusterId) (wallets : List WalletIdentifier) (peerId : WrappedPeerId)
  /-- `ClusterManagementMessage::RequestOrderValidityProof` on a cluster's management topic. -/
  | requestOrderValidityProof (clusterId : ClusterId) (req : ValidityProofRequest)
  /-- A `GossipRequest::ValidityProof` request to a peer. -/
  | validityProof (peerId : WrappedPeerId) (orderId : OrderIdentifier)
      (proofBundle : OrderValidityProofBundle)

/-- What the cluster-management handlers read and change. -/
structure ClusterExecutorState where
  /-- The order book, as for the order-book jobs. -/
  executor : ExecutorState
  /-- The known-peer index. -/
  knownPeers : WrappedPeerId → Option Gossip.PeerInfo
  /-- The wallet index, each wallet with its id, in the order `get_all_wallets` returns. -/
  wallets : List (WalletIdentifier × Wallet)
  /-- The peers replicating each wallet. -/
  walletReplicas : WalletIdentifier → Finset WrappedPeerId
  /-- The messages sent on the network channel. -/
  outbound : List ClusterOutbound

namespace ClusterExecutorState

/-- Send a message on the network channel. -/
def send (s : ClusterExecutorState) (msg : ClusterOutbound) : ClusterExecutorState :=
  { s with outbound := s.outbound ++ [msg] }

/-- Modelled from the spec: `add_single_peer` indexes a peer with its info. -/
def addSinglePeer (s : ClusterExecutorState) (peerId : WrappedPeerId)
    (peerInfo : Gossip.PeerInfo) : ClusterExecutorState :=
  { s with knownPeers := Function.update s.knownPeers peerId (some peerInfo) }

/-- Modelled from the spec: `add_wallets` adds wallets to the index, each replacing a wallet of
the same id. -/
def addWallets (s : ClusterExecutorState) (wallets : List (WalletIdentifier × Wallet)) :
    ClusterExecutorState :=
  { s with wallets := s.wallets.filter (fun w => w.1 ∉ wallets.map Prod.fst) ++ wallets }

/-- Modelled from the spec: `add_replica` records a peer as replicating a wallet. -/
def addReplica (s : ClusterExecutorState) (walletId : WalletIdentifier) (peerId : WrappedPeerId) :
    ClusterExecutorState :=
  { s with walletReplicas :=
      Function.update s.walletReplicas walletId (insert peerId (s.walletReplicas walletId)) }

/-- Modelled from the spec: `get_validity_proofs` reads the proofs stored with an order. -/
def getValidityProofs (s : ClusterExecutorState) (orderId : OrderIdentifier) :
    Option OrderValidityProofBundle :=
  proofsAt s.executor.globalState.store orderId

/-- Modelled from the spec: `has_validity_proofs` holds when proofs are stored with an order. -/
def hasValidityProofs (s : ClusterExecutorState) (orderId : OrderIdentifier) : Bool :=
  (s.getValidityProofs orderId).isSome

end ClusterExecutorState

section Handlers

variable (env : ExecutorEnv)

open ClusterExecutorState

/-- `send_replicate_request`: ask a peer to replicate wallets, unless there are none. -/
def sendReplicateRequest (peer : WrappedPeerId) (wallets : List (WalletIdentifier × Wallet))
    (s : ClusterExecutorState) : ClusterExecutorState :=
  if wallets.isEmpty then s else s.send (.replicate peer wallets)

/-- `add_peer_to_cluster`: index a peer of the local cluster and ask it to replicate every managed
wallet. -/
def addPeerToCluster (peerId : WrappedPeerId) (peerInfo : Gossip.PeerInfo) (clusterId : ClusterId)
    (s : ClusterExecutorState) : ClusterExecutorState :=
  if clusterId ≠ env.localClusterId then s else
    let s := s.addSinglePeer peerId peerInfo
    sendReplicateRequest peerId s.wallets s

/-- `handle_cluster_join_job`: add a peer of the local cluster, then ask it to replicate every
managed wallet. -/
def handleClusterJoinJob (clusterId : ClusterId) (message : ClusterJoinMessage)
    (s : ClusterExecutorState) : ClusterExecutorState :=
  if clusterId ≠ env.localClusterId then s else
    let s := addPeerToCluster env message.peerId message.peerInfo clusterId s
    sendReplicateRequest message.peerId s.wallets s

/-- `handle_replicate_request`: store the wallets, announce their replication and ask the cluster
for the proofs of their orders that the order book lacks. -/
def handleReplicateRequest (wallets : List (WalletIdentifier × Wallet))
    (s : ClusterExecutorState) : ClusterExecutorState :=
  if wallets.isEmpty then s else
    let s := s.addWallets wallets
    let s := s.send (.replicated env.localClusterId (wallets.map Prod.fst) env.localPeerId)
    let ordersNeedingProofs := wallets.flatMap fun wallet =>
      wallet.2.orders.keys.filter fun orderId => !s.hasValidityProofs orderId
    s.send (.requestOrderValidityProof env.localClusterId ⟨ordersNeedingProofs, env.localPeerId⟩)

/-- `handle_add_replica_job`. -/
def handleAddReplicaJob (peerId : WrappedPeerId) (walletId : WalletIdentifier)
    (s : ClusterExecutorState) : ClusterExecutorState :=
  s.addReplica walletId peerId

/-- `handle_share_validity_proofs_job`: send the requester each requested proof the order book
holds, in the request's order. -/
def handleShareValidityProofsJob (req : ValidityProofRequest) (s : ClusterExecutorState) :
    ClusterExecutorState :=
  let outboundMessages := req.orderIds.filterMap fun orderId =>
    (s.getValidityProofs orderId).map (ClusterOutbound.validityProof req.sender orderId)
  { s with outbound := s.outbound ++ outboundMessages }

/-- `handle_updated_validity_proof`: attach a cluster peer's proof, without verifying it. -/
def handleUpdatedValidityProof (orderId : OrderIdentifier)
    (proofBundle : OrderValidityProofBundle) (s : ClusterExecutorState) : ClusterExecutorState :=
  { s with executor := s.executor.addOrderValidityProofs orderId proofBundle }

/-- `handle_cluster_management_job`. -/
def handleClusterManagementJob : ClusterManagementJob → ClusterExecutorState →
    ClusterExecutorState
  | .clusterJoinRequest clusterId req, s => handleClusterJoinJob env clusterId req s
  | .replicateRequest wallets, s => handleReplicateRequest env wallets s
  | .addWalletReplica walletId peerId, s => handleAddReplicaJob peerId walletId s
  | .shareValidityProofs req, s => handleShareValidityProofsJob req s
  | .updateValidityProof orderId proofBundle, s => handleUpdatedValidityProof orderId proofBundle s

end Handlers

/-- Modelled from the spec: a peer runs `UpdateValidityProof` for each `ValidityProof` request
sent to it, in order; the other messages are not for it. -/
def deliverValidityProofs (env : ExecutorEnv) :
    List ClusterOutbound → ClusterExecutorState → ClusterExecutorState
  | [], s => s
  | .validityProof _ orderId proofBundle :: msgs, s =>
    deliverValidityProofs env msgs
      (handleClusterManagementJob env (.updateValidityProof orderId proofBundle) s)
  | _ :: msgs, s => deliverValidityProofs env msgs s

/-! ## Attaching a cluster peer's proofs

A proof sent by a cluster peer lands whenever the order is stored: with no storage faults the
write transaction of `add_order_validity_proof` commits, and a missing order aborts it. -/

section Attach

open StateV2

/-- What a proof needs to land: no storage faults, and every order stored under its own id. -/
structure Attachable (s : AppState) : Prop where
  /-- No storage operation fails. -/
  noFaults : s.NoFaults
  /-- Every order is stored under its own id. -/
  keyed : ∀ id o, s.store.orders id = some o → o.id = id

theorem addOrderValidityProof_keepsFaults (id : OrderIdentifier)
    (proof : OrderValidityProofBundle) : KeepsFaults (addOrderValidityProof id proof) :=
  (KeepsFaults.inWriteTx ((attachValidityProofWithTx_implements id proof).seq
    (readOrderInfoUnchecked_implements id))).bind fun _ =>
      KeepsFaults.of_frame fun _ => ⟨rfl, rfl⟩

/-- On an attachable state, `add_order_validity_proof` writes the stored order back verified with
the proof, and leaves the orders alone when there is none. -/
theorem Attachable.orders_addOrderValidityProof {s : AppState} (h : Attachable s)
    (id : OrderIdentifier) (proof : OrderValidityProofBundle) :
    (addOrderValidityProof id proof s).2.store.orders = (s.store.orders id).elim s.store.orders
      fun info =>
        Function.update s.store.orders id (some (Tables.NetworkOrder.withProof info proof)) := by
  cases hinfo : s.store.orders id with
  | none =>
    rcases addOrderValidityProof_orders id proof s with he | ⟨info, hinfo', -⟩
    · exact he
    · exact absurd (hinfo.symm.trans hinfo') nofun
  | some info =>
    obtain rfl := h.keyed id info hinfo
    have hb := (attachValidityProofWithTx_implements info.id proof).seq
      (readOrderInfoUnchecked_implements info.id)
    obtain ⟨-, he⟩ := inWriteTx_of_noFaults hb h.noFaults
      (show _ = some (Tables.NetworkOrder.withProof info proof,
        s.store.attachValidityProof info.id info proof) by simp [hinfo])
    rw [addOrderValidityProof, store_bind_publish, he, Tables.attachValidityProof_orders]
    rfl

theorem Attachable.addOrderValidityProof {s : AppState} (h : Attachable s) (id : OrderIdentifier)
    (proof : OrderValidityProofBundle) :
    Attachable (StateV2.addOrderValidityProof id proof s).2 := by
  refine ⟨(addOrderValidityProof_keepsFaults id proof).noFaults h.noFaults, fun k o hk => ?_⟩
  rw [h.orders_addOrderValidityProof] at hk
  cases hinfo : s.store.orders id with
  | none => exact h.keyed k o (by simpa [hinfo] using hk)
  | some info =>
    by_cases hkid : k = id
    · subst hkid
      simp only [hinfo, Option.elim, Function.update_same, Option.some.injEq] at hk
      exact hk ▸ h.keyed k info hinfo
    · simp only [hinfo, Option.elim, Function.update_noteq hkid] at hk
      exact h.keyed k o hk

/-- A validity-proof job naming the local cluster attaches its bundle to the order stored under
its id, whatever the cluster of that order and whatever the verifier and the chain client would
answer: `handle_new_validity_proof` decides whether to verify from the cluster the job names. -/
theorem handleNewValidityProof_local_attaches (env : ExecutorEnv) {s : ExecutorState}
    (h : Attachable s.globalState) (id : OrderIdentifier) (info : NetworkOrder)
    (hinfo : s.getOrderInfo id = some info) (b : OrderValidityProofBundle) :
    (handleNewValidityProof env id env.localClusterId b s).1 = .ok () ∧
      (handleNewValidityProof env id env.localClusterId b s).2.getOrderInfo id =
        some (Tables.NetworkOrder.withProof info b) := by
  have hc : s.containsOrder id = true := by simp [ExecutorState.containsOrder, hinfo]
  refine ⟨by simp [handleNewValidityProof, verifyUnlessLocal], ?_⟩
  have hstored : s.globalState.store.orders id = some info := hinfo
  simp [handleNewValidityProof, verifyUnlessLocal, hc, ExecutorState.requestOrderWitness,
    ExecutorState.send, ExecutorState.getOrderInfo, ExecutorState.addOrderValidityProofs,
    h.orders_addOrderValidityProof, hstored]

/-- A job naming the local cluster attaches a bundle failing every check to the stored order `1`
of a remote cluster. -/
theorem handleNewValidityProof_local_attaches_remote :
    Attachable remoteOrderBook.globalState ∧ remoteOrderBook.getOrderInfo 1 = some remoteOrder ∧
    (handleNewValidityProof rejectingEnv 1 rejectingEnv.localClusterId nullifierSevenBundle
        remoteOrderBook).1 = .ok () ∧
      (handleNewValidityProof rejectingEnv 1 rejectingEnv.localClusterId nullifierSevenBundle
        remoteOrderBook).2.getOrderInfo 1 =
        some (Tables.NetworkOrder.withProof remoteOrder nullifierSevenBundle) :=
  have hempty : NullifierIndexed AppState.empty.store := .of_empty (fun _ => rfl) (fun _ => rfl)
  have h : Attachable remoteOrderBook.globalState :=
    ⟨fun _ _ => rfl, (NullifierIndexed.runCalls [.newOrder remoteOrder] hempty).keyed⟩
  ⟨h, rfl, handleNewValidityProof_local_attaches rejectingEnv h 1 remoteOrder rfl _⟩

end Attach

section Deliver

open StateV2 ClusterExecutorState

variable (env : ExecutorEnv)

theorem Attachable.handleUpdatedValidityProof {s : ClusterExecutorState}
    (h : Attachable s.executor.globalState) (id : OrderIdentifier)
    (proof : OrderValidityProofBundle) :
    Attachable (handleUpdatedValidityProof id proof s).executor.globalState :=
  h.addOrderValidityProof id proof

/-- An attached proof rewrites the stored order under its id, and nothing else. -/
theorem getOrderInfo_handleUpdatedValidityProof {s : ClusterExecutorState}
    (h : Attachable s.executor.globalState) (id k : OrderIdentifier)
    (proof : OrderValidityProofBundle) :
    (handleUpdatedValidityProof id proof s).executor.getOrderInfo k =
      if k = id then (s.executor.getOrderInfo k).map (Tables.NetworkOrder.withProof · proof)
      else s.executor.getOrderInfo k := by
  simp only [handleUpdatedValidityProof, ExecutorState.getOrderInfo,
    ExecutorState.addOrderValidityProofs, h.orders_addOrderValidityProof]
  by_cases hk : k = id
  · subst hk
    cases hinfo : s.executor.globalState.store.orders k <;> simp [hinfo]
  · cases s.executor.globalState.store.orders id <;> simp [hk, Function.update_noteq hk]

theorem isSome_getOrderInfo_handleUpdatedValidityProof {s : ClusterExecutorState}
    (h : Attachable s.executor.globalState) (id k : OrderIdentifier)
    (proof : OrderValidityProofBundle) :
    ((handleUpdatedValidityProof id proof s).executor.getOrderInfo k).isSome =
      (s.executor.getOrderInfo k).isSome := by
  rw [getOrderInfo_handleUpdatedValidityProof h]
  split <;> simp

/-- One attached proof replaces the proofs of a stored order and of nothing else. -/
theorem getValidityProofs_handleUpdatedValidityProof {s : ClusterExecutorState}
    (h : Attachable s.executor.globalState) (id k : OrderIdentifier)
    (proof : OrderValidityProofBundle) :
    (handleUpdatedValidityProof id proof s).getValidityProofs k =
      ((if k = id ∧ (s.executor.getOrderInfo k).isSome then some proof else none) <|>
        s.getValidityProofs k) := by
  have hproofs : ∀ t : ClusterExecutorState,
      t.getValidityProofs k = (t.executor.getOrderInfo k).bind NetworkOrder.validityProofs :=
    fun _ => rfl
  rw [hproofs, hproofs, getOrderInfo_handleUpdatedValidityProof h]
  by_cases hk : k = id <;> cases s.executor.getOrderInfo k <;>
    simp [hk, Tables.NetworkOrder.withProof]

/-- Delivering the answers for a list of orders, each answered by the proof `proofs` gives it when
there is one, attaches exactly those proofs to the stored orders among them. -/
theorem getValidityProofs_deliverValidityProofs (peer : WrappedPeerId)
    (proofs : OrderIdentifier → Option OrderValidityProofBundle) :
    ∀ (ids : List OrderIdentifier) {s : ClusterExecutorState},
      Attachable s.executor.globalState → ∀ k,
      (deliverValidityProofs env
        (ids.filterMap fun id => (proofs id).map (.validityProof peer id)) s).getValidityProofs k =
      ((if k ∈ ids ∧ (s.executor.getOrderInfo k).isSome then proofs k else none) <|>
        s.getValidityProofs k)
  | [], s, _, k => by simp [deliverValidityProofs]
  | id :: ids, s, h, k => by
    cases hp : proofs id with
    | none =>
      simp only [List.filterMap_cons, hp, Option.map_none']
      rw [getValidityProofs_deliverValidityProofs peer proofs ids h k]
      by_cases hk : k = id
      · subst hk
        simp [hp]
      · simp [hk]
    | some proof =>
      simp only [List.filterMap_cons, hp, Option.map_some', deliverValidityProofs,
        handleClusterManagementJob]
      rw [getValidityProofs_deliverValidityProofs peer proofs ids (h.handleUpdatedValidityProof id
        proof) k, isSome_getOrderInfo_handleUpdatedValidityProof h,
        getValidityProofs_handleUpdatedValidityProof h]
      by_cases hk : k = id
      · subst hk
        by_cases hs : (s.executor.getOrderInfo k).isSome <;> by_cases hi : k ∈ ids <;>
          simp [hs, hp, hi]
      · by_cases hs : k ∈ ids ∧ (s.executor.getOrderInfo k).isSome <;> simp [hk, hs]

end Deliver

/-! ## A round of proof sharing

A relayer asked to replicate wallets asks its cluster for the proofs of their orders that it
lacks, a cluster peer answers with the proofs it holds, and the relayer attaches the answers
without verifying them. -/

/-- The request `handle_replicate_request` broadcasts: the replicated orders lacking proofs. -/
theorem handleReplicateRequest_outbound (env : ExecutorEnv)
    (wallets : List (WalletIdentifier × Wallet)) (s : ClusterExecutorState)
    (hwallets : wallets ≠ []) :
    let s' := handleClusterManagementJob env (.replicateRequest wallets) s
    s'.executor = s.executor ∧ s'.outbound = s.outbound ++
      [.replicated env.localClusterId (wallets.map Prod.fst) env.localPeerId,
        .requestOrderValidityProof env.localClusterId
          ⟨wallets.flatMap fun wallet => wallet.2.orders.keys.filter fun orderId =>
            !s.hasValidityProofs orderId, env.localPeerId⟩] := by
  have hne : wallets.isEmpty = false := List.isEmpty_eq_false.mpr hwallets
  simp [handleClusterManagementJob, handleReplicateRequest, hne, ClusterExecutorState.send,
    ClusterExecutorState.addWallets, ClusterExecutorState.hasValidityProofs,
    ClusterExecutorState.getValidityProofs]

/-- A relayer asked to replicate wallets, with no storage faults and every order stored under its
own id, broadcasts a proof request; when a cluster peer answers it and the answers are delivered,
the relayer keeps every proof it held, and gains the peer's proof for exactly the replicated orders
it stores without one. It verifies none of them. -/
theorem shareValidityProofs_round (envA envB : ExecutorEnv)
    (wallets : List (WalletIdentifier × Wallet)) (sA sB : ClusterExecutorState)
    (hwallets : wallets ≠ []) (hnoFaults : sA.executor.globalState.NoFaults)
    (hkeyed : ∀ id o, sA.executor.globalState.store.orders id = some o → o.id = id) :
    let sA₁ := handleClusterManagementJob envA (.replicateRequest wallets) sA
    ∃ req, sA₁.outbound.getLast? = some (.requestOrderValidityProof envA.localClusterId req) ∧
      let sB₁ := handleClusterManagementJob envB (.shareValidityProofs req) sB
      let sA₂ := deliverValidityProofs envA (sB₁.outbound.drop sB.outbound.length) sA₁
      ∀ k, sA₂.getValidityProofs k = (sA.getValidityProofs k <|>
        if k ∈ wallets.flatMap (fun wallet => wallet.2.orders.keys) ∧
          (sA.executor.getOrderInfo k).isSome then sB.getValidityProofs k else none) := by
  intro sA₁
  obtain ⟨hexec, hout⟩ := handleReplicateRequest_outbound envA wallets sA hwallets
  refine ⟨⟨wallets.flatMap fun wallet => wallet.2.orders.keys.filter fun orderId =>
    !sA.hasValidityProofs orderId, envA.localPeerId⟩, by simp [sA₁, hout], fun k => ?_⟩
  have hh : Attachable sA₁.executor.globalState := hexec ▸ ⟨hnoFaults, hkeyed⟩
  simp only [handleClusterManagementJob, handleShareValidityProofsJob, List.drop_left]
  rw [getValidityProofs_deliverValidityProofs envA _ _ _ hh k]
  have hp : sA₁.getValidityProofs k = sA.getValidityProofs k := by
    rw [ClusterExecutorState.getValidityProofs, hexec]; rfl
  rw [hp, hexec]
  cases hk : sA.getValidityProofs k with
  | some proof => simp [hk, ClusterExecutorState.hasValidityProofs]
  | none =>
    have hmem : (k ∈ wallets.flatMap fun wallet => wallet.2.orders.keys.filter fun orderId =>
        !sA.hasValidityProofs orderId) ↔
        k ∈ wallets.flatMap fun wallet => wallet.2.orders.keys := by
      simp [ClusterExecutorState.hasValidityProofs, hk]
    simp only [hmem, Option.orElse_none, Option.none_orElse]

/-- A wallet holding order `1`. -/
def orderOneWallet : Wallet :=
  ⟨⟨[(1, default)], List.nodup_singleton _⟩, IndexMap.empty, [], ⟨⟨[0, 0], rfl⟩, 0⟩, 0⟩

/-- A relayer storing order `1` without proofs. -/
def unprovenRelayer : ClusterExecutorState := ⟨remoteOrderBook, fun _ => none, [], fun _ => ∅, []⟩

/-- A cluster peer holding the proofs of order `1`. -/
def provenPeer : ClusterExecutorState := ⟨verifiedState, fun _ => none, [], fun _ => ∅, []⟩

/-- Replicating a wallet with order `1` onto a relayer that stores it without proofs, next to a
peer that holds them. -/
theorem shareValidityProofs_round_orderOne :
    [((0 : WalletIdentifier), orderOneWallet)] ≠ [] ∧
    unprovenRelayer.executor.globalState.NoFaults ∧
    (∀ id o, unprovenRelayer.executor.globalState.store.orders id = some o → o.id = id) ∧
    let sA₁ := handleClusterManagementJob acceptingEnv (.replicateRequest [(0, orderOneWallet)])
      unprovenRelayer
    ∃ req, sA₁.outbound.getLast? = some (.requestOrderValidityProof ⟨"local"⟩ req) ∧
      let sB₁ := handleClusterManagementJob acceptingEnv (.shareValidityProofs req) provenPeer
      let sA₂ := deliverValidityProofs acceptingEnv
        (sB₁.outbound.drop provenPeer.outbound.length) sA₁
      ∀ k, sA₂.getValidityProofs k = (unprovenRelayer.getValidityProofs k <|>
        if k ∈ [((0 : WalletIdentifier), orderOneWallet)].flatMap
            (fun wallet => wallet.2.orders.keys) ∧
          (unprovenRelayer.executor.getOrderInfo k).isSome then provenPeer.getValidityProofs k
        else none) := by
  have hne : [((0 : WalletIdentifier), orderOneWallet)] ≠ [] := List.cons_ne_nil _ _
  have hnoFaults : unprovenRelayer.executor.globalState.NoFaults := fun _ _ => rfl
  have hempty : StateV2.NullifierIndexed StateV2.AppState.empty.store :=
    .of_empty (fun _ => rfl) (fun _ => rfl)
  have hkeyed := (StateV2.NullifierIndexed.runCalls [.newOrder remoteOrder] hempty).keyed
  exact ⟨hne, hnoFaults, hkeyed, shareValidityProofs_round acceptingEnv acceptingEnv _
    unprovenRelayer provenPeer hne hnoFaults hkeyed⟩

/-! ## Every interleaving of the gossip executor's jobs

The gossip executor takes the order-book jobs and the cluster-management jobs from one queue.
Among the cluster jobs only `UpdateValidityProof` touches the order book, through the same
`add_order_validity_proofs` write as the order-book jobs, so whatever those writes keep holds after
any interleaving of the two families: every order holding proofs is `Verified`, although a cluster
peer's proofs are attached unverified, and the nullifier index stays exact. -/

/-- Modelled from the spec: a job of the gossip executor's queue that reads or writes the order
book or the cluster. -/
inductive GossipServerJob
  | orderBookManagement (job : OrderBookManagementJob)
  | clusterManagement (job : ClusterManagementJob)

/-- Modelled from the spec: the gossip executor hands each job to its handler. -/
def handleGossipServerJob (env : ExecutorEnv) :
    GossipServerJob → ClusterExecutorState → ClusterExecutorState
  | .orderBookManagement job, s =>
    { s with executor := (handleOrderBookManagementJob env job s.executor).2 }
  | .clusterManagement job, s => handleClusterManagementJob env job s

/-- Modelled from the spec: the gossip executor handles its queue's jobs in turn. -/
def runGossipServerJobs (env : ExecutorEnv) :
    List GossipServerJob → ClusterExecutorState → ClusterExecutorState
  | [], s => s
  | job :: jobs, s => runGossipServerJobs env jobs (handleGossipServerJob env job s)

/-- A cluster job changes the order book only by attaching a peer's proofs. -/
theorem executor_handleClusterManagementJob (env : ExecutorEnv) (job : ClusterManagementJob)
    (s : ClusterExecutorState) :
    (handleClusterManagementJob env job s).executor = match job with
      | .updateValidityProof orderId proofBundle =>
        s.executor.addOrderValidityProofs orderId proofBundle
      | _ => s.executor := by
  cases job <;> simp [handleClusterManagementJob, handleClusterJoinJob, addPeerToCluster,
    sendReplicateRequest, handleReplicateRequest, handleAddReplicaJob,
    handleShareValidityProofsJob, handleUpdatedValidityProof, ClusterExecutorState.send,
    ClusterExecutorState.addSinglePeer, ClusterExecutorState.addWallets,
    ClusterExecutorState.addReplica, apply_ite ClusterExecutorState.executor]

/-- Every job of the gossip executor keeps a property that the order book's writes keep. -/
theorem KeptByWrites.handleGossipServerJob {P : StateV2.Tables → Prop} (hP : KeptByWrites P)
    (env : ExecutorEnv) {s : ClusterExecutorState} (h : P s.executor.globalState.store)
    (job : GossipServerJob) :
    P (GossipServer.handleGossipServerJob env job s).executor.globalState.store := by
  cases job with
  | orderBookManagement job => exact hP.handleOrderBookManagementJob env h job
  | clusterManagement job =>
    rw [GossipServer.handleGossipServerJob, executor_handleClusterManagementJob]
    cases job
    case updateValidityProof orderId proofBundle =>
      exact hP.addOrderValidityProofs _ orderId proofBundle h
    all_goals exact h

/-- Every run of the gossip executor's jobs keeps a property that the order book's writes keep. -/
theorem KeptByWrites.runGossipServerJobs {P : StateV2.Tables → Prop} (hP : KeptByWrites P)
    (env : ExecutorEnv) : ∀ (jobs : List GossipServerJob) (s : ClusterExecutorState),
      P s.executor.globalState.store → P (runGossipServerJobs env jobs s).executor.globalState.store
  | [], _, h => h
  | job :: jobs, _, h =>
    KeptByWrites.runGossipServerJobs hP env jobs _ (hP.handleGossipServerJob env h job)

/-- Over every interleaving of order-book and cluster-management jobs, an order holding proofs is
`Verified`, the attached proofs of cluster peers included. -/
theorem proofsVerified_runGossipServerJobs (env : ExecutorEnv) :
    ∀ (jobs : List GossipServerJob) (s : ClusterExecutorState),
      ProofsVerified s.executor.globalState.store →
      ProofsVerified (runGossipServerJobs env jobs s).executor.globalState.store :=
  ProofsVerified.keptByWrites.runGossipServerJobs env

/-- A relayer storing order `1` without proofs attaches a peer's proofs for it, then receives an
order and its proofs from the network. -/
theorem proofsVerified_runGossipServerJobs_unprovenRelayer :
    ProofsVerified unprovenRelayer.executor.globalState.store ∧
    ProofsVerified (runGossipServerJobs acceptingEnv
      [.clusterManagement (.updateValidityProof 1 nullifierSevenBundle),
        .orderBookManagement (.orderReceived 2 7 ⟨"remote"⟩)]
      unprovenRelayer).executor.globalState.store := by
  have hempty : ProofsVerified ExecutorState.empty.globalState.store := fun _ _ h => nomatch h
  have hrelayer : ProofsVerified unprovenRelayer.executor.globalState.store :=
    hempty.addOrder rfl
  exact ⟨hrelayer, proofsVerified_runGossipServerJobs acceptingEnv _ _ hrelayer⟩

/-- Over every interleaving of order-book and cluster-management jobs, the nullifier index stays
exact: every stored order is in the set of its own nullifier once and in no other set, the witness
records written outside any transaction included. -/
theorem nullifierIndexed_runGossipServerJobs (env : ExecutorEnv) :
    ∀ (jobs : List GossipServerJob) (s : ClusterExecutorState),
      StateV2.NullifierIndexed s.executor.globalState.store →
      StateV2.NullifierIndexed (runGossipServerJobs env jobs s).executor.globalState.store :=
  nullifierIndexed_keptByWrites.runGossipServerJobs env

/-- A relayer storing order `1` attaches a peer's proofs for it, records its witness and receives
a second order from the network. -/
theorem nullifierIndexed_runGossipServerJobs_unprovenRelayer :
    StateV2.NullifierIndexed unprovenRelayer.executor.globalState.store ∧
    StateV2.NullifierIndexed (runGossipServerJobs acceptingEnv
      [.clusterManagement (.updateValidityProof 1 nullifierSevenBundle),
        .orderBookManagement (.orderWitnessResponse 1 5),
        .orderBookManagement (.orderReceived 2 7 ⟨"remote"⟩)]
      unprovenRelayer).executor.globalState.store := by
  have hempty : StateV2.NullifierIndexed StateV2.AppState.empty.store :=
    .of_empty (fun _ => rfl) (fun _ => rfl)
  have hrelayer : StateV2.NullifierIndexed unprovenRelayer.executor.globalState.store :=
    StateV2.NullifierIndexed.runCalls [.newOrder remoteOrder] hempty
  exact ⟨hrelayer, nullifierIndexed_runGossipServerJobs acceptingEnv _ _ hrelayer⟩

end Renegade.GossipServer
