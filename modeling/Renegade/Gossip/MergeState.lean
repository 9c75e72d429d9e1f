import Renegade.Gossip.PeerIndex
import Renegade.Gossip.WalletMerge

/-!
# Merging a heartbeat into the local state

`merge_state_from_message` merges an incoming heartbeat in three stages: the peer index first,
then the managed wallets' replicas, then the cluster metadata, which requests `ClusterAuth` from
every claimed member of the cluster that is not yet a local member. The wallet stage only adopts
replicas the peer index knows, and it reads the index after the first stage: so a replica whose
peer info arrives in the same heartbeat is adopted at once, unless the expiry cache still holds
that peer within its invisibility window. A peer id that does not parse ends the merge with its
error before any write, so such a heartbeat merges neither peers nor wallets nor cluster
members.
-/

namespace Renegade.Gossip

/-- Modelled from the spec: `ClusterMetadata`, by the part the merge reads: the cluster's members,
in the iteration order of their set. -/
structure ClusterMetadata where
  /-- The members of the cluster. -/
  knownMembers : List WrappedPeerId

/-- Modelled from the spec: `ClusterMetadata::has_member`. -/
def ClusterMetadata.hasMember (metadata : ClusterMetadata) (peer : WrappedPeerId) : Bool :=
  decide (peer ∈ metadata.knownMembers)

/-- `HeartbeatMessage`, by the parts `merge_state_from_message` reads. -/
structure HeartbeatMessage where
  /-- `known_peers`, keyed by the peer ids as text, in iteration order. -/
  knownPeers : List (String × PeerInfo)
  /-- `managed_wallets`: the sender's metadata of the wallets it manages. -/
  managedWallets : WalletIdentifier → Option WalletMetadata
  /-- `cluster_metadata`: the sender's view of its cluster. -/
  clusterMetadata : ClusterMetadata

/-- A `GossipRequest::ClusterAuth` request sent to a peer on the network channel. -/
structure ClusterAuthRequest where
  /-- The recipient. -/
  peerId : WrappedPeerId
  /-- The local cluster, whose membership the recipient is asked to prove. -/
  clusterId : ClusterId

/-- The parts of `RelayerState` that the merge reads and writes. -/
structure RelayerState where
  /-- The peer index, the peer expiry cache and the network channel. -/
  heartbeat : HeartbeatState
  /-- The wallets the local relayer manages. -/
  managedWallets : IndexMap WalletIdentifier WalletMetadata
  /-- The local cluster's metadata. -/
  clusterMetadata : ClusterMetadata
  /-- The local cluster. -/
  clusterId : ClusterId

/-- `merge_cluster_metadata`: a `ClusterAuth` request, for the local cluster, to each incoming
member that is not a local member, in the incoming order. -/
def mergeClusterMetadata (incomingClusterInfo : ClusterMetadata) (st : RelayerState) :
    List ClusterAuthRequest :=
  let peersToAdd := incomingClusterInfo.knownMembers.filter fun peer =>
    !st.clusterMetadata.hasMember peer
  peersToAdd.map fun peer => ⟨peer, st.clusterId⟩

/-- `merge_state_from_message`: the state after the merge, with the `ClusterAuth` requests sent,
or with the error of a peer id that does not parse, which ends the merge before any write;
`none` where `merge_wallets` panics. -/
def mergeStateFromMessage (message : HeartbeatMessage) (now : UInt64) (st : RelayerState) :
    Option (RelayerState × Except GossipError (List ClusterAuthRequest)) :=
  match mergePeerIndex message.knownPeers now st.heartbeat with
  | .error err => some (st, .error err)
  | .ok heartbeat => do
    let managedWallets ← mergeWallets message.managedWallets heartbeat.knownPeers st.managedWallets
    let st' := { st with heartbeat, managedWallets }
    pure (st', .ok (mergeClusterMetadata message.clusterMetadata st'))

/-! ## The parse phase -/

/-- When every incoming peer id parses, the parse phase succeeds, pairing each parsed id with the
info of its entry. -/
theorem parseKnownPeers_of_parses (s : HeartbeatState) : ∀ (incoming : List (String × PeerInfo)),
    (∀ key ∈ incoming.map Prod.fst, ∃ q, s.parsePeerId key = .ok q) →
    ∃ peers, parseKnownPeers s incoming = .ok peers ∧
      ∀ q info, (q, info) ∈ peers ↔ ∃ key, (key, info) ∈ incoming ∧ s.parsePeerId key = .ok q
  | [], _ => ⟨[], rfl, by simp⟩
  | (key, info) :: incoming, hparse => by
    obtain ⟨q, hq⟩ := hparse key (List.mem_cons_self _ _)
    obtain ⟨peers, hpeers, hmem⟩ := parseKnownPeers_of_parses s incoming fun k hk =>
      hparse k (List.mem_cons_of_mem _ hk)
    refine ⟨(q, info) :: peers, by simp [parseKnownPeers, hq, hpeers, Except.map], fun r i => ?_⟩
    rw [List.mem_cons, hmem]
    constructor
    · rintro (h | ⟨k, hk, hkr⟩)
      · obtain ⟨rfl, rfl⟩ := Prod.mk.inj h
        exact ⟨key, List.mem_cons_self _ _, hq⟩
      · exact ⟨k, List.mem_cons_of_mem _ hk, hkr⟩
    · rintro ⟨k, hk, hkr⟩
      rcases List.mem_cons.mp hk with h | h
      · obtain ⟨rfl, rfl⟩ := Prod.mk.inj h
        exact .inl (by rw [Except.ok.inj (hkr.symm.trans hq)])
      · exact .inr ⟨k, h, hkr⟩

/-- The expiry cache does not hold `p` back at `now`. -/
def Visible (p : WrappedPeerId) (now : UInt64) (s : HeartbeatState) : Prop :=
  ∀ t, s.peerExpiryCache.peek p = some t → ¬now - t ≤ expiryInvisibilityWindowMs / 1000

theorem isSome_insertPeer (s : HeartbeatState) (p : WrappedPeerId) (info : PeerInfo)
    (now : UInt64) : ((insertPeer s p info now).knownPeers p).isSome := by
  unfold insertPeer
  split
  · rename_i h
    simp [h]
  · simp

/-- `add_new_peer` of another peer leaves the cache entry of `p` as it is. -/
theorem peek_addNewPeer_ne {q p : WrappedPeerId} (hq : q ≠ p) (info : PeerInfo) (now : UInt64)
    (s : HeartbeatState) :
    (addNewPeer q info now s).2.peerExpiryCache.peek p = s.peerExpiryCache.peek p := by
  have hget : (s.peerExpiryCache.get q).2.peek p = s.peerExpiryCache.peek p :=
    LruCache.peek_get_ne hq
  rcases hc : s.peerExpiryCache.get q with ⟨_ | e, cache⟩ <;> rw [hc] at hget <;>
    simp only [addNewPeer, hc]
  · rw [peerExpiryCache_insertPeer]
    exact hget
  · split
    · exact hget
    · rw [peerExpiryCache_insertPeer]
      exact (LruCache.peek_popEntry_ne hq).trans hget

/-- `add_new_peer` indexes a peer that the cache does not hold back. -/
theorem isSome_addNewPeer {p : WrappedPeerId} {now : UInt64} {s : HeartbeatState}
    (hvisible : Visible p now s) (info : PeerInfo) :
    ((addNewPeer p info now s).2.knownPeers p).isSome := by
  rcases hc : s.peerExpiryCache.get p with ⟨_ | e, cache⟩ <;> simp only [addNewPeer, hc]
  · exact isSome_insertPeer _ _ _ _
  · have hpeek : s.peerExpiryCache.peek p = some e := congrArg Prod.fst hc
    rw [if_neg (hvisible e hpeek)]
    exact isSome_insertPeer _ _ _ _

/-- The write phase of the peer merge indexes each listed peer that the cache does not hold
back. -/
theorem isSome_addNewPeers {p : WrappedPeerId} {info : PeerInfo} {now : UInt64} :
    ∀ (peers : List (WrappedPeerId × PeerInfo)) (s : HeartbeatState), (p, info) ∈ peers →
      Visible p now s → ((addNewPeers now peers s).knownPeers p).isSome
  | [], _, hp, _ => absurd hp (List.not_mem_nil _)
  | (q, i) :: peers, s, hp, hvisible => by
    by_cases hq : q = p
    · subst hq
      exact (grows_addNewPeers now peers _).indexed q (isSome_addNewPeer hvisible i)
    · have hp' : (p, info) ∈ peers := by
        rcases List.mem_cons.mp hp with h | h
        · exact absurd (congrArg Prod.fst h).symm hq
        · exact h
      refine isSome_addNewPeers peers _ hp' fun t ht => hvisible t ?_
      rwa [peek_addNewPeer_ne hq] at ht

/-- `merge_peer_index` indexes every parsed peer that the cache does not hold back. -/
theorem isSome_mergeKnownPeers {p : WrappedPeerId} {info : PeerInfo}
    {peers : List (WrappedPeerId × PeerInfo)} (hp : (p, info) ∈ peers) {now : UInt64}
    {s : HeartbeatState} (hvisible : Visible p now s) :
    ((mergeKnownPeers peers now s).knownPeers p).isSome := by
  by_cases hknown : (s.knownPeers p).isSome
  · exact (grows_mergeKnownPeers peers now s).indexed p hknown
  · have hadd : (p, info) ∈ peers.filter fun peer => (s.knownPeers peer.1).isNone :=
      List.mem_filter.mpr ⟨hp, by simpa using hknown⟩
    unfold mergeKnownPeers
    dsimp only
    rw [if_neg (fun h => by simp [List.isEmpty_iff.mp h] at hadd)]
    exact isSome_addNewPeers _ s hadd hvisible

/-! ## What a merge indexes

Within one merge the expiry cache is only read (`get` re-puts a present key) and popped at the
peer being added, so a peer's cache entry is the same when its own turn comes as at the start. A
merge therefore indexes exactly the incoming peers the cache did not hold back at the start, and
keeps every indexed peer. -/

/-- `add_new_peer` of another peer leaves the index entry of `p` as it is. -/
theorem knownPeers_addNewPeer_ne {q p : WrappedPeerId} (hq : q ≠ p) (info : PeerInfo)
    (now : UInt64) (s : HeartbeatState) :
    (addNewPeer q info now s).2.knownPeers p = s.knownPeers p := by
  have hins : ∀ s' : HeartbeatState, (insertPeer s' q info now).knownPeers p = s'.knownPeers p :=
    fun s' => by
      unfold insertPeer
      split <;> simp [Function.update_noteq (Ne.symm hq)]
  rcases hc : s.peerExpiryCache.get q with ⟨_ | e, cache⟩ <;> simp only [addNewPeer, hc]
  · exact hins _
  · split
    · rfl
    · exact hins _

/-- `p` is not indexed, and the expiry cache holds it within its invisibility window at `now`. -/
def HeldBack (p : WrappedPeerId) (now : UInt64) (s : HeartbeatState) : Prop :=
  s.knownPeers p = none ∧
    ∃ t, s.peerExpiryCache.peek p = some t ∧ now - t ≤ expiryInvisibilityWindowMs / 1000

theorem HeldBack.addNewPeer {p : WrappedPeerId} {now : UInt64} {s : HeartbeatState}
    (h : HeldBack p now s) (q : WrappedPeerId) (info : PeerInfo) :
    HeldBack p now (addNewPeer q info now s).2 := by
  obtain ⟨hk, t, ht, hw⟩ := h
  by_cases hq : q = p
  · subst hq
    have hc : s.peerExpiryCache.get q = (some t, s.peerExpiryCache.put q t) := by
      simp [LruCache.get, ht]
    simp only [Gossip.addNewPeer, hc, if_pos hw]
    exact ⟨hk, t, (LruCache.Behind.put_self (by decide) _ q t).peek, hw⟩
  · exact ⟨(knownPeers_addNewPeer_ne hq info now s).trans hk, t,
      (peek_addNewPeer_ne hq info now s).trans ht, hw⟩

theorem HeldBack.addNewPeers {p : WrappedPeerId} {now : UInt64} :
    ∀ (peers : List (WrappedPeerId × PeerInfo)) {s : HeartbeatState}, HeldBack p now s →
      HeldBack p now (addNewPeers now peers s)
  | [], _, h => h
  | (q, i) :: peers, _, h => HeldBack.addNewPeers peers (h.addNewPeer q i)

/-- A heartbeat whose peer ids all parse and that carries the peer info of a replica it lists for
a managed wallet makes the local relayer adopt that replica in the same merge, unless the expiry
cache holds the replica within its invisibility window: `merge_state_from_message` succeeds, and
the wallet's replicas after it contain the replica. The peer index is merged before the wallets,
so the replica's peer info is known when the wallet stage filters the incoming replicas. -/
theorem mergeStateFromMessage_adopts_replica (message : HeartbeatMessage) (now : UInt64)
    (st : RelayerState) (walletId : WalletIdentifier) (walletInfo incoming : WalletMetadata)
    (replica : WrappedPeerId) (key : String) (info : PeerInfo)
    (hmanaged : st.managedWallets.get? walletId = some walletInfo)
    (hlisted : message.managedWallets walletId = some incoming)
    (hreplica : replica ∈ incoming.replicas)
    (hparse : ∀ key ∈ message.knownPeers.map Prod.fst, ∃ q, st.heartbeat.parsePeerId key = .ok q)
    (hintroduced : (key, info) ∈ message.knownPeers)
    (hkey : st.heartbeat.parsePeerId key = .ok replica)
    (hvisible : ∀ t, st.heartbeat.peerExpiryCache.peek replica = some t →
      ¬now - t ≤ expiryInvisibilityWindowMs / 1000) :
    ∃ st' requests walletInfo', mergeStateFromMessage message now st = some (st', .ok requests) ∧
      st'.managedWallets.get? walletId = some walletInfo' ∧ replica ∈ walletInfo'.replicas := by
  obtain ⟨peers, hpeers, hmem⟩ := parseKnownPeers_of_parses _ _ hparse
  have hmerge : mergePeerIndex message.knownPeers now st.heartbeat =
      .ok (mergeKnownPeers peers now st.heartbeat) := by
    simp [mergePeerIndex, hpeers, Except.map]
  have hindexed := isSome_mergeKnownPeers ((hmem replica info).mpr ⟨key, hintroduced, hkey⟩)
    hvisible
  have hadopted : replica ∈ mergedReplicas message.managedWallets
      (mergeKnownPeers peers now st.heartbeat).knownPeers walletId walletInfo.replicas := by
    rw [mergedReplicas, hlisted]
    exact Finset.mem_union_right _ (Finset.mem_filter.mpr ⟨hreplica, hindexed⟩)
  refine ⟨_, _, ⟨_⟩, by simp only [mergeStateFromMessage, hmerge, mergeWallets_eq]; rfl, ?_,
    hadopted⟩
  rw [mergedWallets, IndexMap.get?_mapEntries, hmanaged]
  rfl

/-- A heartbeat that introduces peer `2` at address `5` and lists it as the replica of wallet
`0`. -/
def replicaIntroducingMessage : HeartbeatMessage :=
  ⟨[("2", ⟨⟨2⟩, 5, 0⟩)], fun w => if w = 0 then some ⟨{⟨2⟩}⟩ else none, ⟨[]⟩⟩

/-- The relayer of `oneStalePeer`, managing wallet `0` with no replica. -/
def oneWalletRelayer : RelayerState :=
  ⟨oneStalePeer, ⟨[(0, ⟨∅⟩)], List.nodup_singleton 0⟩, ⟨[]⟩, ⟨"c"⟩⟩

/-- Peer `2`, introduced at time `3`, becomes a replica of wallet `0` in the same merge. -/
theorem mergeStateFromMessage_adopts_replica_two :
    oneWalletRelayer.managedWallets.get? 0 = some ⟨∅⟩ ∧
    replicaIntroducingMessage.managedWallets 0 = some ⟨{⟨2⟩}⟩ ∧
    (⟨2⟩ : WrappedPeerId) ∈ ({⟨2⟩} : Finset WrappedPeerId) ∧
    (∀ key ∈ replicaIntroducingMessage.knownPeers.map Prod.fst,
      ∃ q, oneWalletRelayer.heartbeat.parsePeerId key = .ok q) ∧
    ("2", (⟨⟨2⟩, 5, 0⟩ : PeerInfo)) ∈ replicaIntroducingMessage.knownPeers ∧
    oneWalletRelayer.heartbeat.parsePeerId "2" = .ok ⟨2⟩ ∧
    (∀ t, oneWalletRelayer.heartbeat.peerExpiryCache.peek ⟨2⟩ = some t →
      ¬(3 : UInt64) - t ≤ expiryInvisibilityWindowMs / 1000) ∧
    ∃ st' requests walletInfo',
      mergeStateFromMessage replicaIntroducingMessage 3 oneWalletRelayer =
        some (st', .ok requests) ∧
      st'.managedWallets.get? 0 = some walletInfo' ∧ (⟨2⟩ : WrappedPeerId) ∈ walletInfo'.replicas :=
  have hparse : ∀ key ∈ replicaIntroducingMessage.knownPeers.map Prod.fst,
      ∃ q, oneWalletRelayer.heartbeat.parsePeerId key = .ok q := fun key hkey => by
    simp only [replicaIntroducingMessage, List.map_cons, List.map_nil, List.mem_singleton] at hkey
    exact ⟨⟨2⟩, by rw [hkey]; rfl⟩
  have hvisible : ∀ t, oneWalletRelayer.heartbeat.peerExpiryCache.peek ⟨2⟩ = some t →
      ¬(3 : UInt64) - t ≤ expiryInvisibilityWindowMs / 1000 := fun _ h => nomatch h
  ⟨rfl, rfl, Finset.mem_singleton_self _, hparse, List.mem_singleton_self _, rfl, hvisible,
    mergeStateFromMessage_adopts_replica replicaIntroducingMessage 3 oneWalletRelayer 0 ⟨∅⟩
      ⟨{(⟨2⟩ : WrappedPeerId)}⟩ ⟨2⟩ "2" ⟨⟨2⟩, 5, 0⟩ rfl rfl (Finset.mem_singleton_self _) hparse
      (List.mem_singleton_self _) rfl hvisible⟩

/-- `ReplicasHandler::handle_typed`: the replicas of a managed wallet, and none for any other
wallet. The response lists the set in its `HashSet` iteration order, which the model leaves out. -/
def getReplicas (st : RelayerState) (walletId : WalletIdentifier) : Finset WrappedPeerId :=
  match st.managedWallets.get? walletId with
  | some walletInfo => walletInfo.replicas
  | none => ∅

/-- Modelled from the spec: the heartbeats merged in turn, each at the time it arrives; `none`
where a merge panics. -/
def mergeHeartbeats : List (HeartbeatMessage × UInt64) → RelayerState → Option RelayerState
  | [], st => some st
  | (message, now) :: heartbeats, st =>
    (mergeStateFromMessage message now st).bind fun merged => mergeHeartbeats heartbeats merged.1

theorem subset_mergedReplicas (peerWallets : WalletIdentifier → Option WalletMetadata)
    (knownPeers : WrappedPeerId → Option PeerInfo) (walletId : WalletIdentifier)
    (localReplicas : Finset WrappedPeerId) :
    localReplicas ⊆ mergedReplicas peerWallets knownPeers walletId localReplicas := by
  unfold mergedReplicas
  split
  · exact Finset.subset_union_left
  · exact subset_rfl

theorem mem_mergedReplicas {peerWallets : WalletIdentifier → Option WalletMetadata}
    {knownPeers : WrappedPeerId → Option PeerInfo} {walletId : WalletIdentifier}
    {localReplicas : Finset WrappedPeerId} {r : WrappedPeerId}
    (h : r ∈ mergedReplicas peerWallets knownPeers walletId localReplicas) :
    r ∈ localReplicas ∨
      ∃ incoming, peerWallets walletId = some incoming ∧ r ∈ incoming.replicas := by
  unfold mergedReplicas at h
  split at h
  · rename_i incoming hP
    rcases Finset.mem_union.mp h with h | h
    · exact .inl h
    · exact .inr ⟨incoming, hP, (Finset.mem_filter.mp h).1⟩
  · exact .inl h

/-- One merge never panics, keeps the managed wallets, and changes the endpoint's answer for a
wallet only by joining replicas the heartbeat lists for it; a merge that fails to parse a peer id
changes nothing. -/
theorem mergeStateFromMessage_replicas (message : HeartbeatMessage) (now : UInt64)
    (st : RelayerState) :
    ∃ st' requests, mergeStateFromMessage message now st = some (st', requests) ∧
      st'.managedWallets.keys = st.managedWallets.keys ∧
      ∀ walletId, getReplicas st walletId ⊆ getReplicas st' walletId ∧
        ∀ r ∈ getReplicas st' walletId, r ∈ getReplicas st walletId ∨
          ∃ incoming, message.managedWallets walletId = some incoming ∧ r ∈ incoming.replicas := by
  cases hmerge : mergePeerIndex message.knownPeers now st.heartbeat with
  | error err =>
    exact ⟨st, .error err, by simp [mergeStateFromMessage, hmerge], rfl,
      fun _ => ⟨subset_rfl, fun _ hr => .inl hr⟩⟩
  | ok heartbeat =>
    refine ⟨_, _, by simp only [mergeStateFromMessage, hmerge, mergeWallets_eq]; rfl,
      IndexMap.keys_mapEntries _ _, fun walletId => ?_⟩
    simp only [getReplicas, mergedWallets, IndexMap.get?_mapEntries]
    cases st.managedWallets.get? walletId with
    | none => exact ⟨subset_rfl, fun r hr => absurd hr (Finset.not_mem_empty r)⟩
    | some walletInfo => exact ⟨subset_mergedReplicas _ _ _ _, fun _ hr => mem_mergedReplicas hr⟩

/-- Over every sequence of heartbeats, merging never panics and never drops a managed wallet; the
replicas endpoint never loses a replica it reported, and reports only replicas it reported
before or that some heartbeat listed for the wallet. -/
theorem mergeHeartbeats_replicas :
    ∀ (heartbeats : List (HeartbeatMessage × UInt64)) (st : RelayerState),
      ∃ st', mergeHeartbeats heartbeats st = some st' ∧
        st'.managedWallets.keys = st.managedWallets.keys ∧
        ∀ walletId, getReplicas st walletId ⊆ getReplicas st' walletId ∧
          ∀ r ∈ getReplicas st' walletId, r ∈ getReplicas st walletId ∨
            ∃ heartbeat ∈ heartbeats, ∃ incoming,
              heartbeat.1.managedWallets walletId = some incoming ∧ r ∈ incoming.replicas
  | [], st => ⟨st, rfl, rfl, fun _ => ⟨subset_rfl, fun _ hr => .inl hr⟩⟩
  | (message, now) :: heartbeats, st => by
    obtain ⟨st₁, requests, hmerge, hkeys₁, hstep⟩ := mergeStateFromMessage_replicas message now st
    obtain ⟨st', hrun, hkeys, hrest⟩ := mergeHeartbeats_replicas heartbeats st₁
    refine ⟨st', by rw [mergeHeartbeats, hmerge, Option.some_bind, hrun], hkeys.trans hkeys₁,
      fun walletId => ⟨(hstep walletId).1.trans (hrest walletId).1, fun r hr => ?_⟩⟩
    rcases (hrest walletId).2 r hr with h | ⟨heartbeat, hmem, h⟩
    · rcases (hstep walletId).2 r h with h | h
      · exact .inl h
      · exact .inr ⟨(message, now), List.mem_cons_self _ _, h⟩
    · exact .inr ⟨heartbeat, List.mem_cons_of_mem _ hmem, h⟩

end Renegade.Gossip
