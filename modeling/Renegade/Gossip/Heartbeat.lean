import Renegade.Gossip.LruCache
import Renegade.Common.Types

/-!
# Heartbeats, peer expiry and the invisibility window

The heartbeat protocol of the gossip executor as a state machine over the known-peer index, the
peer expiry cache and the outbound network channel. `send_heartbeat` sends its heartbeat, then
expires a peer whose last heartbeat is `HEARTBEAT_FAILURE_MS` old: it leaves the index and enters
the expiry cache with the time of its expiry. `merge_peer_index` parses the incoming peer ids,
failing at the first that does not parse before it writes anything, then adds the unknown peers,
except those cached within `EXPIRY_INVISIBILITY_WINDOW_MS` of their expiry. Clock readings are
whole seconds, one per event. A step ends in an `Outcome`: the next state, or a panic of the
thread (the `unwrap` of `maybe_expire_peer` on an unindexed recipient) with the state the panic
found, the heartbeat already sent included.

The cache holds `EXPIRY_CACHE_SIZE` entries, so an expired peer is only invisible while fewer than
that many other peers have been put in front of it, by an expiry or by the `get` of a merge:
`Invisible` tracks the keys in front of it, and `expiredPeer_invisible` bounds them by the peers
the events promote. `expiredPeer_readded` is a run past that bound, within the window that the
comments of `add_new_peer` and `maybe_expire_peer` promise.
-/

namespace Renegade.Gossip

/-- `HEARTBEAT_FAILURE_MS`. -/
def heartbeatFailureMs : UInt64 := 7000

/-- `EXPIRY_INVISIBILITY_WINDOW_MS`. -/
def expiryInvisibilityWindowMs : UInt64 := 10000

/-- `EXPIRY_CACHE_SIZE`. -/
def expiryCacheSize : Nat := 100

/-- `PeerInfo`, by the fields the heartbeat protocol reads. -/
structure PeerInfo where
  /-- The peer's identifier. -/
  peerId : WrappedPeerId
  /-- The peer's multiaddr. -/
  addr : Nat
  /-- The time of the last successful heartbeat, in seconds. -/
  lastHeartbeat : UInt64
  deriving DecidableEq, Repr

/-- `GossipOutbound`, restricted to the messages of the heartbeat protocol. -/
inductive GossipOutbound
  /-- A `Heartbeat` request to a peer. -/
  | heartbeat (peerId : WrappedPeerId)
  /-- `NewAddr`: register a peer's address with the network manager. -/
  | newAddr (peerId : WrappedPeerId) (address : Nat)
  deriving DecidableEq, Repr

/-- `GossipError`, restricted to the variant the heartbeat protocol returns. -/
inductive GossipError
  /-- `Parse`: an incoming peer id does not parse. -/
  | parse (message : String)
  deriving DecidableEq, Repr

/-- What the heartbeat protocol reads and changes. -/
structure HeartbeatState where
  /-- The local peer, which sends no heartbeat to itself. -/
  localPeerId : WrappedPeerId
  /-- The known-peer index. -/
  knownPeers : WrappedPeerId → Option PeerInfo
  /-- The peer expiry cache: each expired peer with the time of its expiry. -/
  peerExpiryCache : LruCache WrappedPeerId UInt64 expiryCacheSize
  /-- The messages sent on the network channel. -/
  outbound : List GossipOutbound
  /-- `WrappedPeerId::from_str`, libp2p's parser of peer ids, which is not in the sources. -/
  parsePeerId : String → Except String WrappedPeerId

/-! ## The protocol -/

/-- Modelled from the spec: `RelayerState::remove_peers` drops the peers from the index. -/
def removePeers (peers : List WrappedPeerId) (knownPeers : WrappedPeerId → Option PeerInfo) :
    WrappedPeerId → Option PeerInfo :=
  fun q => if q ∈ peers then none else knownPeers q

/-- The vacant-entry branch of `add_new_peer`: index a peer missing from the index with a fresh
heartbeat and register its address. -/
def insertPeer (s : HeartbeatState) (newPeerId : WrappedPeerId) (newPeerInfo : PeerInfo)
    (now : UInt64) : HeartbeatState :=
  match s.knownPeers newPeerId with
  | some _ => s
  | none =>
    { s with knownPeers := (Function.update s.knownPeers newPeerId
                (some { newPeerInfo with lastHeartbeat := now })),
             outbound := s.outbound ++ [.newAddr newPeerId newPeerInfo.addr] }

/-- `add_new_peer`: refuse a peer cached within its invisibility window, otherwise drop it from
the cache and index it; returns whether the peer is indexed. -/
def addNewPeer (newPeerId : WrappedPeerId) (newPeerInfo : PeerInfo) (now : UInt64)
    (s : HeartbeatState) : Bool × HeartbeatState :=
  match s.peerExpiryCache.get newPeerId with
  | (some expiredAt, cache) =>
    if now - expiredAt ≤ expiryInvisibilityWindowMs / 1000 then
      (false, { s with peerExpiryCache := cache })
    else
      (true, insertPeer { s with peerExpiryCache := (cache.popEntry newPeerId).2 } newPeerId
        newPeerInfo now)
  | (none, cache) =>
    (true, insertPeer { s with peerExpiryCache := cache } newPeerId newPeerInfo now)

/-- The write phase of `merge_peer_index`: `add_new_peer` for each peer in turn. -/
def addNewPeers (now : UInt64) : List (WrappedPeerId × PeerInfo) → HeartbeatState → HeartbeatState
  | [], s => s
  | (peerId, info) :: peers, s => addNewPeers now peers (addNewPeer peerId info now s).2

/-- The read phase of `merge_peer_index`: parse the incoming peer ids in turn, failing with
`GossipError::Parse` at the first that does not parse. Each parsed id keeps the info of its own
entry, which is the entry `incoming_peer_info.get(&peer_id.to_string())` finds. -/
def parseKnownPeers (s : HeartbeatState) :
    List (String × PeerInfo) → Except GossipError (List (WrappedPeerId × PeerInfo))
  | [] => .ok []
  | (peerId, info) :: incoming =>
    match s.parsePeerId peerId with
    | .error err => .error (.parse err)
    | .ok parsedPeerId => (parseKnownPeers s incoming).map ((parsedPeerId, info) :: ·)

/-- `merge_peer_index` past its parse phase: add the parsed peers missing from the index. -/
def mergeKnownPeers (peers : List (WrappedPeerId × PeerInfo)) (now : UInt64)
    (s : HeartbeatState) : HeartbeatState :=
  let peersToAdd := peers.filter fun peer => (s.knownPeers peer.1).isNone
  if peersToAdd.isEmpty then s else addNewPeers now peersToAdd s

/-- `merge_peer_index`: parse the incoming peer ids, then add the peers missing from the index;
a peer id that does not parse ends the merge before any write. -/
def mergePeerIndex (incoming : List (String × PeerInfo)) (now : UInt64) (s : HeartbeatState) :
    Except GossipError HeartbeatState :=
  (parseKnownPeers s incoming).map fun peers => mergeKnownPeers peers now s

/-- `maybe_expire_peer`: expire a peer whose last heartbeat is `HEARTBEAT_FAILURE_MS` old; `none`
when the peer is not indexed, where the code's `unwrap` panics before any write. -/
def maybeExpirePeer (peerId : WrappedPeerId) (now : UInt64) (s : HeartbeatState) :
    Option HeartbeatState :=
  (s.knownPeers peerId).map fun peerInfo =>
    if now - peerInfo.lastHeartbeat < heartbeatFailureMs / 1000 then s
    else { s with knownPeers := removePeers [peerId] s.knownPeers,
                  peerExpiryCache := s.peerExpiryCache.put peerId now }

/-- How a step of the protocol ends: in the next state, or in a panic of the thread running it,
with the state the panic found. -/
inductive Outcome
  | next (s : HeartbeatState)
  | panicked (s : HeartbeatState)

/-- The state an outcome leaves, whether it panicked or not. -/
def Outcome.state : Outcome → HeartbeatState
  | .next s | .panicked s => s

/-- `send_heartbeat`: send a heartbeat to a peer other than the local one, then maybe expire it;
on an unindexed recipient the `unwrap` of `maybe_expire_peer` panics after the heartbeat is
sent. -/
def sendHeartbeat (recipientPeerId : WrappedPeerId) (now : UInt64) (s : HeartbeatState) :
    Outcome :=
  if recipientPeerId = s.localPeerId then .next s
  else
    let s := { s with outbound := s.outbound ++ [.heartbeat recipientPeerId] }
    match maybeExpirePeer recipientPeerId now s with
    | some s' => .next s'
    | none => .panicked s

/-- `record_heartbeat`: a successful heartbeat from an indexed peer. -/
def recordHeartbeat (peerId : WrappedPeerId) (now : UInt64) (s : HeartbeatState) : HeartbeatState :=
  { s with knownPeers := (Function.update s.knownPeers peerId
      ((s.knownPeers peerId).map fun info => { info with lastHeartbeat := now })) }

/-- The events of the heartbeat protocol, each with its clock reading. -/
inductive HeartbeatEvent
  | sendHeartbeat (recipient : WrappedPeerId) (now : UInt64)
  | recordHeartbeat (peer : WrappedPeerId) (now : UInt64)
  | mergePeerIndex (incoming : List (String × PeerInfo)) (now : UInt64)

namespace HeartbeatEvent

/-- The clock reading of an event. -/
def now : HeartbeatEvent → UInt64
  | sendHeartbeat _ now | recordHeartbeat _ now | mergePeerIndex _ now => now

/-- One event. A merge whose peer ids do not parse returns its error to the caller, which logs
it; the state is the one before the merge. -/
def step : HeartbeatEvent → HeartbeatState → Outcome
  | sendHeartbeat recipient now, s => Gossip.sendHeartbeat recipient now s
  | recordHeartbeat peer now, s => .next (Gossip.recordHeartbeat peer now s)
  | mergePeerIndex incoming now, s =>
    match Gossip.mergePeerIndex incoming now s with
    | .ok s' => .next s'
    | .error _ => .next s

end HeartbeatEvent

/-- Run events in turn, stopping at a panic. -/
def runEvents : List HeartbeatEvent → HeartbeatState → Outcome
  | [], s => .next s
  | e :: es, s =>
    match e.step s with
    | .next s₁ => runEvents es s₁
    | .panicked s₁ => .panicked s₁

/-- A run whose first event does not panic goes on from the state that event leaves. -/
theorem runEvents_cons_of_next {e : HeartbeatEvent} {es : List HeartbeatEvent}
    {s s₁ : HeartbeatState} (h : e.step s = .next s₁) :
    runEvents (e :: es) s = runEvents es s₁ := by
  rw [runEvents, h]

/-! ## What each step can do -/

/-- Whether `send_heartbeat` expires its recipient: a peer other than the local one, indexed with
a heartbeat `HEARTBEAT_FAILURE_MS` old. -/
def expiresRecipient (recipientPeerId : WrappedPeerId) (now : UInt64) (s : HeartbeatState) :
    Bool :=
  decide (recipientPeerId ≠ s.localPeerId) &&
    (s.knownPeers recipientPeerId).any fun info =>
      !decide (now - info.lastHeartbeat < heartbeatFailureMs / 1000)

/-- What a `send_heartbeat` that does not panic can do: nothing, for the local peer; for an
indexed peer, send it a heartbeat and expire it exactly when `expiresRecipient` says so. -/
theorem sendHeartbeat_eq_next {s s' : HeartbeatState} {q : WrappedPeerId} {now : UInt64}
    (h : sendHeartbeat q now s = .next s') :
    s' = s ∧ q = s.localPeerId ∨ q ≠ s.localPeerId ∧ (s.knownPeers q).isSome ∧
      (expiresRecipient q now s = false ∧ s' = { s with outbound := s.outbound ++ [.heartbeat q] } ∨
        expiresRecipient q now s = true ∧
          s' = { s with outbound := s.outbound ++ [.heartbeat q],
                        knownPeers := removePeers [q] s.knownPeers,
                        peerExpiryCache := s.peerExpiryCache.put q now }) := by
  unfold sendHeartbeat at h
  split_ifs at h with hq
  · cases h
    exact .inl ⟨rfl, hq⟩
  cases hinfo : s.knownPeers q with
  | none => simp [maybeExpirePeer, hinfo] at h
  | some info =>
    refine .inr ⟨hq, rfl, ?_⟩
    simp only [maybeExpirePeer, hinfo, Option.map_some'] at h
    split_ifs at h with hstale <;> cases h
    · exact .inl ⟨by simp [expiresRecipient, hq, hinfo, hstale], rfl⟩
    · exact .inr ⟨by simp [expiresRecipient, hq, hinfo, hstale], rfl⟩

/-- `send_heartbeat` panics only on an unindexed peer other than the local one, after sending
it the heartbeat. -/
theorem sendHeartbeat_eq_panicked {s s' : HeartbeatState} {q : WrappedPeerId} {now : UInt64}
    (h : sendHeartbeat q now s = .panicked s') :
    q ≠ s.localPeerId ∧ s.knownPeers q = none ∧
      s' = { s with outbound := s.outbound ++ [.heartbeat q] } := by
  unfold sendHeartbeat at h
  split_ifs at h with hq
  cases hinfo : s.knownPeers q with
  | none =>
    simp only [maybeExpirePeer, hinfo, Option.map_none'] at h
    cases h
    exact ⟨hq, rfl, rfl⟩
  | some info => simp [maybeExpirePeer, hinfo] at h

/-- A peer other than the local one, indexed with a heartbeat `HEARTBEAT_FAILURE_MS` old, is
expired: it leaves the index and becomes the most recent entry of the cache. -/
theorem sendHeartbeat_of_stale {s : HeartbeatState} {q : WrappedPeerId} {now : UInt64}
    (hq : q ≠ s.localPeerId) {info : PeerInfo} (hinfo : s.knownPeers q = some info)
    (hstale : ¬now - info.lastHeartbeat < heartbeatFailureMs / 1000) :
    sendHeartbeat q now s = .next
      { s with outbound := s.outbound ++ [.heartbeat q],
               knownPeers := removePeers [q] s.knownPeers,
               peerExpiryCache := s.peerExpiryCache.put q now } := by
  simp [sendHeartbeat, hq, maybeExpirePeer, hinfo, hstale]

/-- A merge event merges the parsed peers, or keeps the state when a peer id does not parse. -/
theorem step_mergePeerIndex_eq_next {incoming : List (String × PeerInfo)} {now : UInt64}
    {s s' : HeartbeatState} (h : (HeartbeatEvent.mergePeerIndex incoming now).step s = .next s') :
    s' = s ∨
      ∃ peers, parseKnownPeers s incoming = .ok peers ∧ s' = mergeKnownPeers peers now s := by
  simp only [HeartbeatEvent.step, mergePeerIndex] at h
  cases hparse : parseKnownPeers s incoming <;> simp only [hparse, Except.map] at h <;> cases h
  · exact .inl rfl
  · exact .inr ⟨_, rfl, rfl⟩

/-- Only a heartbeat panics: one to an unindexed peer other than the local one, and the panic
finds the heartbeat sent. -/
theorem step_eq_panicked {e : HeartbeatEvent} {s s' : HeartbeatState}
    (h : e.step s = .panicked s') :
    ∃ q now, e = .sendHeartbeat q now ∧ q ≠ s.localPeerId ∧ s.knownPeers q = none ∧
      s' = { s with outbound := s.outbound ++ [.heartbeat q] } := by
  cases e with
  | sendHeartbeat q now => exact ⟨q, now, rfl, sendHeartbeat_eq_panicked h⟩
  | recordHeartbeat => cases h
  | mergePeerIndex incoming now =>
    simp only [HeartbeatEvent.step] at h
    split at h <;> cases h

/-- A merge indexes an incoming peer whose id parses and that is neither indexed nor cached. -/
theorem mergePeerIndex_of_uncached {s : HeartbeatState} {key : String} {q : WrappedPeerId}
    (hkey : s.parsePeerId key = .ok q) (hq : s.knownPeers q = none)
    (hc : q ∉ s.peerExpiryCache.keys) (info : PeerInfo) (now : UInt64) :
    mergePeerIndex [(key, info)] now s = .ok (mergeKnownPeers [(q, info)] now s) ∧
      (mergeKnownPeers [(q, info)] now s).knownPeers q =
        some { info with lastHeartbeat := now } := by
  refine ⟨by simp [mergePeerIndex, parseKnownPeers, hkey, Except.map], ?_⟩
  simp [mergeKnownPeers, hq, addNewPeers, addNewPeer, LruCache.get,
    LruCache.peek_eq_none_iff.mpr hc, insertPeer]

/-! ## Invisibility -/

/-- The clock reading `now` lies within the invisibility window of an expiry at `t`. -/
def InWindow (t now : UInt64) : Prop := t ≤ now ∧ now - t ≤ expiryInvisibilityWindowMs / 1000

/-- Peer `p`, expired at `t`, is out of the index and cached with `t`, behind keys all in `S`. -/
structure Invisible (p : WrappedPeerId) (t : UInt64) (S : List WrappedPeerId)
    (s : HeartbeatState) : Prop where
  /-- `p` is not indexed. -/
  unknown : s.knownPeers p = none
  /-- `p` is cached with its expiry time behind peers of `S`. -/
  cached : ∃ front, s.peerExpiryCache.Behind front p t ∧ front ⊆ S

/-- The number of distinct peers of a list other than `p`. -/
def othersCount (p : WrappedPeerId) (S : List WrappedPeerId) : Nat :=
  (S.filter (· ≠ p)).dedup.length

theorem othersCount_mono {p : WrappedPeerId} {S S' : List WrappedPeerId} (h : S ⊆ S') :
    othersCount p S ≤ othersCount p S' :=
  ((List.nodup_dedup _).subperm fun x hx => by
    simp only [List.mem_dedup, List.mem_filter] at hx ⊢
    exact ⟨h hx.1, hx.2⟩).length_le

theorem length_le_othersCount {p : WrappedPeerId} {front S : List WrappedPeerId}
    (hnodup : front.Nodup) (hp : p ∉ front) (h : front ⊆ S) : front.length ≤ othersCount p S :=
  (hnodup.subperm fun x hx => by
    simp only [List.mem_dedup, List.mem_filter]
    exact ⟨h hx, by simpa using fun hxp : x = p => hp (hxp ▸ hx)⟩).length_le

@[simp] theorem peerExpiryCache_insertPeer (s : HeartbeatState) (p : WrappedPeerId)
    (info : PeerInfo) (now : UInt64) :
    (insertPeer s p info now).peerExpiryCache = s.peerExpiryCache := by
  unfold insertPeer
  split <;> rfl

/-- `add_new_peer` caches no peer. -/
theorem mem_keys_addNewPeer {q r : WrappedPeerId} {info : PeerInfo} {now : UInt64}
    {s : HeartbeatState} (h : r ∈ (addNewPeer q info now s).2.peerExpiryCache.keys) :
    r ∈ s.peerExpiryCache.keys := by
  rcases hget : s.peerExpiryCache.get q with ⟨_ | e, cache⟩ <;>
    have hc : r ∈ cache.keys → r ∈ s.peerExpiryCache.keys := fun hr =>
      LruCache.mem_keys_get (by rw [hget]; exact hr) <;>
    simp only [addNewPeer, hget, peerExpiryCache_insertPeer] at h
  · exact hc h
  · split at h
    · exact hc h
    · simp only [peerExpiryCache_insertPeer] at h
      exact hc (LruCache.mem_keys_popEntry.mp h).1

/-- The peers an event puts in front of the others in the expiry cache: the recipient that a
heartbeat expires, and the parsed incoming peers that a merge finds cached, which the `get` of
`add_new_peer` promotes. -/
def HeartbeatEvent.promoted : HeartbeatEvent → HeartbeatState → List WrappedPeerId
  | sendHeartbeat q now, s => if expiresRecipient q now s then [q] else []
  | recordHeartbeat _ _, _ => []
  | mergePeerIndex incoming _, s =>
    match parseKnownPeers s incoming with
    | .ok peers => (peers.map Prod.fst).filter (· ∈ s.peerExpiryCache.keys)
    | .error _ => []

/-- The peers a run promotes in the expiry cache, event by event, up to a panic. -/
def promotedAlong : List HeartbeatEvent → HeartbeatState → List WrappedPeerId
  | [], _ => []
  | e :: es, s =>
    e.promoted s ++
      match e.step s with
      | .next s₁ => promotedAlong es s₁
      | .panicked _ => []

namespace Invisible

variable {p : WrappedPeerId} {t : UInt64} {S : List WrappedPeerId} {s : HeartbeatState}

theorem mono (h : Invisible p t S s) {S' : List WrappedPeerId} (hS : S ⊆ S') :
    Invisible p t S' s :=
  ⟨h.unknown, let ⟨front, hb, hf⟩ := h.cached; ⟨front, hb, hf.trans hS⟩⟩

/-- Indexing another peer leaves `p` invisible. -/
theorem insertPeer (h : Invisible p t S s) {q : WrappedPeerId} (hq : q ≠ p) (info : PeerInfo)
    (now : UInt64) : Invisible p t S (Gossip.insertPeer s q info now) := by
  unfold Gossip.insertPeer
  split
  · exact h
  · exact ⟨by simp [Function.update_noteq hq.symm, h.unknown], h.cached⟩

/-- Within the window `add_new_peer` refuses `p`, another peer of `S` only moves ahead of it, and
a peer the cache does not hold leaves the cache as it is. -/
theorem addNewPeer (h : Invisible p t S s) {q : WrappedPeerId}
    (hq : q ∈ S ∨ q = p ∨ q ∉ s.peerExpiryCache.keys) (info : PeerInfo) {now : UInt64}
    (hnow : InWindow t now) : Invisible p t S (Gossip.addNewPeer q info now s).2 := by
  obtain ⟨front, hb, hf⟩ := h.cached
  by_cases hqp : q = p
  · subst hqp
    have hget : s.peerExpiryCache.get q = (some t, s.peerExpiryCache.put q t) := by
      simp [LruCache.get, hb.peek]
    simp only [Gossip.addNewPeer, hget, hnow.2, if_true]
    exact ⟨h.unknown, [], LruCache.Behind.put_self (by decide) _ _ _, List.nil_subset _⟩
  rcases hq with hqS | hqp' | hqc
  · obtain ⟨front', hb', hf'⟩ := hb.get_ne hqp
    have hS : front' ⊆ S := fun x hx => (List.mem_cons.mp (hf' hx)).elim (· ▸ hqS) (hf ·)
    rcases hget : s.peerExpiryCache.get q with ⟨_ | e, cache⟩ <;> rw [hget] at hb' <;>
      simp only [Gossip.addNewPeer, hget]
    · refine Invisible.insertPeer ?_ hqp info now
      exact ⟨h.unknown, front', hb', hS⟩
    · split
      · exact ⟨h.unknown, front', hb', hS⟩
      · refine Invisible.insertPeer ?_ hqp info now
        exact ⟨h.unknown, _, hb'.popEntry_ne hqp, (List.filter_subset' _).trans hS⟩
  · exact absurd hqp' hqp
  · have hget : s.peerExpiryCache.get q = (none, s.peerExpiryCache) := by
      simp [LruCache.get, LruCache.peek_eq_none_iff.mpr hqc]
    simp only [Gossip.addNewPeer, hget]
    exact h.insertPeer hqp info now

theorem addNewPeers {now : UInt64} (hnow : InWindow t now) :
    ∀ (peers : List (WrappedPeerId × PeerInfo)) {s : HeartbeatState}, Invisible p t S s →
      (∀ x ∈ peers, x.1 ∈ S ∨ x.1 = p ∨ x.1 ∉ s.peerExpiryCache.keys) →
      Invisible p t S (Gossip.addNewPeers now peers s)
  | [], _, h, _ => h
  | (_, info) :: peers, _, h, hS => addNewPeers hnow peers
      (h.addNewPeer (hS _ (List.mem_cons_self _ _)) info hnow)
      fun x hx => (hS x (List.mem_cons_of_mem _ hx)).imp_right
        (Or.imp_right fun hc hc' => hc (mem_keys_addNewPeer hc'))

/-- A merge within the window leaves `p` invisible, behind peers of `S` or merged peers that were
cached. -/
theorem mergeKnownPeers (h : Invisible p t S s) (peers : List (WrappedPeerId × PeerInfo))
    {now : UInt64} (hnow : InWindow t now) :
    Invisible p t (S ++ (peers.map Prod.fst).filter (· ∈ s.peerExpiryCache.keys))
      (Gossip.mergeKnownPeers peers now s) := by
  have h' := h.mono (List.subset_append_left S
    ((peers.map Prod.fst).filter (· ∈ s.peerExpiryCache.keys)))
  unfold Gossip.mergeKnownPeers
  dsimp only
  split
  · exact h'
  · refine h'.addNewPeers hnow _ fun x hx => ?_
    by_cases hc : x.1 ∈ s.peerExpiryCache.keys
    · exact .inl (List.mem_append_right _ (List.mem_filter.mpr
        ⟨List.mem_map_of_mem _ (List.mem_of_mem_filter hx), decide_eq_true hc⟩))
    · exact .inr (.inr hc)

/-- An expiry of another peer leaves `p` invisible while the cache has room in front of `p`. -/
theorem sendHeartbeat (h : Invisible p t S s) {q : WrappedPeerId} {now : UInt64}
    {s' : HeartbeatState}
    (hroom : othersCount p (S ++ if expiresRecipient q now s then [q] else []) < expiryCacheSize)
    (hs' : Gossip.sendHeartbeat q now s = .next s') :
    Invisible p t (S ++ if expiresRecipient q now s then [q] else []) s' := by
  have h' := h.mono (List.subset_append_left S (if expiresRecipient q now s then [q] else []))
  rcases sendHeartbeat_eq_next hs' with ⟨rfl, -⟩ | ⟨-, hq, ⟨-, rfl⟩ | ⟨hexp, rfl⟩⟩
  · exact h'
  · exact ⟨h'.unknown, h'.cached⟩
  rw [hexp, if_pos rfl] at hroom ⊢
  have hqp : q ≠ p := fun hqp => by
    subst hqp
    simp [h.unknown] at hq
  obtain ⟨front, hb, hf⟩ := h.cached
  have hsub : q :: front.filter (· ≠ q) ⊆ S ++ [q] := List.cons_subset.mpr
    ⟨by simp, ((List.filter_subset' _).trans hf).trans (List.subset_append_left _ _)⟩
  have hfront : (q :: front.filter (· ≠ q)).length ≤ othersCount p (S ++ [q]) :=
    length_le_othersCount (List.nodup_cons.mpr ⟨by simp, hb.nodup.1.filter _⟩)
      (fun hp => (List.mem_cons.mp hp).elim (fun hpq => hqp hpq.symm)
        fun hp => hb.nodup.2 (List.mem_of_mem_filter hp)) hsub
  refine ⟨by simp [removePeers, hqp.symm, h.unknown], _, hb.put_ne hqp now ?_, hsub⟩
  rw [List.length_cons] at hfront
  omega

theorem recordHeartbeat (h : Invisible p t S s) (q : WrappedPeerId) (now : UInt64) :
    Invisible p t S (Gossip.recordHeartbeat q now s) := by
  refine ⟨?_, h.cached⟩
  by_cases hq : p = q
  · subst hq
    simp [Gossip.recordHeartbeat, h.unknown]
  · simp [Gossip.recordHeartbeat, Function.update_noteq hq, h.unknown]

/-- One event within the window keeps `p` invisible, behind peers of `S` or peers the event
promotes. -/
theorem step (h : Invisible p t S s) {e : HeartbeatEvent} (hnow : InWindow t e.now)
    (hroom : othersCount p (S ++ e.promoted s) < expiryCacheSize) {s' : HeartbeatState}
    (hs' : e.step s = .next s') : Invisible p t (S ++ e.promoted s) s' := by
  cases e with
  | sendHeartbeat q now => exact h.sendHeartbeat hroom hs'
  | recordHeartbeat q now =>
    cases hs'
    exact (h.recordHeartbeat q now).mono (List.subset_append_left _ _)
  | mergePeerIndex incoming now =>
    rcases step_mergePeerIndex_eq_next hs' with rfl | ⟨peers, hparse, rfl⟩
    · exact h.mono (List.subset_append_left _ _)
    · simpa only [HeartbeatEvent.promoted, hparse] using h.mergeKnownPeers peers hnow

/-- A run within the window keeps `p` invisible while fewer than `EXPIRY_CACHE_SIZE` other peers
are promoted. -/
theorem runEvents : ∀ (es : List HeartbeatEvent) {S : List WrappedPeerId} {s s' : HeartbeatState},
    Invisible p t S s → (∀ e ∈ es, InWindow t e.now) →
    othersCount p (S ++ promotedAlong es s) < expiryCacheSize →
    Gossip.runEvents es s = .next s' → Invisible p t (S ++ promotedAlong es s) s'
  | [], _, _, _, h, _, _, hs' => by
    cases hs'
    simpa [promotedAlong] using h
  | e :: es, S, s, _, h, hnow, hroom, hs' => by
    cases hstep : e.step s with
    | panicked s₁ => simp [Gossip.runEvents, hstep] at hs'
    | next s₁ =>
      rw [runEvents_cons_of_next hstep] at hs'
      have hroom' : othersCount p ((S ++ e.promoted s) ++ promotedAlong es s₁) <
          expiryCacheSize := by
        simpa [promotedAlong, hstep, List.append_assoc] using hroom
      have h₁ := h.step (hnow e (List.mem_cons_self _ _))
        (lt_of_le_of_lt (othersCount_mono (List.subset_append_left _ _)) hroom') hstep
      simpa [promotedAlong, hstep, List.append_assoc] using
        runEvents es h₁ (fun e' he' => hnow e' (List.mem_cons_of_mem _ he')) hroom' hs'

end Invisible

/-- Peer ids written in decimal: the parser of the states below. -/
def decimalPeerId (key : String) : Except String WrappedPeerId :=
  if key.toList ≠ [] ∧ key.toList.all Char.isDigit then
    .ok ⟨key.toList.foldl (fun n c => 10 * n + (c.toNat - '0'.toNat)) 0⟩
  else .error "invalid peer id"

/-- One stale peer `1` and the local peer `0`. -/
def oneStalePeer : HeartbeatState :=
  ⟨⟨0⟩, fun q => if q = ⟨1⟩ then some ⟨⟨1⟩, 0, 0⟩ else none, LruCache.empty, [], decimalPeerId⟩

theorem take_append_take {α : Type} (l₁ l₂ : List α) (n : Nat) :
    (l₁ ++ l₂.take n).take n = (l₁ ++ l₂).take n := by
  rw [List.take_append_eq_append_take, List.take_append_eq_append_take, List.take_take]
  congr 2
  omega

/-- Expiring distinct stale peers that are not cached, one after another: each leaves the index
and is pushed on the front of the cache, which keeps its `EXPIRY_CACHE_SIZE` most recent
entries. -/
theorem runEvents_expire (now : UInt64) : ∀ (qs : List WrappedPeerId) (s : HeartbeatState),
    qs.Nodup → (∀ q ∈ qs, q ≠ s.localPeerId ∧ q ∉ s.peerExpiryCache.keys ∧
      ∃ info, s.knownPeers q = some info ∧ ¬now - info.lastHeartbeat < heartbeatFailureMs / 1000) →
    ∃ s', runEvents (qs.map (HeartbeatEvent.sendHeartbeat · now)) s = .next s' ∧
      s'.peerExpiryCache.entries =
        (qs.reverse.map (·, now) ++ s.peerExpiryCache.entries).take expiryCacheSize ∧
      (∀ q, s'.knownPeers q = removePeers qs s.knownPeers q) ∧ s'.parsePeerId = s.parsePeerId
  | [], s, _, _ =>
    ⟨s, rfl, by simpa using (List.take_of_length_le s.peerExpiryCache.length_le).symm,
      fun _ => by simp [removePeers], rfl⟩
  | q :: qs, s, hnodup, hqs => by
    obtain ⟨hlocal, hfresh, info, hinfo, hstale⟩ := hqs q (List.mem_cons_self _ _)
    have hnodup' := List.nodup_cons.mp hnodup
    have hput := LruCache.put_entries_of_not_mem hfresh now
    obtain ⟨s', hrun, hentries, hknown, hparse⟩ := runEvents_expire now qs
      { s with outbound := s.outbound ++ [.heartbeat q], knownPeers := removePeers [q] s.knownPeers,
               peerExpiryCache := s.peerExpiryCache.put q now } hnodup'.2 fun q' hq' => by
        obtain ⟨hlocal', hfresh', info', hinfo', hstale'⟩ := hqs q' (List.mem_cons_of_mem _ hq')
        have hne : q' ≠ q := fun h => hnodup'.1 (h ▸ hq')
        refine ⟨hlocal', fun hmem => ?_, info', by simpa [removePeers, hne] using hinfo', hstale'⟩
        have hmem : q' ∈ (((q, now) :: s.peerExpiryCache.entries).take expiryCacheSize).map
            Prod.fst := by
          rw [← hput]
          exact hmem
        exact (List.mem_cons.mp (((List.take_sublist _ _).map Prod.fst).subset hmem)).elim hne
          hfresh'
    refine ⟨s', ?_, ?_, fun q' => ?_, hparse⟩
    · have hstep : (HeartbeatEvent.sendHeartbeat q now).step s = .next _ :=
        sendHeartbeat_of_stale hlocal hinfo hstale
      rw [List.map_cons, runEvents_cons_of_next hstep]
      exact hrun
    · rw [hentries]
      change List.take expiryCacheSize (_ ++ (s.peerExpiryCache.put q now).entries) = _
      rw [hput, take_append_take]
      simp
    · rw [hknown]
      by_cases h : q' = q <;> simp [removePeers, h]

/-- The local peer `101` and peers `0` to `100`, all last heard from at time `0`. -/
def staleBook : HeartbeatState :=
  ⟨⟨101⟩, fun q => if q.id ≤ 100 then some ⟨q, 0, 0⟩ else none, LruCache.empty, [],
    decimalPeerId⟩

/-- The peers `1` to `100`. -/
def evictingPeers : List WrappedPeerId := (List.range' 1 100).map WrappedPeerId.mk

/-- Peer `0`, expired at `7`, is put back in the index by a merge at `7` listing it: the heartbeats
at `7` that expire peers `1` to `100` in between have evicted it from the expiry cache. -/
theorem expiredPeer_readded :
    ∃ s₁ s₂ s₃, staleBook.knownPeers ⟨0⟩ ≠ none ∧ sendHeartbeat ⟨0⟩ 7 staleBook = .next s₁ ∧
      s₁.knownPeers ⟨0⟩ = none ∧
      runEvents (evictingPeers.map (HeartbeatEvent.sendHeartbeat · 7)) s₁ = .next s₂ ∧
      s₂.knownPeers ⟨0⟩ = none ∧ (7 : UInt64) - 7 ≤ expiryInvisibilityWindowMs / 1000 ∧
      mergePeerIndex [("0", ⟨⟨0⟩, 0, 0⟩)] 7 s₂ = .ok s₃ ∧ s₃.knownPeers ⟨0⟩ ≠ none := by
  have hexp := sendHeartbeat_of_stale (by decide : (⟨0⟩ : WrappedPeerId) ≠ staleBook.localPeerId)
    (rfl : staleBook.knownPeers ⟨0⟩ = some ⟨⟨0⟩, 0, 0⟩)
    (by decide : ¬(7 : UInt64) - 0 < heartbeatFailureMs / 1000)
  have hcache : (staleBook.peerExpiryCache.put ⟨0⟩ 7).entries = [(⟨0⟩, 7)] := rfl
  have hpeers : ∀ q ∈ evictingPeers, 1 ≤ q.id ∧ q.id ≤ 100 := by
    simp only [evictingPeers, List.mem_map, List.mem_range'_1]
    rintro q ⟨i, hi, rfl⟩
    dsimp only
    omega
  obtain ⟨s₂, hrun, hentries, hknown, hparse⟩ := runEvents_expire 7 evictingPeers
    { staleBook with
      knownPeers := removePeers [⟨0⟩] staleBook.knownPeers,
      peerExpiryCache := staleBook.peerExpiryCache.put ⟨0⟩ 7,
      outbound := staleBook.outbound ++ [.heartbeat ⟨0⟩] }
    ((List.nodup_range' 1 100).map fun _ _ h => WrappedPeerId.mk.inj h) fun q hq => by
      obtain ⟨h₁, h₂⟩ := hpeers q hq
      have hq0 : q ≠ ⟨0⟩ := by rintro rfl; exact absurd h₁ (by decide)
      refine ⟨by rintro rfl; exact absurd h₂ (by decide), fun h => ?_, ⟨q, 0, 0⟩, ?_, ?_⟩
      · simp only [LruCache.keys, hcache, List.map_cons, List.map_nil, List.mem_singleton] at h
        exact hq0 h
      · simp [removePeers, staleBook, hq0, h₂]
      · show ¬(7 : UInt64) - 0 < heartbeatFailureMs / 1000
        decide
  have hlen : (evictingPeers.reverse.map (·, (7 : UInt64))).length = expiryCacheSize := by
    simp [evictingPeers, expiryCacheSize]
  have hzero : (⟨0⟩ : WrappedPeerId) ∉ evictingPeers := fun h => absurd (hpeers _ h).1 (by decide)
  have hc : (⟨0⟩ : WrappedPeerId) ∉ s₂.peerExpiryCache.keys := by
    rw [LruCache.keys, hentries]
    change _ ∉ List.map Prod.fst
      (List.take expiryCacheSize (_ ++ [((⟨0⟩ : WrappedPeerId), (7 : UInt64))]))
    rw [List.take_left' hlen]
    simpa using hzero
  have hq : s₂.knownPeers ⟨0⟩ = none := by
    rw [hknown]
    simp [removePeers, hzero]
  have hkey : s₂.parsePeerId "0" = .ok ⟨0⟩ := by
    rw [hparse]
    rfl
  obtain ⟨hmerge, hindexed⟩ := mergePeerIndex_of_uncached hkey hq hc ⟨⟨0⟩, 0, 0⟩ 7
  exact ⟨_, s₂, _, by simp [staleBook], hexp, by simp [removePeers], hrun, hq, by decide, hmerge,
    by rw [hindexed]; exact Option.some_ne_none _⟩

/-! ## The expiry decision and the clock -/

/-- On an indexed peer, `maybe_expire_peer` keeps the state or expires the peer by the wrapping
difference between the clock reading and the stored heartbeat. -/
theorem maybeExpirePeer_of_some {s : HeartbeatState} {p : WrappedPeerId} {info : PeerInfo}
    (hinfo : s.knownPeers p = some info) (now : UInt64) :
    maybeExpirePeer p now s = some (if now - info.lastHeartbeat < heartbeatFailureMs / 1000 then s
      else { s with knownPeers := removePeers [p] s.knownPeers,
                    peerExpiryCache := s.peerExpiryCache.put p now }) := by
  rw [maybeExpirePeer, hinfo, Option.map_some']

/-- `maybe_expire_peer` removes an indexed peer exactly when `now - last_heartbeat`, in wrapping
`u64` arithmetic, is at least `HEARTBEAT_FAILURE_MS / 1000`. -/
theorem maybeExpirePeer_removes_iff {s : HeartbeatState} {p : WrappedPeerId} {info : PeerInfo}
    (hinfo : s.knownPeers p = some info) (now : UInt64) :
    (maybeExpirePeer p now s).map (·.knownPeers p) = some none ↔
      heartbeatFailureMs / 1000 ≤ now - info.lastHeartbeat := by
  rw [maybeExpirePeer_of_some hinfo, Option.map_some', Option.some.injEq]
  split_ifs with h
  · rw [hinfo]
    exact ⟨fun h' => Option.noConfusion h', fun h' => absurd h' (UInt64.not_le.mpr h)⟩
  · simp only [removePeers, List.mem_singleton, if_true, true_iff]
    exact UInt64.not_lt.mp h

/-- When the stored heartbeat is not later than the clock reading, the difference does not wrap:
the peer is removed exactly when its heartbeat is `HEARTBEAT_FAILURE_MS / 1000` seconds old. -/
theorem maybeExpirePeer_removes_iff_of_le {s : HeartbeatState} {p : WrappedPeerId}
    {info : PeerInfo} (hinfo : s.knownPeers p = some info) {now : UInt64}
    (hle : info.lastHeartbeat ≤ now) :
    (maybeExpirePeer p now s).map (·.knownPeers p) = some none ↔
      info.lastHeartbeat.toNat + heartbeatFailureMs.toNat / 1000 ≤ now.toNat := by
  rw [maybeExpirePeer_removes_iff hinfo]
  have hle' : info.lastHeartbeat.toNat ≤ now.toNat := hle
  have h7 : (heartbeatFailureMs / 1000).toNat = heartbeatFailureMs.toNat / 1000 := rfl
  show (heartbeatFailureMs / 1000).toNat ≤ (now - info.lastHeartbeat).toNat ↔ _
  rw [UInt64.toNat_sub_of_le _ _ hle, h7]
  omega

/-- A heartbeat later than the clock reading, with both below `2^63` seconds, wraps the
difference past `HEARTBEAT_FAILURE_MS / 1000`. -/
theorem failure_le_sub_of_lt {now later : UInt64} (hlt : now < later)
    (hclock : later.toNat < 2 ^ 63) : heartbeatFailureMs / 1000 ≤ now - later := by
  have hlt' : now.toNat < later.toNat := hlt
  have e₁ : now.toBitVec.toNat = now.toNat := rfl
  have e₂ : later.toBitVec.toNat = later.toNat := rfl
  have hsub : (now - later).toNat = 2 ^ 64 - later.toNat + now.toNat := by
    show (now.toBitVec - later.toBitVec).toNat = _
    rw [BitVec.toNat_sub, e₁, e₂, Nat.mod_eq_of_lt (by omega)]
  have h7 : (heartbeatFailureMs / 1000).toNat = 7 := rfl
  show (heartbeatFailureMs / 1000).toNat ≤ (now - later).toNat
  omega

/-- If `record_heartbeat` stores a reading later than the one `maybe_expire_peer` took before
reading the index, the wrapping subtraction expires the live peer. -/
theorem maybeExpirePeer_recordHeartbeat_later {s : HeartbeatState} {p : WrappedPeerId}
    (hp : s.knownPeers p ≠ none) {now later : UInt64} (hlt : now < later)
    (hclock : later.toNat < 2 ^ 63) :
    (maybeExpirePeer p now (recordHeartbeat p later s)).map (·.knownPeers p) = some none := by
  obtain ⟨info, hinfo⟩ := Option.ne_none_iff_exists'.mp hp
  have hrec : (recordHeartbeat p later s).knownPeers p =
      some { info with lastHeartbeat := later } := by
    simp [recordHeartbeat, hinfo]
  rw [maybeExpirePeer_removes_iff hrec]
  exact failure_le_sub_of_lt hlt hclock

/-- Peer `1`, last heard from at `100`. -/
def livePeerBook : HeartbeatState :=
  ⟨⟨0⟩, fun q => if q = ⟨1⟩ then some ⟨⟨1⟩, 0, 100⟩ else none, LruCache.empty, [],
    decimalPeerId⟩

/-- `maybe_expire_peer(1)` reads the clock at `100`; a heartbeat from peer `1` recorded at `101`
before it reads the index makes `100 - 101` wrap, and the live peer is expired. -/
theorem maybeExpirePeer_expires_live_peer :
    ((recordHeartbeat ⟨1⟩ 101 livePeerBook).knownPeers ⟨1⟩).map PeerInfo.lastHeartbeat =
      some 101 ∧
    (maybeExpirePeer ⟨1⟩ 100 (recordHeartbeat ⟨1⟩ 101 livePeerBook)).map (·.knownPeers ⟨1⟩) =
      some none :=
  ⟨rfl, maybeExpirePeer_recordHeartbeat_later (by simp [livePeerBook]) (by decide) (by decide)⟩

end Renegade.Gossip
