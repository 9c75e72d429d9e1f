import Renegade.Gossip.HeartbeatTimer

/-!
# The peer index over whole runs of the heartbeat protocol

Three facts hold along every run of heartbeat events, whatever their order and clock readings.
The expiry cache and the known-peer index never share a peer: `send_heartbeat` moves an expired
peer from the index into the cache and `add_new_peer` moves it back out, so the invisibility
window only ever holds back peers that are not indexed. Every indexed peer was indexed at the
start or has been registered with the network manager by a `NewAddr` carrying its address, since
`add_new_peer` sends one for each peer it indexes and no event changes an address; so every
heartbeat a run sends goes to a peer registered before it, which is what lets the network
manager dial it. And the local peer, which never sends itself a heartbeat, stays indexed: once
the network manager has added it at startup, the timer never reads an empty known-peer map.

Merges and recorded heartbeats only grow the index (`Grows`); `send_heartbeat` is the one event
that sends a heartbeat or drops a peer (`sendHeartbeat_eq_next`), and the one that panics, on an
unindexed recipient after sending it the heartbeat (`step_eq_panicked`). Each invariant is proved
for these two kinds of step and lifted to runs by `runEvents_induction`; the heartbeat a panic
leaves sent is the one message a run can send to an unregistered peer.
-/

namespace Renegade.Gossip

/-- A property kept by every event holds after every run that does not panic. -/
theorem runEvents_induction (P : HeartbeatState → Prop)
    (hstep : ∀ (e : HeartbeatEvent) {s s' : HeartbeatState}, P s → e.step s = .next s' → P s') :
    ∀ (es : List HeartbeatEvent) {s s' : HeartbeatState}, P s → runEvents es s = .next s' → P s'
  | [], _, _, h, hrun => by
    cases hrun
    exact h
  | e :: es, s, _, h, hrun => by
    cases hs : e.step s with
    | next s₁ =>
      rw [runEvents_cons_of_next hs] at hrun
      exact runEvents_induction P hstep es (hstep e h hs) hrun
    | panicked s₁ => simp [runEvents, hs] at hrun

/-- A run that panics does so at an event from a state that a property kept by every event holds
of. -/
theorem runEvents_induction_panicked (P : HeartbeatState → Prop)
    (hstep : ∀ (e : HeartbeatEvent) {s s' : HeartbeatState}, P s → e.step s = .next s' → P s') :
    ∀ (es : List HeartbeatEvent) {s s' : HeartbeatState}, P s → runEvents es s = .panicked s' →
      ∃ (s₁ : HeartbeatState) (e : HeartbeatEvent), P s₁ ∧ e.step s₁ = .panicked s'
  | [], _, _, _, hrun => by cases hrun
  | e :: es, s, s', h, hrun => by
    cases hs : e.step s with
    | next s₁ =>
      rw [runEvents_cons_of_next hs] at hrun
      exact runEvents_induction_panicked P hstep es (hstep e h hs) hrun
    | panicked s₁ =>
      simp only [runEvents, hs, Outcome.panicked.injEq] at hrun
      subst hrun
      exact ⟨s, e, h, hs⟩

/-! ## Merges and recorded heartbeats grow the index -/

/-- What merging peers and recording heartbeats can do: index new peers, each with a `NewAddr`
for its address, change no address, drop peers from the expiry cache, and send no heartbeat. -/
structure Grows (s s' : HeartbeatState) : Prop where
  /-- The local peer is unchanged. -/
  localPeerId : s'.localPeerId = s.localPeerId
  /-- Only `NewAddr` messages are sent. -/
  outbound : ∃ ext, s'.outbound = s.outbound ++ ext ∧ ∀ q, GossipOutbound.heartbeat q ∉ ext
  /-- No peer leaves the index. -/
  indexed : ∀ q, (s.knownPeers q).isSome → (s'.knownPeers q).isSome
  /-- A peer is indexed at its old address or registered at its new one. -/
  registered : ∀ q info', s'.knownPeers q = some info' →
    (∃ info, s.knownPeers q = some info ∧ info.addr = info'.addr) ∨
      GossipOutbound.newAddr q info'.addr ∈ s'.outbound
  /-- The cache only loses peers, and a cached peer that was not indexed still is not. -/
  cache : ∀ q ∈ s'.peerExpiryCache.keys,
    q ∈ s.peerExpiryCache.keys ∧ (s.knownPeers q = none → s'.knownPeers q = none)

namespace Grows

variable {s s₁ s₂ : HeartbeatState}

theorem refl (s : HeartbeatState) : Grows s s :=
  ⟨rfl, ⟨[], by simp, by simp⟩, fun _ => id, fun _ info h => .inl ⟨info, h, rfl⟩,
    fun _ hq => ⟨hq, id⟩⟩

theorem trans (h₁ : Grows s s₁) (h₂ : Grows s₁ s₂) : Grows s s₂ := by
  obtain ⟨ext₁, he₁, hb₁⟩ := h₁.outbound
  obtain ⟨ext₂, he₂, hb₂⟩ := h₂.outbound
  refine ⟨h₂.localPeerId.trans h₁.localPeerId, ⟨ext₁ ++ ext₂, by rw [he₂, he₁, List.append_assoc],
    fun q hq => (List.mem_append.mp hq).elim (hb₁ q) (hb₂ q)⟩,
    fun q hq => h₂.indexed q (h₁.indexed q hq), fun q info' hq => ?_, fun q hq => ?_⟩
  · rcases h₂.registered q info' hq with ⟨info, hinfo, haddr⟩ | hreg
    · rcases h₁.registered q info hinfo with ⟨info₀, h₀, haddr₀⟩ | hreg
      · exact .inl ⟨info₀, h₀, haddr₀.trans haddr⟩
      · exact .inr (by rw [he₂, ← haddr]; exact List.mem_append_left _ hreg)
    · exact .inr hreg
  · obtain ⟨hq₁, hn₁⟩ := h₂.cache q hq
    obtain ⟨hq₀, hn₀⟩ := h₁.cache q hq₁
    exact ⟨hq₀, hn₁ ∘ hn₀⟩

/-- A step that only drops peers from the cache grows the index. -/
theorem of_cache (hlocal : s₁.localPeerId = s.localPeerId) (hknown : s₁.knownPeers = s.knownPeers)
    (houtbound : s₁.outbound = s.outbound)
    (hkeys : ∀ q ∈ s₁.peerExpiryCache.keys, q ∈ s.peerExpiryCache.keys) : Grows s s₁ :=
  ⟨hlocal, ⟨[], by simp [houtbound], by simp⟩, fun q => by simp [hknown],
    fun q info h => .inl ⟨info, hknown ▸ h, rfl⟩, fun q hq => ⟨hkeys q hq, by simp [hknown]⟩⟩

/-- Indexing a peer that is not cached grows the index. -/
theorem insertPeer {p : WrappedPeerId} (hp : p ∉ s.peerExpiryCache.keys) (info : PeerInfo)
    (now : UInt64) : Grows s (Gossip.insertPeer s p info now) := by
  unfold Gossip.insertPeer
  split
  · exact refl s
  · rename_i hnone
    refine ⟨rfl, ⟨[.newAddr p info.addr], rfl, by simp⟩, fun q hq => ?_, fun q info' hq => ?_,
      fun q hq => ⟨hq, fun hn => ?_⟩⟩
    · by_cases hqp : q = p <;> simp_all
    · by_cases hqp : q = p
      · subst hqp
        simp only [Function.update_same, Option.some.injEq] at hq
        exact .inr (by simp [← hq])
      · exact .inl ⟨info', by simpa [hqp] using hq, rfl⟩
    · have hqp : q ≠ p := fun h => hp (h ▸ hq)
      simpa [hqp] using hn

end Grows

/-- `add_new_peer` grows the index. -/
theorem grows_addNewPeer (s : HeartbeatState) (p : WrappedPeerId) (info : PeerInfo)
    (now : UInt64) : Grows s (addNewPeer p info now s).2 := by
  rcases hget : s.peerExpiryCache.get p with ⟨_ | e, cache⟩ <;> simp only [addNewPeer, hget]
  · obtain ⟨rfl, hp⟩ := LruCache.get_eq_none hget
    exact Grows.insertPeer hp info now
  · have hkeys : ∀ q ∈ cache.keys, q ∈ s.peerExpiryCache.keys := fun q hq =>
      LruCache.mem_keys_get (by rw [hget]; exact hq)
    split
    · exact Grows.of_cache rfl rfl rfl hkeys
    · have hpop : p ∉ (cache.popEntry p).2.keys := fun hp =>
        (LruCache.mem_keys_popEntry.mp hp).2 rfl
      have hpopped : Grows s { s with peerExpiryCache := (cache.popEntry p).2 } :=
        Grows.of_cache rfl rfl rfl fun q hq => hkeys q (LruCache.mem_keys_popEntry.mp hq).1
      exact hpopped.trans (Grows.insertPeer hpop info now)

theorem grows_addNewPeers (now : UInt64) :
    ∀ (peers : List (WrappedPeerId × PeerInfo)) (s : HeartbeatState),
      Grows s (addNewPeers now peers s)
  | [], s => Grows.refl s
  | peer :: peers, s => (grows_addNewPeer s peer.1 peer.2 now).trans (grows_addNewPeers now peers _)

/-- `merge_peer_index` past its parse phase grows the index. -/
theorem grows_mergeKnownPeers (peers : List (WrappedPeerId × PeerInfo)) (now : UInt64)
    (s : HeartbeatState) : Grows s (mergeKnownPeers peers now s) := by
  unfold mergeKnownPeers
  dsimp only
  split
  · exact Grows.refl s
  · exact grows_addNewPeers now _ s

/-- A merge event grows the index, whether its peer ids parse or not. -/
theorem grows_step_mergePeerIndex {incoming : List (String × PeerInfo)} {now : UInt64}
    {s s' : HeartbeatState} (h : (HeartbeatEvent.mergePeerIndex incoming now).step s = .next s') :
    Grows s s' := by
  rcases step_mergePeerIndex_eq_next h with rfl | ⟨peers, -, rfl⟩
  · exact Grows.refl _
  · exact grows_mergeKnownPeers peers now s

/-- `record_heartbeat` grows the index. -/
theorem grows_recordHeartbeat (q : WrappedPeerId) (now : UInt64) (s : HeartbeatState) :
    Grows s (recordHeartbeat q now s) := by
  have hknown : ∀ r, (recordHeartbeat q now s).knownPeers r = if r = q then
      (s.knownPeers q).map fun info => { info with lastHeartbeat := now } else s.knownPeers r :=
    fun r => by by_cases hrq : r = q <;> simp [recordHeartbeat, hrq]
  refine ⟨rfl, ⟨[], (List.append_nil _).symm, by simp⟩, fun r hr => ?_, fun r info' hr => ?_,
    fun r hr => ⟨hr, fun hn => ?_⟩⟩
  · rw [hknown]
    split_ifs with hrq
    · subst hrq
      simpa using hr
    · exact hr
  · rw [hknown] at hr
    split_ifs at hr with hrq
    · subst hrq
      obtain ⟨info, hinfo, rfl⟩ := Option.map_eq_some'.mp hr
      exact .inl ⟨info, hinfo, rfl⟩
    · exact .inl ⟨info', hr, rfl⟩
  · rw [hknown]
    split_ifs with hrq
    · subst hrq
      simp [hn]
    · exact hn

/-! ## The expiry cache and the index -/

/-- No peer of the expiry cache is indexed. -/
def CacheDisjoint (s : HeartbeatState) : Prop :=
  ∀ p ∈ s.peerExpiryCache.keys, s.knownPeers p = none

theorem CacheDisjoint.of_grows {s s' : HeartbeatState} (h : CacheDisjoint s) (hg : Grows s s') :
    CacheDisjoint s' := fun p hp =>
  let ⟨hp', hn⟩ := hg.cache p hp
  hn (h p hp')

theorem CacheDisjoint.step {s s' : HeartbeatState} (h : CacheDisjoint s) (e : HeartbeatEvent)
    (hs : e.step s = .next s') : CacheDisjoint s' := by
  cases e with
  | sendHeartbeat q now =>
    rcases sendHeartbeat_eq_next hs with ⟨rfl, -⟩ | ⟨-, -, ⟨-, rfl⟩ | ⟨-, rfl⟩⟩
    · exact h
    · exact h
    · intro p hp
      by_cases hpq : p = q
      · simp [removePeers, hpq]
      · simpa [removePeers, hpq] using h p ((LruCache.mem_keys_put hp).resolve_left hpq)
  | recordHeartbeat q now => exact h.of_grows (Outcome.next.inj hs ▸ grows_recordHeartbeat q now s)
  | mergePeerIndex incoming now => exact h.of_grows (grows_step_mergePeerIndex hs)

/-- Every heartbeat of `log` past its first `n` messages goes to a peer of `known` or to one whose
`NewAddr` comes earlier in `log`. -/
def HeartbeatsRegistered (known : WrappedPeerId → Bool) (n : Nat) (log : List GossipOutbound) :
    Prop :=
  ∀ pre q post, log = pre ++ .heartbeat q :: post → n ≤ pre.length →
    known q = true ∨ ∃ a, GossipOutbound.newAddr q a ∈ pre

/-- Appending messages keeps the heartbeats registered when each heartbeat appended goes to a
peer registered before them. -/
theorem HeartbeatsRegistered.append {known : WrappedPeerId → Bool} {n : Nat}
    {log : List GossipOutbound} (h : HeartbeatsRegistered known n log) {ext : List GossipOutbound}
    (hext : ∀ q, GossipOutbound.heartbeat q ∈ ext →
      known q = true ∨ ∃ a, GossipOutbound.newAddr q a ∈ log) :
    HeartbeatsRegistered known n (log ++ ext) := by
  intro pre q post heq hn
  rcases List.append_eq_append_iff.mp heq with ⟨a', rfl, hext'⟩ | ⟨c', hlog, hpost⟩
  · exact (hext q (by simp [hext'])).imp_right fun ⟨a, ha⟩ => ⟨a, List.mem_append_left _ ha⟩
  · cases c' with
    | nil =>
      rw [List.append_nil] at hlog
      subst hlog
      have hext' : ext = .heartbeat q :: post := by simpa using hpost.symm
      exact hext q (hext' ▸ List.mem_cons_self _ _)
    | cons x c'' =>
      obtain ⟨rfl, -⟩ := List.cons.inj hpost
      exact h pre q c'' hlog hn

/-- What a run from `s₀` keeps: the local peer and the messages sent before, every indexed peer
registered, and every heartbeat sent to a registered peer. -/
structure Registered (s₀ s : HeartbeatState) : Prop where
  /-- The local peer is unchanged. -/
  localPeerId : s.localPeerId = s₀.localPeerId
  /-- The messages sent before the run stay sent. -/
  outbound : ∃ ext, s.outbound = s₀.outbound ++ ext
  /-- An indexed peer was indexed at the start at its address, or registered at it since. -/
  indexed : ∀ q info', s.knownPeers q = some info' →
    (∃ info, s₀.knownPeers q = some info ∧ info.addr = info'.addr) ∨
      GossipOutbound.newAddr q info'.addr ∈ s.outbound
  /-- Every heartbeat of the run goes to a peer registered before it. -/
  heartbeats : HeartbeatsRegistered (fun q => (s₀.knownPeers q).isSome) s₀.outbound.length
    s.outbound

namespace Registered

variable {s₀ s s' : HeartbeatState}

theorem refl (s₀ : HeartbeatState) : Registered s₀ s₀ := by
  refine ⟨rfl, ⟨[], by simp⟩, fun _ info h => .inl ⟨info, h, rfl⟩, fun pre q post h hn => ?_⟩
  have := congrArg List.length h
  simp only [List.length_append, List.length_cons] at this
  omega

/-- A peer indexed in `s` is indexed at the start or registered in `s`. -/
theorem registered_of_isSome (h : Registered s₀ s) {q : WrappedPeerId}
    (hq : (s.knownPeers q).isSome) :
    (s₀.knownPeers q).isSome = true ∨ ∃ a, GossipOutbound.newAddr q a ∈ s.outbound := by
  obtain ⟨info', hinfo'⟩ := Option.isSome_iff_exists.mp hq
  exact (h.indexed q info' hinfo').imp (fun ⟨info, hinfo, _⟩ => by simp [hinfo])
    fun hmem => ⟨_, hmem⟩

theorem grows (h : Registered s₀ s) (hg : Grows s s') : Registered s₀ s' := by
  obtain ⟨ext, he, hb⟩ := hg.outbound
  obtain ⟨ext₀, he₀⟩ := h.outbound
  refine ⟨hg.localPeerId.trans h.localPeerId, ⟨ext₀ ++ ext, by rw [he, he₀, List.append_assoc]⟩,
    fun q info' hq => ?_, ?_⟩
  · rcases hg.registered q info' hq with ⟨info, hinfo, haddr⟩ | hreg
    · exact (h.indexed q info hinfo).imp (fun ⟨i, hi, ha⟩ => ⟨i, hi, ha.trans haddr⟩)
        fun hmem => by rw [he, ← haddr]; exact List.mem_append_left _ hmem
    · exact .inr hreg
  · rw [he]
    exact h.heartbeats.append fun q hq => absurd hq (hb q)

theorem sendHeartbeat (h : Registered s₀ s) {q : WrappedPeerId} {now : UInt64}
    (hs : Gossip.sendHeartbeat q now s = .next s') : Registered s₀ s' := by
  rcases sendHeartbeat_eq_next hs with ⟨rfl, -⟩ | ⟨-, hq, hs'⟩
  · exact h
  have hsent : HeartbeatsRegistered (fun q => (s₀.knownPeers q).isSome) s₀.outbound.length
      (s.outbound ++ [.heartbeat q]) :=
    h.heartbeats.append fun r hr => by
      obtain rfl : r = q := by simpa using hr
      exact h.registered_of_isSome hq
  obtain ⟨ext₀, he₀⟩ := h.outbound
  have hout : ∃ ext, s.outbound ++ [.heartbeat q] = s₀.outbound ++ ext :=
    ⟨ext₀ ++ [.heartbeat q], by rw [he₀, List.append_assoc]⟩
  rcases hs' with ⟨-, rfl⟩ | ⟨-, rfl⟩
  · exact ⟨h.localPeerId, hout, fun r info' hr => (h.indexed r info' hr).imp_right
      (List.mem_append_left _), hsent⟩
  · refine ⟨h.localPeerId, hout, fun r info' hr => ?_, hsent⟩
    have hrq : r ≠ q := fun hrq => by simp [removePeers, hrq] at hr
    exact (h.indexed r info' (by simpa [removePeers, hrq] using hr)).imp_right
      (List.mem_append_left _)

theorem step (h : Registered s₀ s) (e : HeartbeatEvent) (hs : e.step s = .next s') :
    Registered s₀ s' := by
  cases e with
  | sendHeartbeat q now => exact h.sendHeartbeat hs
  | recordHeartbeat q now => exact h.grows (Outcome.next.inj hs ▸ grows_recordHeartbeat q now s)
  | mergePeerIndex incoming now => exact h.grows (grows_step_mergePeerIndex hs)

theorem runEvents (es : List HeartbeatEvent) {s s' : HeartbeatState}
    (hrun : Gossip.runEvents es s = .next s') : Registered s s' :=
  runEvents_induction (Registered s) (fun e _ _ h hs => h.step e hs) es (refl s) hrun

end Registered

/-- After every run of heartbeat events, each indexed peer was indexed at the start at the same
address, or the run has sent the network manager a `NewAddr` registering that address. -/
theorem indexed_peers_registered (es : List HeartbeatEvent) (s s' : HeartbeatState)
    (hrun : runEvents es s = .next s') (q : WrappedPeerId) (info' : PeerInfo)
    (hq : s'.knownPeers q = some info') :
    (∃ info, s.knownPeers q = some info ∧ info.addr = info'.addr) ∨
      GossipOutbound.newAddr q info'.addr ∈ s'.outbound :=
  (Registered.runEvents es hrun).indexed q info' hq

/-- A merge listing peer `2` at address `5` indexes it and registers that address. -/
theorem indexed_peers_registered_merge :
    let s' := mergeKnownPeers [(⟨2⟩, ⟨⟨2⟩, 5, 0⟩)] 3 oneStalePeer
    runEvents [.mergePeerIndex [("2", ⟨⟨2⟩, 5, 0⟩)] 3] oneStalePeer = .next s' ∧
    s'.knownPeers ⟨2⟩ = some ⟨⟨2⟩, 5, 3⟩ ∧
    ((∃ info, oneStalePeer.knownPeers ⟨2⟩ = some info ∧ info.addr = 5) ∨
      GossipOutbound.newAddr ⟨2⟩ 5 ∈ s'.outbound) :=
  ⟨rfl, rfl, indexed_peers_registered [.mergePeerIndex [("2", ⟨⟨2⟩, 5, 0⟩)] 3] oneStalePeer _ rfl
    ⟨2⟩ ⟨⟨2⟩, 5, 3⟩ rfl⟩

/-- Every heartbeat a run of heartbeat events sends goes to a peer indexed at the start of the
run or to one whose `NewAddr` the run sent before it, except the last message of a run that
panics: the heartbeat `send_heartbeat` sent before `maybe_expire_peer` found its recipient
unindexed. -/
theorem heartbeats_follow_registration (es : List HeartbeatEvent) (s : HeartbeatState)
    (pre : List GossipOutbound) (q : WrappedPeerId) (post : List GossipOutbound)
    (hsent : (runEvents es s).state.outbound = pre ++ .heartbeat q :: post)
    (hrunPart : s.outbound.length ≤ pre.length) :
    (s.knownPeers q).isSome ∨ (∃ a, GossipOutbound.newAddr q a ∈ pre) ∨
      (∃ s', runEvents es s = .panicked s') ∧ post = [] := by
  cases hrun : runEvents es s with
  | next s' =>
    rw [hrun] at hsent
    exact ((Registered.runEvents es hrun).heartbeats pre q post hsent hrunPart).imp_right .inl
  | panicked s' =>
    rw [hrun] at hsent
    obtain ⟨s₁, e, hreg, hstep⟩ := runEvents_induction_panicked (Registered s)
      (fun e _ _ h hs => h.step e hs) es (Registered.refl s) hrun
    obtain ⟨r, -, -, -, -, rfl⟩ := step_eq_panicked hstep
    rcases List.eq_nil_or_concat post with rfl | ⟨post', m, rfl⟩
    · exact .inr (.inr ⟨⟨_, rfl⟩, rfl⟩)
    · have hlog : s₁.outbound ++ [.heartbeat r] = (pre ++ .heartbeat q :: post') ++ [m] := by
        simpa [Outcome.state] using hsent
      exact (hreg.heartbeats pre q post' (List.append_inj_left' hlog rfl) hrunPart).imp_right .inl

/-- The heartbeat to the indexed peer `1` of `oneStalePeer` goes to a peer indexed at the start;
the heartbeat to the unindexed peer `2` that follows is the last message, sent as the run
panics. -/
theorem heartbeats_follow_registration_oneStalePeer :
    (runEvents [.sendHeartbeat ⟨1⟩ 3, .sendHeartbeat ⟨2⟩ 3] oneStalePeer).state.outbound =
      [] ++ .heartbeat ⟨1⟩ :: [.heartbeat ⟨2⟩] ∧
    oneStalePeer.outbound.length ≤ ([] : List GossipOutbound).length ∧
    ((oneStalePeer.knownPeers ⟨1⟩).isSome ∨
      (∃ a, GossipOutbound.newAddr ⟨1⟩ a ∈ ([] : List GossipOutbound)) ∨
      (∃ s', runEvents [.sendHeartbeat ⟨1⟩ 3, .sendHeartbeat ⟨2⟩ 3] oneStalePeer = .panicked s') ∧
        [GossipOutbound.heartbeat ⟨2⟩] = []) :=
  ⟨rfl, le_refl 0, heartbeats_follow_registration [.sendHeartbeat ⟨1⟩ 3, .sendHeartbeat ⟨2⟩ 3]
    oneStalePeer [] ⟨1⟩ [.heartbeat ⟨2⟩] rfl (le_refl 0)⟩

/-! ## The local peer -/

/-- The local peer is indexed. -/
def LocalIndexed (s : HeartbeatState) : Prop := (s.knownPeers s.localPeerId).isSome

theorem LocalIndexed.step {s s' : HeartbeatState} (h : LocalIndexed s) (e : HeartbeatEvent)
    (hs : e.step s = .next s') : LocalIndexed s' := by
  have hgrows : ∀ {s₁ : HeartbeatState}, Grows s s₁ → LocalIndexed s₁ := fun hg => by
    rw [LocalIndexed, hg.localPeerId]
    exact hg.indexed _ h
  cases e with
  | sendHeartbeat q now =>
    rcases sendHeartbeat_eq_next hs with ⟨rfl, -⟩ | ⟨hq, -, ⟨-, rfl⟩ | ⟨-, rfl⟩⟩
    · exact h
    · exact h
    · simpa [LocalIndexed, removePeers, hq.symm] using h
  | recordHeartbeat q now => exact hgrows (Outcome.next.inj hs ▸ grows_recordHeartbeat q now s)
  | mergePeerIndex incoming now => exact hgrows (grows_step_mergePeerIndex hs)

/-- Once the local peer is indexed, as the network manager does at startup, the heartbeat timer
never divides its wait period by zero: whatever heartbeat events run, each known-peer map it
observes holds the local peer, so no iteration panics while the maps hold fewer than `2^32`
peers. -/
theorem timer_never_panics_after_startup (s : HeartbeatState)
    (hlocal : (s.knownPeers s.localPeerId).isSome) (observed : List (List WrappedPeerId))
    (hobserved : ∀ peers ∈ observed, peers.length < 2 ^ 32 ∧
      ∃ es s', runEvents es s = .next s' ∧ ∀ p, p ∈ peers ↔ (s'.knownPeers p).isSome)
    (peerIndex : Nat) : (executionLoop s.localPeerId observed peerIndex).2.2 = false := by
  refine executionLoop_no_panic (fun peers hpeers => ⟨?_, (hobserved peers hpeers).1⟩) peerIndex
  obtain ⟨-, es, s', hrun, hmem⟩ := hobserved peers hpeers
  have hlocal' : LocalIndexed s' :=
    runEvents_induction LocalIndexed (fun e _ _ h hs => h.step e hs) es hlocal hrun
  have hsame : s'.localPeerId = s.localPeerId := (Registered.runEvents es hrun).localPeerId
  rw [LocalIndexed, hsame] at hlocal'
  exact List.length_pos_of_mem ((hmem _).mpr hlocal')

/-- Over `twoPeerBook`, which indexes its local peer, the timer reading the index `[0, 1]` does
not panic. -/
theorem timer_never_panics_twoPeerBook :
    (twoPeerBook.knownPeers twoPeerBook.localPeerId).isSome ∧
    (∀ peers ∈ [[(⟨0⟩ : WrappedPeerId), ⟨1⟩]], peers.length < 2 ^ 32 ∧
      ∃ es s', runEvents es twoPeerBook = .next s' ∧ ∀ p, p ∈ peers ↔ (s'.knownPeers p).isSome) ∧
    (executionLoop twoPeerBook.localPeerId [[⟨0⟩, ⟨1⟩]] 0).2.2 = false := by
  have hlocal : (twoPeerBook.knownPeers twoPeerBook.localPeerId).isSome := rfl
  have hobserved : ∀ peers ∈ [[(⟨0⟩ : WrappedPeerId), ⟨1⟩]], peers.length < 2 ^ 32 ∧
      ∃ es s', runEvents es twoPeerBook = .next s' ∧ ∀ p, p ∈ peers ↔ (s'.knownPeers p).isSome := by
    simp only [List.mem_singleton, forall_eq]
    refine ⟨by decide, [], twoPeerBook, rfl, fun ⟨n⟩ => ?_⟩
    simp only [twoPeerBook, List.mem_cons, WrappedPeerId.mk.injEq, List.mem_singleton,
      List.not_mem_nil, or_false]
    split_ifs with hn <;> simp <;> omega
  exact ⟨hlocal, hobserved, timer_never_panics_after_startup twoPeerBook hlocal _ hobserved 0⟩

end Renegade.Gossip
