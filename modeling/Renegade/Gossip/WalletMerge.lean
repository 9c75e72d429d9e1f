import Mathlib.Data.Finset.Basic
import Renegade.Common.IndexMap
import Renegade.Gossip.Heartbeat

/-!
# Merging the wallet replicas of a heartbeat

`merge_wallets` updates, for each wallet the local relayer manages, the set of peers believed to
replicate it, from the replicas an incoming heartbeat lists for that wallet. A read phase under
the read lock collects the managed wallets whose replicas are not a superset of the incoming
ones; a write phase inserts into each of those the incoming replicas for which the peer index
holds an entry, since an unknown peer cannot be dialled. The managed-wallet `HashMap` is
modelled by its entries in iteration order and each wallet by its metadata, the only part the
merge reads. A `HashSet` of replicas is a `Finset`; the loop over it, in whatever order the set
yields, is a fold whose body commutes.

The two phases run as one call. Its result is the closed form `mergedWallets`: each managed
wallet listed in the message gains the message's replicas of known peers and every other wallet
is unchanged. So the read phase skips exactly wallets the write phase would leave unchanged, no
`expect` of the write phase fails, and a second merge of the same message changes nothing.
-/

namespace Renegade.Gossip

/-- `WalletMetadata`: the peers believed to replicate a wallet. -/
@[ext] structure WalletMetadata where
  /-- `replicas`, a `HashSet<WrappedPeerId>`. -/
  replicas : Finset WrappedPeerId
  deriving DecidableEq

/-! ## The model -/

section Model

variable (peerWallets : WalletIdentifier → Option WalletMetadata)
  (knownPeers : WrappedPeerId → Option PeerInfo)

/-- One pass of the write phase's inner loop: insert a replica whose peer info is known. -/
def insertKnownReplica (replica : WrappedPeerId) (localReplicas : Finset WrappedPeerId) :
    Finset WrappedPeerId :=
  if (knownPeers replica).isNone then localReplicas else insert replica localReplicas

/-- The passes of the inner loop commute, so the loop does not depend on the set's order. -/
instance : LeftCommutative (insertKnownReplica knownPeers) :=
  ⟨fun a b s => by unfold insertKnownReplica; split_ifs <;> simp only [Finset.Insert.comm]⟩

/-- The write phase's inner loop over the message's replicas of one wallet. -/
def insertKnownReplicas (messageReplicas localReplicas : Finset WrappedPeerId) :
    Finset WrappedPeerId :=
  messageReplicas.val.foldr (insertKnownReplica knownPeers) localReplicas

/-- The read phase: the managed wallets listed in the message whose replicas are not a superset
of the message's, in iteration order. -/
def walletsToMerge (managedWallets : IndexMap WalletIdentifier WalletMetadata) :
    List WalletIdentifier :=
  managedWallets.entries.filterMap fun (walletId, walletInfo) =>
    match peerWallets walletId with
    | none => none
    | some incomingMetadata =>
      if incomingMetadata.replicas ⊆ walletInfo.replicas then none else some walletId

/-- One wallet of the write phase: the two `expect("missing wallet ID")` lookups, then the inner
loop on the wallet's replicas; `none` where an `expect` panics. -/
def mergeWallet (managedWallets : IndexMap WalletIdentifier WalletMetadata)
    (walletId : WalletIdentifier) : Option (IndexMap WalletIdentifier WalletMetadata) := do
  let _ ← managedWallets.get? walletId
  let messageMetadata ← peerWallets walletId
  pure (managedWallets.modify walletId fun walletInfo =>
    ⟨insertKnownReplicas knownPeers messageMetadata.replicas walletInfo.replicas⟩)

/-- `merge_wallets`: the managed wallets after merging a heartbeat's wallet map; `none` where
the code panics. -/
def mergeWallets (managedWallets : IndexMap WalletIdentifier WalletMetadata) :
    Option (IndexMap WalletIdentifier WalletMetadata) :=
  let toMerge := walletsToMerge peerWallets managedWallets
  if toMerge.isEmpty then some managedWallets
  else toMerge.foldlM (mergeWallet peerWallets knownPeers) managedWallets

/-- The replicas of a managed wallet after a merge: its own, joined with the message's replicas
of known peers when the message lists the wallet. -/
def mergedReplicas (walletId : WalletIdentifier) (localReplicas : Finset WrappedPeerId) :
    Finset WrappedPeerId :=
  match peerWallets walletId with
  | some incoming => localReplicas ∪ incoming.replicas.filter fun r => (knownPeers r).isSome
  | none => localReplicas

/-- The managed wallets after a merge, in closed form. -/
def mergedWallets (managedWallets : IndexMap WalletIdentifier WalletMetadata) :
    IndexMap WalletIdentifier WalletMetadata :=
  managedWallets.mapEntries fun e => ⟨mergedReplicas peerWallets knownPeers e.1 e.2.replicas⟩

end Model

/-! ## The inner loop and the closed form -/

section Merge

variable {peerWallets : WalletIdentifier → Option WalletMetadata}
  {knownPeers : WrappedPeerId → Option PeerInfo}

/-- The inner loop joins the message's replicas of known peers to the wallet's. -/
theorem insertKnownReplicas_eq (messageReplicas localReplicas : Finset WrappedPeerId) :
    insertKnownReplicas knownPeers messageReplicas localReplicas =
      localReplicas ∪ messageReplicas.filter fun r => (knownPeers r).isSome := by
  induction messageReplicas using Finset.induction_on with
  | empty => simp [insertKnownReplicas]
  | insert ha ih =>
    rename_i a s
    rw [insertKnownReplicas, Finset.insert_val_of_not_mem ha, Multiset.foldr_cons,
      ← insertKnownReplicas, ih, Finset.filter_insert, insertKnownReplica]
    cases knownPeers a <;> simp [Finset.union_insert]

/-- Merging twice adds nothing to the first merge. -/
@[simp] theorem mergedReplicas_mergedReplicas (walletId : WalletIdentifier)
    (localReplicas : Finset WrappedPeerId) :
    mergedReplicas peerWallets knownPeers walletId
        (mergedReplicas peerWallets knownPeers walletId localReplicas) =
      mergedReplicas peerWallets knownPeers walletId localReplicas := by
  unfold mergedReplicas
  split <;> simp [Finset.union_assoc]

/-- A wallet whose replicas contain the message's keeps them. -/
theorem mergedReplicas_of_subset {walletId : WalletIdentifier} {incoming : WalletMetadata}
    (hP : peerWallets walletId = some incoming) {localReplicas : Finset WrappedPeerId}
    (hsub : incoming.replicas ⊆ localReplicas) :
    mergedReplicas peerWallets knownPeers walletId localReplicas = localReplicas := by
  rw [mergedReplicas, hP]
  exact Finset.union_eq_left.mpr ((Finset.filter_subset _ _).trans hsub)

/-- A wallet the read phase collects is managed and listed in the message. -/
theorem mem_walletsToMerge {managedWallets : IndexMap WalletIdentifier WalletMetadata}
    {walletId : WalletIdentifier} (h : walletId ∈ walletsToMerge peerWallets managedWallets) :
    walletId ∈ managedWallets.keys ∧ ∃ incoming, peerWallets walletId = some incoming := by
  obtain ⟨⟨k, walletInfo⟩, he, hk⟩ := List.mem_filterMap.mp h
  dsimp only at hk
  split at hk
  · cases hk
  · rename_i incoming hP
    split_ifs at hk
    cases hk
    exact ⟨List.mem_map_of_mem _ he, incoming, hP⟩

/-- The read phase skips only wallets that the write phase leaves unchanged. -/
theorem mergedReplicas_of_not_mem_walletsToMerge
    {managedWallets : IndexMap WalletIdentifier WalletMetadata}
    {e : WalletIdentifier × WalletMetadata} (he : e ∈ managedWallets.entries)
    (hskip : e.1 ∉ walletsToMerge peerWallets managedWallets) :
    mergedReplicas peerWallets knownPeers e.1 e.2.replicas = e.2.replicas := by
  match hP : peerWallets e.1 with
  | none => rw [mergedReplicas, hP]
  | some incoming =>
    refine mergedReplicas_of_subset hP (Classical.byContradiction fun hsub => hskip ?_)
    exact List.mem_filterMap.mpr ⟨e, he, by simp only [hP, if_neg hsub]⟩

/-- One wallet of the write phase, on a managed wallet listed in the message, merges that
wallet's replicas. -/
theorem mergeWallet_eq {managedWallets : IndexMap WalletIdentifier WalletMetadata}
    {walletId : WalletIdentifier} (hkey : walletId ∈ managedWallets.keys)
    {incoming : WalletMetadata} (hP : peerWallets walletId = some incoming) :
    mergeWallet peerWallets knownPeers managedWallets walletId =
      some (managedWallets.mapEntries fun e =>
        if e.1 = walletId then ⟨mergedReplicas peerWallets knownPeers e.1 e.2.replicas⟩
        else e.2) := by
  obtain ⟨walletInfo, hget⟩ := Option.isSome_iff_exists.mp
    ((IndexMap.isSome_get?_iff _ _).mpr hkey)
  simp only [mergeWallet, hget, hP, Option.bind_eq_bind, Option.some_bind, Option.pure_def,
    IndexMap.modify]
  congr 2
  funext e
  split_ifs with h
  · rw [h, mergedReplicas, hP, insertKnownReplicas_eq]
  · rfl

/-- The write phase over wallets that are managed and listed in the message merges each of them
and leaves the others unchanged. -/
theorem foldlM_mergeWallet : ∀ (toMerge : List WalletIdentifier)
    (managedWallets : IndexMap WalletIdentifier WalletMetadata),
    (∀ walletId ∈ toMerge, walletId ∈ managedWallets.keys ∧
      ∃ incoming, peerWallets walletId = some incoming) →
    toMerge.foldlM (mergeWallet peerWallets knownPeers) managedWallets =
      some (managedWallets.mapEntries fun e =>
        if e.1 ∈ toMerge then ⟨mergedReplicas peerWallets knownPeers e.1 e.2.replicas⟩ else e.2)
  | [], managedWallets, _ => by
    rw [List.foldlM_nil, IndexMap.mapEntries_congr (fun e _ => if_neg (List.not_mem_nil _)),
      IndexMap.mapEntries_snd]
    rfl
  | walletId :: toMerge, managedWallets, h => by
    obtain ⟨hkey, incoming, hP⟩ := h walletId (List.mem_cons_self _ _)
    have h' : ∀ w ∈ toMerge, w ∈ (managedWallets.mapEntries fun e =>
        if e.1 = walletId then ⟨mergedReplicas peerWallets knownPeers e.1 e.2.replicas⟩
        else e.2).keys ∧ ∃ incoming, peerWallets w = some incoming := by
      simpa using fun w hw => h w (List.mem_cons_of_mem _ hw)
    rw [List.foldlM_cons, mergeWallet_eq hkey hP, Option.bind_eq_bind, Option.some_bind,
      foldlM_mergeWallet _ _ h',
      IndexMap.mapEntries_mapEntries]
    refine congrArg _ (IndexMap.mapEntries_congr fun e _ => ?_)
    by_cases h₁ : e.1 = walletId <;> by_cases h₂ : e.1 ∈ toMerge <;> simp [h₁, h₂]

/-- `merge_wallets` never panics and computes the closed form. -/
theorem mergeWallets_eq (managedWallets : IndexMap WalletIdentifier WalletMetadata) :
    mergeWallets peerWallets knownPeers managedWallets =
      some (mergedWallets peerWallets knownPeers managedWallets) := by
  have hskip : managedWallets.mapEntries (fun e =>
      if e.1 ∈ walletsToMerge peerWallets managedWallets then
        ⟨mergedReplicas peerWallets knownPeers e.1 e.2.replicas⟩ else e.2) =
      mergedWallets peerWallets knownPeers managedWallets := by
    refine IndexMap.mapEntries_congr fun e he => ?_
    split_ifs with h
    · rfl
    · exact WalletMetadata.ext (mergedReplicas_of_not_mem_walletsToMerge he h).symm
  rw [← hskip, ← foldlM_mergeWallet _ _ fun _ => mem_walletsToMerge, mergeWallets]
  split_ifs with h
  · rw [List.isEmpty_iff.mp h, List.foldlM_nil]
    rfl
  · rfl

/-- The closed form absorbs a second merge. -/
theorem mergedWallets_mergedWallets (managedWallets : IndexMap WalletIdentifier WalletMetadata) :
    mergedWallets peerWallets knownPeers (mergedWallets peerWallets knownPeers managedWallets) =
      mergedWallets peerWallets knownPeers managedWallets := by
  rw [mergedWallets, mergedWallets, IndexMap.mapEntries_mapEntries]
  exact IndexMap.mapEntries_congr fun e _ => by simp

end Merge

/-- For every managed-wallet index, known-peer index and heartbeat wallet map, `merge_wallets`
does not panic and keeps the managed wallets; a managed wallet listed in the message ends with
its replicas joined with the message's replicas of known peers, every other one keeps its
replicas, and merging the same message again changes nothing. -/
theorem mergeWallets_replicas (peerWallets : WalletIdentifier → Option WalletMetadata)
    (knownPeers : WrappedPeerId → Option PeerInfo)
    (managedWallets : IndexMap WalletIdentifier WalletMetadata) :
    ∃ merged, mergeWallets peerWallets knownPeers managedWallets = some merged ∧
      merged.keys = managedWallets.keys ∧
      (∀ walletId walletInfo incoming, managedWallets.get? walletId = some walletInfo →
        peerWallets walletId = some incoming →
        (merged.get? walletId).map WalletMetadata.replicas =
          some (walletInfo.replicas ∪ incoming.replicas.filter fun r => (knownPeers r).isSome)) ∧
      (∀ walletId walletInfo, managedWallets.get? walletId = some walletInfo →
        peerWallets walletId = none →
        (merged.get? walletId).map WalletMetadata.replicas = some walletInfo.replicas) ∧
      mergeWallets peerWallets knownPeers merged = some merged := by
  refine ⟨_, mergeWallets_eq managedWallets, IndexMap.keys_mapEntries _ _, ?_, ?_, ?_⟩
  · intro walletId walletInfo incoming hget hP
    rw [mergedWallets, IndexMap.get?_mapEntries, hget]
    simp [mergedReplicas, hP]
  · intro walletId walletInfo hget hP
    rw [mergedWallets, IndexMap.get?_mapEntries, hget]
    simp [mergedReplicas, hP]
  · rw [mergeWallets_eq, mergedWallets_mergedWallets]

end Renegade.Gossip
