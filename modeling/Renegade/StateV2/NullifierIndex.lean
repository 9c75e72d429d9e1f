import Renegade.StateV2.OrderBook

/-!
# The nullifier index of the order book

The applicator indexes every stored order by its public share nullifier. `NullifierIndexed`
states that the index is exact: orders are stored under their own ids, no nullifier set repeats
an id, and an id is in the set of a nullifier exactly when the order stored under it carries that
nullifier. Each handler's committed step preserves it, and an aborted handler leaves the tables
alone, so it holds after every run of the handlers from an empty order book, whatever the storage
faults. On such tables `nullify_orders` succeeds without faults and cancels exactly the orders of
the nullifier; its bus messages, however, go out before the commit.
-/

namespace Renegade.StateV2

open Tables

/-- The handlers of the order book that the replication log applies. -/
inductive OrderBookCall
  | newOrder (o : NetworkOrder)
  | addOrderValidityProof (id : OrderIdentifier) (proof : OrderValidityProofBundle)
  | nullifyOrders (n : Nullifier)

namespace OrderBookCall

/-- The applicator method a call runs. -/
def apply : OrderBookCall → AppM Unit
  | newOrder o => StateV2.newOrder o
  | addOrderValidityProof id proof => StateV2.addOrderValidityProof id proof
  | nullifyOrders n => StateV2.nullifyOrders n

/-- The tables a call commits, from the committed tables it starts on. -/
def commitStep : OrderBookCall → Tables → Option Tables
  | newOrder o, t => some ((t.putPriority o.id
      ⟨(t.clusterPriorities o.cluster).getD clusterDefaultPriority,
        orderDefaultPriority⟩).addOrder o)
  | addOrderValidityProof id proof, t =>
    (t.orders id).map fun info => t.attachValidityProof id info proof
  | nullifyOrders n, t => t.cancelOrders (t.nullifierSet n)

end OrderBookCall

/-- Apply calls in turn; each one commits or aborts, and the next starts from what it left. -/
def runCalls : List OrderBookCall → AppState → AppState
  | [], s => s
  | c :: cs, s => runCalls cs (c.apply s).2

/-- Publishing after a computation leaves its committed tables. -/
theorem store_bind_publish {α : Type} (m : AppM α) (k : α → SystemBusMessage) (s : AppState) :
    ((m >>= fun a => publish (k a)) s).2.store = (m s).2.store := by
  rw [run_bind]
  rcases m s with ⟨_ | _, _⟩ <;> rfl

/-- A call either aborts, leaving the committed tables, or commits its step. -/
theorem OrderBookCall.store_apply (c : OrderBookCall) (s : AppState) :
    (c.apply s).2.store = s.store ∨ c.commitStep s.store = some (c.apply s).2.store := by
  cases c with
  | newOrder o =>
    have hb := (writeOrderPriorityWithTx_implements o).seq (addOrderWithTx_implements o)
    rcases inWriteTx_store hb s with ⟨-, h⟩ | ⟨_, -, h⟩
    · exact .inl ((store_bind_publish _ _ s).trans h)
    · refine .inr ?_
      rw [apply, StateV2.newOrder, store_bind_publish]
      simp only [Option.some_bind, Option.some.injEq, Prod.mk.injEq, true_and] at h
      rw [← h]
      rfl
  | addOrderValidityProof id proof =>
    have hb := (attachValidityProofWithTx_implements id proof).seq
      (readOrderInfoUnchecked_implements id)
    rcases inWriteTx_store hb s with ⟨-, h⟩ | ⟨_, -, h⟩
    · exact .inl ((store_bind_publish _ _ s).trans h)
    · refine .inr ?_
      rw [apply, StateV2.addOrderValidityProof, store_bind_publish]
      obtain ⟨⟨_, t⟩, h₁, h₂⟩ := Option.bind_eq_some.mp h
      obtain ⟨info, hinfo, h₁⟩ := Option.map_eq_some'.mp h₁
      cases h₁
      obtain ⟨_, -, h₂⟩ := Option.map_eq_some'.mp h₂
      simp only [Prod.mk.injEq] at h₂
      simp [OrderBookCall.commitStep, hinfo, h₂.2]
  | nullifyOrders n =>
    rcases inWriteTx_store (nullifyOrdersWithTx_implements n) s with ⟨-, h⟩ | ⟨_, -, h⟩
    · exact .inl h
    · obtain ⟨t, ht, h⟩ := Option.map_eq_some'.mp h
      cases h
      exact .inr ht

/-! ## The invariant -/

/-- The nullifier index is exact. -/
structure NullifierIndexed (t : Tables) : Prop where
  /-- Every order is stored under its own id. -/
  keyed : ∀ id o, t.orders id = some o → o.id = id
  /-- No nullifier set repeats an id. -/
  nodup : ∀ n, (t.nullifierSet n).Nodup
  /-- An id is in a nullifier's set exactly when its order carries that nullifier. -/
  mem_iff : ∀ n id, id ∈ t.nullifierSet n ↔
    ∃ o, t.orders id = some o ∧ o.publicShareNullifier = n

namespace NullifierIndexed

variable {t : Tables}

/-- The empty order book is exactly indexed. -/
theorem of_empty (horders : ∀ id, t.orders id = none) (hsets : ∀ n, t.nullifierSets n = none) :
    NullifierIndexed t :=
  ⟨fun id o h => by simp [horders id] at h, fun n => by simp [nullifierSet, hsets n],
    fun n id => by simp [nullifierSet, hsets n, horders id]⟩

/-- An id in a set belongs to the nullifier of its stored order only. -/
theorem eq_of_mem (h : NullifierIndexed t) {n : Nullifier} {id : OrderIdentifier} {o : NetworkOrder}
    (ho : t.orders id = some o) (hm : id ∈ t.nullifierSet n) : n = o.publicShareNullifier := by
  obtain ⟨o', ho', rfl⟩ := (h.mem_iff n id).mp hm
  rw [ho] at ho'
  cases ho'
  rfl

/-- An id with no stored order is in no set. -/
theorem not_mem_of_none (h : NullifierIndexed t) {id : OrderIdentifier} (ho : t.orders id = none)
    (n : Nullifier) : id ∉ t.nullifierSet n := by
  rw [h.mem_iff]
  simp [ho]

/-- Writing order `o` and moving its id to the set of its nullifier keeps the index exact. -/
theorem reindex (h : NullifierIndexed t) {t' : Tables} (o : NetworkOrder)
    (horders : t'.orders = Function.update t.orders o.id (some o))
    (hnodup : ∀ n, (t'.nullifierSet n).Nodup)
    (hmem : ∀ n x, x ∈ t'.nullifierSet n ↔
      (x ∈ t.nullifierSet n ∧ x ≠ o.id) ∨ (x = o.id ∧ n = o.publicShareNullifier)) :
    NullifierIndexed t' := by
  refine ⟨fun id o' ho' => ?_, hnodup, fun n x => ?_⟩
  · rw [horders] at ho'
    by_cases hx : id = o.id
    · subst hx
      simp only [Function.update_same, Option.some.injEq] at ho'
      rw [← ho']
    · rw [Function.update_noteq hx] at ho'
      exact h.keyed id o' ho'
  · rw [hmem, horders]
    by_cases hx : x = o.id
    · subst hx
      simp [eq_comm]
    · simp [Function.update_noteq hx, hx, h.mem_iff]

/-! ## Membership in the sets after each transition -/

theorem mem_appendToNullifierSet (t : Tables) (n m : Nullifier) (id x : OrderIdentifier) :
    x ∈ (t.appendToNullifierSet n id).nullifierSet m ↔
      x ∈ t.nullifierSet m ∨ (x = id ∧ m = n) := by
  unfold Tables.appendToNullifierSet
  split
  · by_cases hm : m = n
    · subst hm
      constructor
      · exact .inl
      · rintro (h | ⟨rfl, -⟩) <;> assumption
    · simp [hm]
  · rw [nullifierSet_putNullifierSet]
    by_cases hm : m = n
    · subst hm
      simp
    · simp [hm]

theorem nodup_appendToNullifierSet {t : Tables} (h : ∀ n, (t.nullifierSet n).Nodup)
    (n m : Nullifier) (id : OrderIdentifier) :
    ((t.appendToNullifierSet n id).nullifierSet m).Nodup := by
  unfold Tables.appendToNullifierSet
  split
  · exact h m
  · rw [nullifierSet_putNullifierSet]
    split
    · subst m
      exact (h n).append (List.nodup_singleton id) (by simpa)
    · exact h m

theorem nodup_updateOrderNullifier {t : Tables} (h : ∀ n, (t.nullifierSet n).Nodup)
    (id : OrderIdentifier) (old new m : Nullifier) :
    ((t.updateOrderNullifier id old new).nullifierSet m).Nodup := by
  refine nodup_appendToNullifierSet (fun k => ?_) new m id
  rw [nullifierSet_putNullifierSet]
  split
  · exact (h old).filter _
  · exact h k

/-- Moving an indexed id from its own nullifier's set to another set. -/
theorem mem_updateOrderNullifier (h : NullifierIndexed t) {id : OrderIdentifier}
    {info : NetworkOrder} (hinfo : t.orders id = some info) (new m : Nullifier)
    (x : OrderIdentifier) :
    x ∈ (t.updateOrderNullifier id info.publicShareNullifier new).nullifierSet m ↔
      (x ∈ t.nullifierSet m ∧ x ≠ id) ∨ (x = id ∧ m = new) := by
  rw [Tables.updateOrderNullifier, mem_appendToNullifierSet, nullifierSet_putNullifierSet]
  by_cases hm : m = info.publicShareNullifier
  · subst hm
    simp
  · have : x ∈ t.nullifierSet m → x ≠ id := fun hx hxid => hm (h.eq_of_mem (hxid ▸ hinfo) hx)
    simp only [hm, if_false]
    constructor
    · rintro (hx | hx)
      · exact .inl ⟨hx, this hx⟩
      · exact .inr hx
    · rintro (hx | hx)
      · exact .inl hx.1
      · exact .inr hx

/-! ## Each committed step keeps the index exact -/

theorem addOrder (h : NullifierIndexed t) (o : NetworkOrder) : NullifierIndexed (t.addOrder o) := by
  unfold Tables.addOrder
  cases hinfo : t.orders o.id with
  | none =>
    refine h.reindex o (by simp) (fun n => nodup_appendToNullifierSet h.nodup _ n _) fun n x => ?_
    simp only [putOrder_nullifierSet, mem_appendToNullifierSet]
    have : x ∈ t.nullifierSet n → x ≠ o.id := fun hx hxid =>
      h.not_mem_of_none (hxid ▸ hinfo) n hx
    constructor
    · rintro (hx | hx)
      · exact .inl ⟨hx, this hx⟩
      · exact .inr hx
    · rintro (hx | hx)
      · exact .inl hx.1
      · exact .inr hx
  | some info =>
    exact h.reindex o (by simp) (nodup_updateOrderNullifier h.nodup _ _ _) fun n x =>
      h.mem_updateOrderNullifier hinfo _ n x

theorem putPriority (h : NullifierIndexed t) (id : OrderIdentifier) (p : OrderPriority) :
    NullifierIndexed (t.putPriority id p) :=
  ⟨h.keyed, h.nodup, h.mem_iff⟩

theorem attachValidityProof (h : NullifierIndexed t) {id : OrderIdentifier} {info : NetworkOrder}
    (hinfo : t.orders id = some info) (proof : OrderValidityProofBundle) :
    NullifierIndexed (t.attachValidityProof id info proof) := by
  have hid : (NetworkOrder.withProof info proof).id = id := h.keyed id info hinfo
  unfold Tables.attachValidityProof
  dsimp only
  split
  · refine h.reindex (NetworkOrder.withProof info proof) (by simp)
      (nodup_updateOrderNullifier h.nodup _ _ _) fun n x => ?_
    rw [putOrder_nullifierSet, hid, h.mem_updateOrderNullifier hinfo]
    rfl
  · rename_i hsame
    have hsame : info.publicShareNullifier =
        proof.reblindProof.statement.originalSharesNullifier := not_not.mp hsame
    refine h.reindex _ rfl h.nodup fun n x => ?_
    rw [putOrder_nullifierSet, hid]
    by_cases hx : x = id
    · subst hx
      simp [h.mem_iff, hinfo, hsame, eq_comm, NetworkOrder.withProof]
    · simp [hx]

theorem cancelOrder (h : NullifierIndexed t) {id : OrderIdentifier} {t' : Tables}
    (ht : t.cancelOrder id = some t') : NullifierIndexed t' := by
  obtain ⟨o, ho, rfl⟩ := Option.map_eq_some'.mp ht
  have hid : (NetworkOrder.cancelled o).id = id := h.keyed id o ho
  refine h.reindex _ rfl h.nodup fun n x => ?_
  rw [putOrder_nullifierSet, hid]
  by_cases hx : x = id
  · subst hx
    simp only [ne_eq, not_true_eq_false, and_false, true_and, false_or]
    constructor
    · intro hm
      have := h.eq_of_mem ho hm
      exact this
    · intro hn
      exact (h.mem_iff n x).mpr ⟨o, ho, hn.symm⟩
  · simp [hx]

theorem cancelOrders : ∀ {t : Tables} (_ : NullifierIndexed t) {ids : List OrderIdentifier}
    {t' : Tables}, t.cancelOrders ids = some t' → NullifierIndexed t'
  | _, h, [], _, ht => by
    cases ht
    exact h
  | _, h, _ :: _, _, ht => by
    obtain ⟨t₁, h₁, h₂⟩ := Option.bind_eq_some.mp ht
    exact cancelOrders (h.cancelOrder h₁) h₂

/-- Every committed step keeps the index exact. -/
theorem commitStep (h : NullifierIndexed t) {c : OrderBookCall} {t' : Tables}
    (ht : c.commitStep t = some t') : NullifierIndexed t' := by
  cases c with
  | newOrder o =>
    cases ht
    exact (h.putPriority _ _).addOrder o
  | addOrderValidityProof id proof =>
    obtain ⟨info, hinfo, rfl⟩ := Option.map_eq_some'.mp ht
    exact h.attachValidityProof hinfo proof
  | nullifyOrders n => exact h.cancelOrders ht

/-- Rewriting stored orders with their ids and nullifiers kept keeps the index exact. -/
theorem of_orders_map (h : NullifierIndexed t) {t' : Tables}
    (hsets : t'.nullifierSets = t.nullifierSets)
    (horders : ∀ id, (t'.orders id).map (fun o => (o.id, o.publicShareNullifier)) =
      (t.orders id).map fun o => (o.id, o.publicShareNullifier)) :
    NullifierIndexed t' := by
  have hset : ∀ n, t'.nullifierSet n = t.nullifierSet n := fun n => by
    rw [nullifierSet, nullifierSet, hsets]
  refine ⟨fun id o ho => ?_, fun n => hset n ▸ h.nodup n, fun n id => ?_⟩
  · obtain ⟨o', ho', he⟩ := Option.map_eq_some'.mp ((horders id).symm.trans (by rw [ho]; rfl))
    exact (congrArg Prod.fst he).symm.trans (h.keyed id o' ho')
  · rw [hset, h.mem_iff]
    have hid := horders id
    revert hid
    cases t'.orders id <;> cases t.orders id <;> simp
    intro _ he
    rw [he]

/-- Every run of the handlers keeps the index exact, whatever the storage faults. -/
theorem runCalls : ∀ (calls : List OrderBookCall) {s : AppState},
    NullifierIndexed s.store → NullifierIndexed (StateV2.runCalls calls s).store
  | [], _, h => h
  | c :: cs, s, h => by
    refine runCalls cs ?_
    rcases c.store_apply s with he | he
    · exact he ▸ h
    · exact h.commitStep he

end NullifierIndexed

/-- From an empty order book, after any sequence of `new_order`, `add_order_validity_proof` and
`nullify_orders` calls, each committing or aborting, every stored order's id occurs exactly once
in the set of its nullifier and in no other set, and every id of every set is that of a stored
order carrying the set's nullifier. -/
theorem nullifierIndex_runCalls (calls : List OrderBookCall) (s : AppState)
    (horders : ∀ id, s.store.orders id = none) (hsets : ∀ n, s.store.nullifierSets n = none) :
    let t := (runCalls calls s).store
    (∀ k o, t.orders k = some o → (t.nullifierSet o.publicShareNullifier).count o.id = 1) ∧
    (∀ k o n, t.orders k = some o → n ≠ o.publicShareNullifier → o.id ∉ t.nullifierSet n) ∧
    (∀ n id, id ∈ t.nullifierSet n →
      ∃ o, t.orders id = some o ∧ o.id = id ∧ o.publicShareNullifier = n) := by
  have h := NullifierIndexed.runCalls calls (NullifierIndexed.of_empty horders hsets)
  intro t
  refine ⟨fun k o ho => ?_, fun k o n ho hn hm => ?_, fun n id hm => ?_⟩
  · have hk := h.keyed k o ho
    subst hk
    exact List.count_eq_one_of_mem (h.nodup _) ((h.mem_iff _ _).mpr ⟨o, ho, rfl⟩)
  · have hk := h.keyed k o ho
    subst hk
    exact hn (h.eq_of_mem ho hm)
  · obtain ⟨o, ho, hn⟩ := (h.mem_iff n id).mp hm
    exact ⟨o, ho, h.keyed id o ho, hn⟩

/-- The empty order book, with no faults and nothing published. -/
def AppState.empty : AppState :=
  ⟨⟨fun _ => none, fun _ => none, fun _ => none, fun _ => none⟩,
    ⟨fun _ => none, fun _ => none, fun _ => none, fun _ => none⟩, 0, fun _ => false, []⟩

/-- The index law holds after a run that adds one order and nullifies it. -/
theorem nullifierIndex_runCalls_empty :
    (∀ id, AppState.empty.store.orders id = none) ∧
    (∀ n, AppState.empty.store.nullifierSets n = none) ∧
    let t := (runCalls
      [.newOrder ⟨1, 7, ⟨"cluster"⟩, .received, none, none, true⟩, .nullifyOrders 7]
      AppState.empty).store
    (∀ k o, t.orders k = some o → (t.nullifierSet o.publicShareNullifier).count o.id = 1) ∧
    (∀ k o n, t.orders k = some o → n ≠ o.publicShareNullifier → o.id ∉ t.nullifierSet n) ∧
    (∀ n id, id ∈ t.nullifierSet n →
      ∃ o, t.orders id = some o ∧ o.id = id ∧ o.publicShareNullifier = n) :=
  ⟨fun _ => rfl, fun _ => rfl, nullifierIndex_runCalls _ AppState.empty (fun _ => rfl) fun _ => rfl⟩

end Renegade.StateV2
