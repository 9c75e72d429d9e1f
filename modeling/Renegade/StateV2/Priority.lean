import Renegade.StateV2.NullifierIndex

/-!
# Order priorities over whole runs of the applicator

`new_order` writes the order's priority in the transaction that indexes it: the priority of its
cluster from `PRIORITIES_TABLE`, or `CLUSTER_DEFAULT_PRIORITY`, with `ORDER_DEFAULT_PRIORITY` as
the order's own. No handler of the order book writes a cluster priority or moves an order to
another cluster, and attaching a proof or cancelling rewrites a stored order under its own id.
So along every run of the handlers, whatever the storage faults, every stored order has the
priority `new_order` gave it, and `get_effective_priority`, a `u32` product, is its cluster's
priority, with no overflow.
-/

namespace Renegade.StateV2

open Tables

/-- `OrderPriority::get_effective_priority`: the product of the two priorities, in `u32`. -/
def OrderPriority.getEffectivePriority (p : OrderPriority) : UInt32 :=
  p.clusterPriority * p.orderPriority

/-- The priority `write_order_priority_with_tx` writes for an order. -/
def Tables.orderPriority (t : Tables) (o : NetworkOrder) : OrderPriority :=
  ⟨(t.clusterPriorities o.cluster).getD clusterDefaultPriority, orderDefaultPriority⟩

/-- At the default order priority the effective priority is the cluster's, without overflow. -/
theorem getEffectivePriority_orderPriority (t : Tables) (o : NetworkOrder) :
    (t.orderPriority o).clusterPriority.toNat * (t.orderPriority o).orderPriority.toNat < 2 ^ 32 ∧
      (t.orderPriority o).getEffectivePriority = (t.orderPriority o).clusterPriority := by
  have hlt := ((t.clusterPriorities o.cluster).getD clusterDefaultPriority).toBitVec.isLt
  exact ⟨by simpa [Tables.orderPriority, orderDefaultPriority] using hlt,
    UInt32.eq_of_toBitVec_eq (BitVec.mul_one _)⟩

/-! ## The invariant -/

/-- Every order is stored under its own id with the priority `new_order` writes for it. -/
structure PrioritiesStored (t : Tables) : Prop where
  /-- Every order is stored under its own id. -/
  keyed : ∀ id o, t.orders id = some o → o.id = id
  /-- Every stored order has the priority of its cluster at the default order priority. -/
  stored : ∀ id o, t.orders id = some o → t.priorities id = some (t.orderPriority o)

namespace PrioritiesStored

variable {t : Tables}

/-- Writing an order under its own id, with the priority of its cluster, keeps the invariant. -/
theorem of_update (h : PrioritiesStored t) {t' : Tables} {id : OrderIdentifier}
    (o' : NetworkOrder) (hid : o'.id = id)
    (horders : t'.orders = Function.update t.orders id (some o'))
    (hcluster : t'.clusterPriorities = t.clusterPriorities)
    (hprio : t'.priorities = Function.update t.priorities id (some (t.orderPriority o'))) :
    PrioritiesStored t' := by
  have hsame : ∀ o, t'.orderPriority o = t.orderPriority o := fun o => by
    rw [Tables.orderPriority, hcluster, Tables.orderPriority]
  refine ⟨fun j o hj => ?_, fun j o hj => ?_⟩ <;> rw [horders] at hj <;> by_cases hj' : j = id
  · subst hj'
    rw [Function.update_same, Option.some.injEq] at hj
    exact hj ▸ hid
  · exact h.keyed j o (by rwa [Function.update_noteq hj'] at hj)
  · subst hj'
    rw [Function.update_same, Option.some.injEq] at hj
    rw [hprio, Function.update_same, hsame, hj]
  · rw [Function.update_noteq hj'] at hj
    rw [hprio, Function.update_noteq hj', hsame]
    exact h.stored j o hj

/-- Rewriting a stored order under its id, in the same cluster, keeps the invariant. -/
theorem of_rewrite (h : PrioritiesStored t) {t' : Tables} {id : OrderIdentifier}
    {o : NetworkOrder} (o' : NetworkOrder) (ho : t.orders id = some o) (hid : o'.id = o.id)
    (hcl : o'.cluster = o.cluster)
    (horders : t'.orders = Function.update t.orders o'.id (some o'))
    (hcluster : t'.clusterPriorities = t.clusterPriorities)
    (hprio : t'.priorities = t.priorities) : PrioritiesStored t' := by
  have hkey : o'.id = id := hid.trans (h.keyed id o ho)
  refine h.of_update o' hkey (hkey ▸ horders) hcluster ?_
  rw [hprio, eq_comm, Function.update_eq_self_iff, h.stored id o ho, Tables.orderPriority,
    Tables.orderPriority, hcl]

theorem cancelOrders : ∀ {t : Tables} (_ : PrioritiesStored t) {ids : List OrderIdentifier}
    {t' : Tables}, t.cancelOrders ids = some t' → PrioritiesStored t'
  | _, h, [], _, ht => Option.some.inj ht ▸ h
  | t, h, _ :: _, _, ht => by
    obtain ⟨t₁, h₁, h₂⟩ := Option.bind_eq_some.mp ht
    obtain ⟨o, ho, rfl⟩ := Option.map_eq_some'.mp h₁
    have hcancel : PrioritiesStored (t.putOrder (NetworkOrder.cancelled o)) :=
      h.of_rewrite (NetworkOrder.cancelled o) ho rfl rfl rfl rfl rfl
    exact cancelOrders hcancel h₂

/-- Every committed step keeps the invariant. -/
theorem commitStep (h : PrioritiesStored t) {c : OrderBookCall} {t' : Tables}
    (ht : c.commitStep t = some t') : PrioritiesStored t' := by
  cases c with
  | newOrder o =>
    cases ht
    exact h.of_update o rfl (by simp) (by simp) (by simp [Tables.orderPriority])
  | addOrderValidityProof id proof =>
    obtain ⟨info, hinfo, rfl⟩ := Option.map_eq_some'.mp ht
    exact h.of_rewrite (NetworkOrder.withProof info proof) hinfo rfl rfl
      (attachValidityProof_orders _ _ _ _) (by simp) (by simp)
  | nullifyOrders n => exact h.cancelOrders ht

end PrioritiesStored

theorem Tables.clusterPriorities_cancelOrders : ∀ {t : Tables} {ids : List OrderIdentifier}
    {t' : Tables}, t.cancelOrders ids = some t' → t'.clusterPriorities = t.clusterPriorities
  | _, [], _, ht => (Option.some.inj ht).symm ▸ rfl
  | _, _ :: _, _, ht => by
    obtain ⟨t₁, h₁, h₂⟩ := Option.bind_eq_some.mp ht
    obtain ⟨o, -, rfl⟩ := Option.map_eq_some'.mp h₁
    exact (clusterPriorities_cancelOrders h₂).trans rfl

/-- No committed step writes a cluster priority. -/
theorem OrderBookCall.clusterPriorities_commitStep {c : OrderBookCall} {t t' : Tables}
    (ht : c.commitStep t = some t') : t'.clusterPriorities = t.clusterPriorities := by
  cases c with
  | newOrder o =>
    cases ht
    simp
  | addOrderValidityProof id proof =>
    obtain ⟨info, -, rfl⟩ := Option.map_eq_some'.mp ht
    simp
  | nullifyOrders n => exact Tables.clusterPriorities_cancelOrders ht

/-- A property of the committed tables that every committed step keeps holds after every run. -/
theorem runCalls_store_induction (P : Tables → Prop)
    (hstep : ∀ (c : OrderBookCall) {t t' : Tables}, P t → c.commitStep t = some t' → P t') :
    ∀ (calls : List OrderBookCall) {s : AppState}, P s.store → P (runCalls calls s).store
  | [], _, h => h
  | c :: cs, s, h => by
    refine runCalls_store_induction P hstep cs ?_
    rcases c.store_apply s with he | he
    · exact he ▸ h
    · exact hstep c h he

/-- From a book where every order is stored under its own id with the priority `new_order` gives
it, after any sequence of `new_order`, `add_order_validity_proof` and `nullify_orders` calls, each
committing or aborting, every stored order still has that priority: its cluster's priority from
the initial tables, or `CLUSTER_DEFAULT_PRIORITY`, at `ORDER_DEFAULT_PRIORITY`. Its effective
priority is that cluster priority, and the `u32` product does not overflow. -/
theorem effectivePriority_runCalls (calls : List OrderBookCall) (s : AppState)
    (hkeyed : ∀ id o, s.store.orders id = some o → o.id = id)
    (hstored : ∀ id o, s.store.orders id = some o →
      s.store.priorities id = some (s.store.orderPriority o))
    (id : OrderIdentifier) (o : NetworkOrder) (ho : (runCalls calls s).store.orders id = some o) :
    let p := s.store.orderPriority o
    (runCalls calls s).store.priorities id = some p ∧
      p.clusterPriority = (s.store.clusterPriorities o.cluster).getD clusterDefaultPriority ∧
      p.orderPriority = orderDefaultPriority ∧
      p.clusterPriority.toNat * p.orderPriority.toNat < 2 ^ 32 ∧
      p.getEffectivePriority = p.clusterPriority := by
  have hinv := runCalls_store_induction PrioritiesStored (fun _ _ _ h ht => h.commitStep ht)
    calls ⟨hkeyed, hstored⟩
  have hcluster : (runCalls calls s).store.clusterPriorities = s.store.clusterPriorities :=
    runCalls_store_induction (fun t => t.clusterPriorities = s.store.clusterPriorities)
      (fun _ _ _ h ht => (OrderBookCall.clusterPriorities_commitStep ht).trans h) calls rfl
  have hp : (runCalls calls s).store.orderPriority o = s.store.orderPriority o := by
    rw [Tables.orderPriority, hcluster, Tables.orderPriority]
  exact ⟨hp ▸ hinv.stored id o ho, rfl, rfl, getEffectivePriority_orderPriority s.store o⟩

/-- A run on the empty book that adds an order of cluster `c` and nullifies it leaves it cancelled
with the default priorities. -/
theorem effectivePriority_runCalls_empty :
    let calls : List OrderBookCall :=
      [.newOrder ⟨1, 7, ⟨"c"⟩, .received, none, none, true⟩, .nullifyOrders 7]
    let o : NetworkOrder := ⟨1, 7, ⟨"c"⟩, .cancelled, none, none, true⟩
    let p := AppState.empty.store.orderPriority o
    (∀ id o, AppState.empty.store.orders id = some o → o.id = id) ∧
    (∀ id o, AppState.empty.store.orders id = some o →
      AppState.empty.store.priorities id = some (AppState.empty.store.orderPriority o)) ∧
    (runCalls calls AppState.empty).store.orders 1 = some o ∧
    (runCalls calls AppState.empty).store.priorities 1 = some p ∧
      p.clusterPriority =
        (AppState.empty.store.clusterPriorities o.cluster).getD clusterDefaultPriority ∧
      p.orderPriority = orderDefaultPriority ∧
      p.clusterPriority.toNat * p.orderPriority.toNat < 2 ^ 32 ∧
      p.getEffectivePriority = p.clusterPriority := by
  intro calls o p
  have hkeyed : ∀ id o, AppState.empty.store.orders id = some o → o.id = id :=
    fun _ _ h => nomatch h
  have hstored : ∀ id o, AppState.empty.store.orders id = some o →
      AppState.empty.store.priorities id = some (AppState.empty.store.orderPriority o) :=
    fun _ _ h => nomatch h
  have hrun : (runCalls calls AppState.empty).store.orders 1 = some o := rfl
  exact ⟨hkeyed, hstored, hrun,
    effectivePriority_runCalls calls AppState.empty hkeyed hstored 1 o hrun⟩

end Renegade.StateV2
