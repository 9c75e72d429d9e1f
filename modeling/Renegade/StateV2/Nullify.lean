import Renegade.StateV2.NullifierIndex

/-!
# Nullifying orders

On a reachable order book the nullifier set of `n` lists exactly the stored orders carrying `n`,
so `nullify_orders(n)` finds every one of them, never misses an entry, and with no storage fault
commits their cancellation and nothing else. The bus messages of the cancellations are published
inside the transaction, before `tx.commit()`: when the commit fails the handler returns an error,
the tables are as before, and subscribers have been told of a cancellation that never happened.
-/

namespace Renegade.StateV2

open Tables

/-- Cancelling a list of stored orders, each stored under its own id, rewrites exactly their
records. -/
theorem cancelOrders_eq : ∀ {t : Tables} {ids : List OrderIdentifier},
    (∀ id o, t.orders id = some o → o.id = id) → (∀ id ∈ ids, t.orders id ≠ none) →
    t.cancelOrders ids = some { t with orders := (fun x =>
      if x ∈ ids then (t.orders x).map NetworkOrder.cancelled else t.orders x) }
  | t, [], _, _ => by simp [Tables.cancelOrders]
  | t, id :: ids, hk, h => by
    obtain ⟨o, ho⟩ := Option.ne_none_iff_exists'.mp (h id (List.mem_cons_self _ _))
    have hput : (t.putOrder (NetworkOrder.cancelled o)).orders =
        Function.update t.orders id (some (NetworkOrder.cancelled o)) := by
      rw [putOrder_orders, NetworkOrder.cancelled_id, hk id o ho]
    have hk' : ∀ x o', (t.putOrder (NetworkOrder.cancelled o)).orders x = some o' → o'.id = x := by
      intro x o' hx
      rw [hput] at hx
      by_cases hxid : x = id
      · subst hxid
        rw [Function.update_same, Option.some.injEq] at hx
        rw [← hx, NetworkOrder.cancelled_id, hk x o ho]
      · rw [Function.update_noteq hxid] at hx
        exact hk x o' hx
    have hrest : ∀ x ∈ ids, (t.putOrder (NetworkOrder.cancelled o)).orders x ≠ none := by
      intro x hx
      rw [hput]
      by_cases hxid : x = id
      · subst hxid
        simp
      · simpa [Function.update_noteq hxid] using h x (List.mem_cons_of_mem _ hx)
    rw [Tables.cancelOrders, Tables.cancelOrder, ho, Option.map_some', Option.some_bind,
      cancelOrders_eq hk' hrest, hput]
    congr 2
    funext x
    by_cases hxid : x = id
    · subst hxid
      by_cases hx : x ∈ ids <;> simp [hx, ho]
    · by_cases hx : x ∈ ids <;> simp [hx, hxid, Function.update_noteq hxid]

/-- On every order book reachable from an empty one, `nullify_orders(n)` without storage faults
returns `Ok`, cancels every stored order carrying `n` and drops its proofs and witnesses, and
leaves every other order, every nullifier set and the priorities table as they were. -/
theorem nullifyOrders_reachable (calls : List OrderBookCall) (s₀ : AppState)
    (horders : ∀ id, s₀.store.orders id = none) (hsets : ∀ n, s₀.store.nullifierSets n = none)
    (n : Nullifier) (hno : (runCalls calls s₀).NoFaults) :
    let s := runCalls calls s₀
    let r := nullifyOrders n s
    r.1 = .ok () ∧
    (∀ k o, s.store.orders k = some o → o.publicShareNullifier = n →
      r.2.store.orders k = some { o with state := .cancelled, validityProofWitnesses := none,
                                         validityProofs := none }) ∧
    (∀ k o, s.store.orders k = some o → o.publicShareNullifier ≠ n → r.2.store.orders k = some o) ∧
    (∀ k, s.store.orders k = none → r.2.store.orders k = none) ∧
    r.2.store.nullifierSets = s.store.nullifierSets ∧
    r.2.store.priorities = s.store.priorities ∧
    r.2.store.clusterPriorities = s.store.clusterPriorities := by
  intro s r
  have h : NullifierIndexed s.store :=
    NullifierIndexed.runCalls calls (NullifierIndexed.of_empty horders hsets)
  have hall : ∀ id ∈ s.store.nullifierSet n, s.store.orders id ≠ none := fun id hid => by
    obtain ⟨o, ho, -⟩ := (h.mem_iff n id).mp hid
    simp [ho]
  obtain ⟨hok, hr⟩ : r.1 = .ok () ∧ r.2.store = _ :=
    inWriteTx_of_noFaults (nullifyOrdersWithTx_implements n) hno
      (by rw [cancelOrders_eq h.keyed hall]; rfl)
  have hmem : ∀ k o, s.store.orders k = some o →
      (k ∈ s.store.nullifierSet n ↔ o.publicShareNullifier = n) := fun k o ho =>
    ⟨fun hk => (h.eq_of_mem ho hk).symm, fun hn => (h.mem_iff n k).mpr ⟨o, ho, hn⟩⟩
  refine ⟨hok, fun k o ho hn => ?_, fun k o ho hn => ?_, fun k ho => ?_, ?_, ?_, ?_⟩
  · rw [hr]
    simp [(hmem k o ho).mpr hn, ho, NetworkOrder.cancelled]
  · rw [hr]
    simp [mt (hmem k o ho).mp hn, ho]
  · rw [hr]
    simp [ho]
  all_goals rw [hr]

/-- The nullifier `7` after one `new_order` of order `1` from the empty book. -/
theorem nullifyOrders_reachable_one :
    (∀ id, AppState.empty.store.orders id = none) ∧
    (∀ n, AppState.empty.store.nullifierSets n = none) ∧
    (runCalls [.newOrder ⟨1, 7, ⟨"cluster"⟩, .received, none, none, true⟩]
      AppState.empty).NoFaults ∧
    let s := runCalls [.newOrder ⟨1, 7, ⟨"cluster"⟩, .received, none, none, true⟩] AppState.empty
    let r := nullifyOrders 7 s
    r.1 = .ok () ∧
    (∀ k o, s.store.orders k = some o → o.publicShareNullifier = 7 →
      r.2.store.orders k = some { o with state := .cancelled, validityProofWitnesses := none,
                                         validityProofs := none }) ∧
    (∀ k o, s.store.orders k = some o → o.publicShareNullifier ≠ 7 → r.2.store.orders k = some o) ∧
    (∀ k, s.store.orders k = none → r.2.store.orders k = none) ∧
    r.2.store.nullifierSets = s.store.nullifierSets ∧
    r.2.store.priorities = s.store.priorities ∧
    r.2.store.clusterPriorities = s.store.clusterPriorities :=
  ⟨fun _ => rfl, fun _ => rfl, fun _ _ => rfl,
    nullifyOrders_reachable _ AppState.empty (fun _ => rfl) (fun _ => rfl) 7 fun _ _ => rfl⟩

/-- After `new_order` of order `1` under nullifier `7`, a `nullify_orders(7)` whose commit fails
returns the storage error and leaves the order uncancelled, yet has published its cancellation. -/
theorem nullifyOrders_commit_fails :
    let o : NetworkOrder := ⟨1, 7, ⟨"cluster"⟩, .received, none, none, true⟩
    let s := runCalls [.newOrder o] { AppState.empty with faults := fun k => k == 12 }
    let r := nullifyOrders 7 s
    r.1 = .error (.storage ⟨12⟩) ∧ r.2.store.orders 1 = some o ∧
      r.2.bus = s.bus ++ [.orderStateChange { o with state := .cancelled }] :=
  ⟨rfl, rfl, rfl⟩

end Renegade.StateV2
