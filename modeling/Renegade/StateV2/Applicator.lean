import Renegade.Common.Types
import Mathlib.Logic.Function.Basic

/-!
# The state applicator over a transactional store with storage faults

The applicator runs each handler inside a write transaction of the embedded store. The model
keeps the committed tables and the open transaction's view side by side: a write transaction
starts from the committed tables, every read and write works on the view, and only a successful
commit replaces the committed tables. Every storage operation (opening the transaction, a read, a
write, the commit) is numbered, and a fault pattern says which of them fail. Messages published
on the system bus are not transactional and survive an abort.

`Implements m f` says that a transaction helper `m` refines a pure transition `f` of the view:
it leaves the committed tables and the fault pattern alone, its successful runs are steps of `f`,
and with no further faults it succeeds wherever `f` does. The combinators below build these facts
for a helper from those of its parts.
-/

namespace Renegade.StateV2

/-- The default priority for a cluster. -/
def clusterDefaultPriority : UInt32 := 1

/-- The default priority for an order. -/
def orderDefaultPriority : UInt32 := 1

/-- The error message emitted when an order is missing from the message. -/
def errOrderMissing : String := "Order missing from message"

/-- `OrderPriority`, the match priority for an order, including its cluster priority. -/
structure OrderPriority where
  /-- The priority of the cluster that the order is managed by. -/
  clusterPriority : UInt32
  /-- The priority of the order itself. -/
  orderPriority : UInt32
  deriving DecidableEq, Repr

/-- A storage error, by the index of the failing operation. -/
structure StorageError where
  /-- The index of the storage operation that failed. -/
  op : Nat
  deriving DecidableEq, Repr

/-- `StateApplicatorError`, restricted to the variants the order book raises. -/
inductive StateApplicatorError
  | storage (err : StorageError)
  | missingEntry (msg : String)
  deriving DecidableEq, Repr

/-- `SystemBusMessage`, the order book's messages on `ORDER_STATE_CHANGE_TOPIC`. -/
inductive SystemBusMessage
  | newOrder (order : NetworkOrder)
  | orderStateChange (order : NetworkOrder)
  deriving DecidableEq, Repr

/-- The tables the order book uses. `ORDERS_TABLE` holds orders under `order:{id}` and nullifier
sets under `nullifier:{nullifier}`; `PRIORITIES_TABLE` holds order priorities under order ids and
cluster priorities under cluster ids. -/
structure Tables where
  /-- `ORDERS_TABLE` at the order keys. -/
  orders : OrderIdentifier → Option NetworkOrder
  /-- `ORDERS_TABLE` at the nullifier keys. -/
  nullifierSets : Nullifier → Option (List OrderIdentifier)
  /-- `PRIORITIES_TABLE` at the order ids. -/
  priorities : OrderIdentifier → Option OrderPriority
  /-- `PRIORITIES_TABLE` at the cluster ids. -/
  clusterPriorities : ClusterId → Option UInt32

namespace Tables

/-- The nullifier set stored under a nullifier, or the empty default (`read_nullifier_set`). -/
def nullifierSet (t : Tables) (n : Nullifier) : List OrderIdentifier := (t.nullifierSets n).getD []

/-- Write an order under its own id (`write_order_info`). -/
def putOrder (t : Tables) (o : NetworkOrder) : Tables :=
  { t with orders := Function.update t.orders o.id (some o) }

/-- Write a nullifier set (`write_nullifier_set`). -/
def putNullifierSet (t : Tables) (n : Nullifier) (set : List OrderIdentifier) : Tables :=
  { t with nullifierSets := Function.update t.nullifierSets n (some set) }

/-- Write an order priority. -/
def putPriority (t : Tables) (id : OrderIdentifier) (p : OrderPriority) : Tables :=
  { t with priorities := Function.update t.priorities id (some p) }

@[simp] theorem putOrder_orders (t : Tables) (o : NetworkOrder) :
    (t.putOrder o).orders = Function.update t.orders o.id (some o) := rfl

@[simp] theorem putOrder_nullifierSet (t : Tables) (o : NetworkOrder) :
    (t.putOrder o).nullifierSet = t.nullifierSet := rfl

@[simp] theorem putOrder_nullifierSets (t : Tables) (o : NetworkOrder) :
    (t.putOrder o).nullifierSets = t.nullifierSets := rfl

@[simp] theorem putOrder_priorities (t : Tables) (o : NetworkOrder) :
    (t.putOrder o).priorities = t.priorities := rfl

@[simp] theorem putOrder_clusterPriorities (t : Tables) (o : NetworkOrder) :
    (t.putOrder o).clusterPriorities = t.clusterPriorities := rfl

@[simp] theorem putNullifierSet_orders (t : Tables) (n : Nullifier) (set : List OrderIdentifier) :
    (t.putNullifierSet n set).orders = t.orders := rfl

@[simp] theorem putNullifierSet_priorities (t : Tables) (n : Nullifier)
    (set : List OrderIdentifier) : (t.putNullifierSet n set).priorities = t.priorities := rfl

@[simp] theorem putNullifierSet_clusterPriorities (t : Tables) (n : Nullifier)
    (set : List OrderIdentifier) :
    (t.putNullifierSet n set).clusterPriorities = t.clusterPriorities := rfl

@[simp] theorem putPriority_orders (t : Tables) (id : OrderIdentifier) (p : OrderPriority) :
    (t.putPriority id p).orders = t.orders := rfl

@[simp] theorem putPriority_priorities (t : Tables) (id : OrderIdentifier) (p : OrderPriority) :
    (t.putPriority id p).priorities = Function.update t.priorities id (some p) := rfl

@[simp] theorem putPriority_clusterPriorities (t : Tables) (id : OrderIdentifier)
    (p : OrderPriority) : (t.putPriority id p).clusterPriorities = t.clusterPriorities := rfl

@[simp] theorem putPriority_nullifierSet (t : Tables) (id : OrderIdentifier) (p : OrderPriority) :
    (t.putPriority id p).nullifierSet = t.nullifierSet := rfl

theorem nullifierSet_putNullifierSet (t : Tables) (n m : Nullifier) (set : List OrderIdentifier) :
    (t.putNullifierSet n set).nullifierSet m = if m = n then set else t.nullifierSet m := by
  by_cases h : m = n
  · subst h
    simp [nullifierSet, putNullifierSet]
  · simp [nullifierSet, putNullifierSet, h]

end Tables

/-- The applicator's state: the committed tables, the open write transaction's view, the number of
storage operations issued, the fault pattern and the system bus. -/
structure AppState where
  /-- The committed tables. -/
  store : Tables
  /-- The view of the open write transaction. -/
  txn : Tables
  /-- The number of storage operations issued so far. -/
  ops : Nat
  /-- Which storage operations fail. -/
  faults : Nat → Bool
  /-- The messages published on the system bus. -/
  bus : List SystemBusMessage

/-- No storage operation fails from now on. -/
def AppState.NoFaults (s : AppState) : Prop := ∀ k, s.ops ≤ k → s.faults k = false

/-- A computation of the applicator: it returns a result and the state after, also on error. -/
def AppM (α : Type) : Type := AppState → Except StateApplicatorError α × AppState

instance : Monad AppM where
  pure a := fun s => (.ok a, s)
  bind m f := fun s =>
    match m s with
    | (.ok a, s') => f a s'
    | (.error e, s') => (.error e, s')

@[simp] theorem run_pure {α : Type} (a : α) (s : AppState) : (pure a : AppM α) s = (.ok a, s) := rfl

theorem run_bind {α β : Type} (m : AppM α) (f : α → AppM β) (s : AppState) :
    (m >>= f) s = match m s with
      | (.ok a, s') => f a s'
      | (.error e, s') => (.error e, s') := rfl

/-- Fail with an applicator error. -/
def fail {α : Type} (e : StateApplicatorError) : AppM α := fun s => (.error e, s)

/-- Issue one storage operation: count it, and fail it when the pattern says so. -/
def storageOp : AppM Unit := fun s =>
  (if s.faults s.ops then .error (.storage ⟨s.ops⟩) else .ok (), { s with ops := s.ops + 1 })

/-- A read of the transaction's view. -/
def readTxn {α : Type} (r : Tables → α) : AppM α := do
  storageOp
  fun s => (.ok (r s.txn), s)

/-- A write to the transaction's view. -/
def writeTxn (w : Tables → Tables) : AppM Unit := do
  storageOp
  fun s => (.ok (), { s with txn := w s.txn })

/-- `db.new_write_tx()`: open a write transaction on the committed tables. -/
def newWriteTx : AppM Unit := do
  storageOp
  fun s => (.ok (), { s with txn := s.store })

/-- `tx.commit()`: replace the committed tables by the transaction's view. -/
def commit : AppM Unit := do
  storageOp
  fun s => (.ok (), { s with store := s.txn })

/-- `system_bus().publish(ORDER_STATE_CHANGE_TOPIC, message)`. -/
def publish (msg : SystemBusMessage) : AppM Unit :=
  fun s => (.ok (), { s with bus := s.bus ++ [msg] })

/-- A write transaction around a body: open it, run the body, and commit. -/
def inWriteTx {α : Type} (body : AppM α) : AppM α := do
  newWriteTx
  let a ← body
  commit
  pure a

/-! ## Helpers that implement a transition of the transaction's view -/

/-- `m` refines the view transition `f` (`none` where `f` fails whatever the faults). -/
structure Implements {α : Type} (m : AppM α) (f : Tables → Option (α × Tables)) : Prop where
  /-- The committed tables and the fault pattern are untouched, and operations are only added. -/
  frame : ∀ s, (m s).2.store = s.store ∧ (m s).2.faults = s.faults ∧ s.ops ≤ (m s).2.ops
  /-- A successful run is a step of `f`. -/
  sound : ∀ s a s', m s = (.ok a, s') → f s.txn = some (a, s'.txn)
  /-- With no faults, `m` succeeds wherever `f` does. -/
  complete : ∀ s a t, s.NoFaults → f s.txn = some (a, t) → ∃ s', m s = (.ok a, s') ∧ s'.txn = t

namespace Implements

variable {α β : Type}

theorem pure (a : α) : Implements (Pure.pure a : AppM α) fun t => some (a, t) :=
  ⟨fun _ => ⟨rfl, rfl, le_rfl⟩, fun _ _ _ h => (by cases h; rfl),
    fun s _ _ _ h => (by cases h; exact ⟨s, rfl, rfl⟩)⟩

theorem fail (e : StateApplicatorError) : Implements (StateV2.fail e : AppM α) fun _ => none :=
  ⟨fun _ => ⟨rfl, rfl, le_rfl⟩, fun _ _ _ h => (by cases h), fun _ _ _ _ h => (by cases h)⟩

theorem publish (msg : SystemBusMessage) : Implements (StateV2.publish msg) fun t => some ((), t) :=
  ⟨fun _ => ⟨rfl, rfl, le_rfl⟩, fun _ _ _ h => (by cases h; rfl),
    fun s _ _ _ h => (by cases h; exact ⟨_, rfl, rfl⟩)⟩

/-- One storage operation followed by an infallible step of the view. -/
theorem storageOp_bind (r : Tables → α × Tables) :
    Implements (StateV2.storageOp >>= fun _ s => (.ok (r s.txn).1, { s with txn := (r s.txn).2 }))
      fun t => some (r t) := by
  refine ⟨fun s => ?_, fun s a s' h => ?_, fun s a t hs h => ?_⟩
  · by_cases hf : s.faults s.ops <;> simp [StateV2.storageOp, run_bind, hf]
  · by_cases hf : s.faults s.ops <;> simp [StateV2.storageOp, run_bind, hf] at h
    obtain ⟨rfl, rfl⟩ := h
    rfl
  · have h' : r s.txn = (a, t) := Option.some.inj h
    exact ⟨{ s with ops := s.ops + 1, txn := t },
      by simp [StateV2.storageOp, run_bind, hs s.ops le_rfl, h'], rfl⟩

theorem bind {m : AppM α} {g : α → AppM β} {f : Tables → Option (α × Tables)}
    {h : α → Tables → Option (β × Tables)} (hm : Implements m f)
    (hg : ∀ a, Implements (g a) (h a)) :
    Implements (m >>= g) fun t => (f t).bind fun p => h p.1 p.2 := by
  refine ⟨fun s => ?_, fun s b s'' hrun => ?_, fun s b t'' hs hf => ?_⟩
  · rw [run_bind]
    obtain ⟨h₁, h₂, h₃⟩ := hm.frame s
    rcases hms : m s with ⟨_ | a, s'⟩
    · simp_all
    · obtain ⟨g₁, g₂, g₃⟩ := (hg a).frame s'
      simp only [hms] at h₁ h₂ h₃
      exact ⟨g₁.trans h₁, g₂.trans h₂, h₃.trans g₃⟩
  · rw [run_bind] at hrun
    rcases hms : m s with ⟨_ | a, s'⟩ <;> rw [hms] at hrun
    · cases hrun
    · simp [hm.sound s a s' hms, (hg a).sound s' b s'' hrun]
  · obtain ⟨⟨a, t'⟩, hft, hht⟩ := Option.bind_eq_some.mp hf
    obtain ⟨s', hms, rfl⟩ := hm.complete s a t' hs hft
    obtain ⟨h₁, h₂, h₃⟩ := hm.frame s
    have hs' : s'.NoFaults := fun k hk => by
      rw [hms] at h₂ h₃
      rw [h₂]
      exact hs k (h₃.trans hk)
    obtain ⟨s'', hgs, rfl⟩ := (hg a).complete s' b t'' hs' hht
    exact ⟨s'', by simp only [run_bind, hms, hgs], rfl⟩

theorem seq {m : AppM Unit} {k : AppM β} {f : Tables → Option (Unit × Tables)}
    {h : Tables → Option (β × Tables)} (hm : Implements m f) (hk : Implements k h) :
    Implements (m >>= fun _ => k) fun t => (f t).bind fun p => h p.2 :=
  hm.bind fun _ => hk

theorem congr {m : AppM α} {f g : Tables → Option (α × Tables)} (hm : Implements m f)
    (hfg : ∀ t, f t = g t) : Implements m g := by
  have : f = g := funext hfg
  exact this ▸ hm

theorem readTxn (r : Tables → α) : Implements (StateV2.readTxn r) fun t => some (r t, t) :=
  storageOp_bind fun t => (r t, t)

theorem writeTxn (w : Tables → Tables) : Implements (StateV2.writeTxn w) fun t => some ((), w t) :=
  storageOp_bind fun t => ((), w t)

theorem elim {γ : Type} {o : Option γ} {m₁ : AppM α} {m₂ : γ → AppM α}
    {f₁ : Tables → Option (α × Tables)} {f₂ : γ → Tables → Option (α × Tables)}
    (h₁ : Implements m₁ f₁) (h₂ : ∀ x, Implements (m₂ x) (f₂ x)) :
    Implements (o.elim m₁ m₂) fun t => o.elim (f₁ t) fun x => f₂ x t := by
  cases o
  · exact h₁
  · exact h₂ _

theorem ite {p : Prop} {_ : Decidable p} {m₁ m₂ : AppM α} {f₁ f₂ : Tables → Option (α × Tables)}
    (h₁ : Implements m₁ f₁) (h₂ : Implements m₂ f₂) :
    Implements (if p then m₁ else m₂) fun t => if p then f₁ t else f₂ t := by
  by_cases hp : p <;> simpa [hp]

end Implements

/-! ## Write transactions -/

/-- A write transaction either aborts, leaving the committed tables as they were, or commits the
body's step from them. -/
theorem inWriteTx_store {α : Type} {body : AppM α} {f : Tables → Option (α × Tables)}
    (hb : Implements body f) (s : AppState) :
    ((inWriteTx body s).1.isOk = false ∧ (inWriteTx body s).2.store = s.store) ∨
      ∃ a, (inWriteTx body s).1 = .ok a ∧ f s.store = some (a, (inWriteTx body s).2.store) := by
  simp only [inWriteTx, newWriteTx, commit, storageOp, run_bind]
  by_cases h₀ : s.faults s.ops
  · simp [h₀, Except.isOk, Except.toBool]
  simp only [h₀]
  obtain ⟨hf₁, hf₂, hf₃⟩ := hb.frame { s with ops := s.ops + 1, txn := s.store }
  rcases hbs : body { s with ops := s.ops + 1, txn := s.store } with ⟨_ | a, s'⟩
  · simp_all [Except.isOk, Except.toBool]
  simp only [hbs] at hf₁
  have hstep := hb.sound _ a s' hbs
  by_cases h₁ : s'.faults s'.ops
  · simp_all [Except.isOk, Except.toBool]
  · simp_all

/-- With no faults, a write transaction commits exactly the body's step. -/
theorem inWriteTx_of_noFaults {α : Type} {body : AppM α} {f : Tables → Option (α × Tables)}
    (hb : Implements body f) {s : AppState} (hs : s.NoFaults) {a : α} {t : Tables}
    (hf : f s.store = some (a, t)) :
    (inWriteTx body s).1 = .ok a ∧ (inWriteTx body s).2.store = t := by
  have hs₁ : AppState.NoFaults { s with ops := s.ops + 1, txn := s.store } :=
    fun k hk => hs k (by simp at hk; omega)
  obtain ⟨s', hbs, rfl⟩ := hb.complete _ a t hs₁ hf
  obtain ⟨-, hf₂, hf₃⟩ := hb.frame { s with ops := s.ops + 1, txn := s.store }
  rw [hbs] at hf₂ hf₃
  have h₁ : s'.faults s'.ops = false := by
    rw [hf₂]
    exact hs _ (by simp at hf₃; omega)
  simp [inWriteTx, newWriteTx, commit, storageOp, run_bind, hs s.ops le_rfl, hbs, h₁]

/-! ## Fault-free runs -/

/-- `m` keeps the fault pattern and only adds storage operations. -/
def KeepsFaults {α : Type} (m : AppM α) : Prop :=
  ∀ s, (m s).2.faults = s.faults ∧ s.ops ≤ (m s).2.ops

namespace KeepsFaults

variable {α β : Type}

theorem bind {m : AppM α} {g : α → AppM β} (hm : KeepsFaults m) (hg : ∀ a, KeepsFaults (g a)) :
    KeepsFaults (m >>= g) := fun s => by
  obtain ⟨h₁, h₂⟩ := hm s
  rw [run_bind]
  rcases hms : m s with ⟨_ | a, s'⟩ <;> rw [hms] at h₁ h₂
  · exact ⟨h₁, h₂⟩
  · obtain ⟨g₁, g₂⟩ := hg a s'
    exact ⟨g₁.trans h₁, h₂.trans g₂⟩

theorem of_implements {m : AppM α} {f : Tables → Option (α × Tables)} (h : Implements m f) :
    KeepsFaults m :=
  fun s => (h.frame s).2

/-- A step that touches neither the faults nor the operation count. -/
theorem of_frame {m : AppM α} (h : ∀ s, (m s).2.faults = s.faults ∧ (m s).2.ops = s.ops) :
    KeepsFaults m :=
  fun s => ⟨(h s).1, (h s).2.ge⟩

theorem storageOp_bind {m : Unit → AppM α} (hm : ∀ u, KeepsFaults (m u)) :
    KeepsFaults (storageOp >>= m) :=
  bind (fun _ => ⟨rfl, Nat.le_succ _⟩) hm

theorem newWriteTx : KeepsFaults StateV2.newWriteTx :=
  storageOp_bind fun _ => of_frame fun _ => ⟨rfl, rfl⟩

theorem commit : KeepsFaults StateV2.commit :=
  storageOp_bind fun _ => of_frame fun _ => ⟨rfl, rfl⟩

theorem inWriteTx {body : AppM α} {f : Tables → Option (α × Tables)} (hb : Implements body f) :
    KeepsFaults (StateV2.inWriteTx body) :=
  newWriteTx.bind fun _ => (of_implements hb).bind fun a =>
    commit.bind fun _ => of_implements (Implements.pure a)

/-- A computation that keeps the faults leaves a fault-free state fault-free. -/
theorem noFaults {m : AppM α} (h : KeepsFaults m) {s : AppState} (hs : s.NoFaults) :
    (m s).2.NoFaults :=
  fun k hk => (h s).1 ▸ hs k ((h s).2.trans hk)

end KeepsFaults

end Renegade.StateV2
