import Renegade.Common.IndexMap
import Renegade.Common.Types
import Renegade.CircuitTypes.Keychain

/-!
# Wallets and their circuit form

A `Wallet` holds its balances and orders in insertion-ordered maps and its fees in a vector.
`SizedCircuitWallet::from` lays each of the three out as a fixed-size array: the values in
insertion order, then `Default` entries up to the capacity, truncated to the capacity. The
arrays are built with exactly the capacity, so `try_into().unwrap()` never panics, and a wallet
within its capacities keeps every value: the arrays' non-default entries are then exactly what
`remove_default_elements` leaves. The capacities `MAX_BALANCES`, `MAX_ORDERS` and `MAX_FEES`
are parameters, since nothing here depends on their values.
-/

namespace Renegade

/-- `FixedPoint`, a fixed-point rational held by its scalar representation. -/
structure FixedPoint where
  /-- The representation. -/
  repr : Scalar
  deriving DecidableEq, Repr

/-- Modelled from the spec: `Balance`, an amount of one mint. -/
structure Balance where
  /-- The mint (ERC-20 address). -/
  mint : Nat
  /-- The amount held. -/
  amount : Nat
  deriving DecidableEq, Repr

/-- Modelled from the spec: `OrderSide`, buy by default. -/
inductive OrderSide
  | buy
  | sell
  deriving DecidableEq, Repr

/-- Modelled from the spec: `Order`, a limit order between two mints. -/
structure Order where
  /-- The mint quoting the price. -/
  quoteMint : Nat
  /-- The mint bought or sold. -/
  baseMint : Nat
  /-- The side of the market. -/
  side : OrderSide
  /-- The amount of the base mint. -/
  amount : Nat
  /-- The limit price. -/
  price : FixedPoint
  deriving DecidableEq, Repr

/-- `Fee`, a commitment to pay a relayer for a match. -/
structure Fee where
  /-- The public settle key of the cluster collecting fees. -/
  settleKey : Nat
  /-- The mint used to pay gas. -/
  gasAddr : Nat
  /-- The amount of that mint paid for gas. -/
  gasTokenAmount : Nat
  /-- The percentage fee the cluster may take on a match. -/
  percentageFee : FixedPoint
  deriving DecidableEq, Repr

instance : Inhabited FixedPoint := ⟨⟨0⟩⟩
instance : Inhabited Balance := ⟨⟨0, 0⟩⟩
instance : Inhabited Order := ⟨⟨0, 0, .buy, 0, default⟩⟩
instance : Inhabited Fee := ⟨⟨0, 0, 0, default⟩⟩

/-- `is_default` as `Fee` defines it: equality with the `Default` value. -/
def isDefaultOf {α : Type} [DecidableEq α] [Inhabited α] (x : α) : Bool := x = default

/-- `Fee::is_default`. -/
def Fee.isDefault (fee : Fee) : Bool := isDefaultOf fee

/-- Modelled from the spec: `Balance::is_default`, as `Fee::is_default`. -/
def Balance.isDefault (balance : Balance) : Bool := isDefaultOf balance

/-- Modelled from the spec: `Order::is_default`, as `Fee::is_default`. -/
def Order.isDefault (order : Order) : Bool := isDefaultOf order

/-- `PublicKeyChain`: the public root key and the public match key. -/
structure PublicKeyChain where
  /-- `pk_root`, a non-native key of `ROOT_KEY_WORDS` words. -/
  pkRoot : NonNativeKey rootKeyWords
  /-- `pk_match`, the `PublicIdentificationKey` scalar. -/
  pkMatch : Scalar
  deriving DecidableEq

/-- `Wallet`, by the fields its circuit form reads. -/
structure Wallet where
  /-- The orders, in insertion order. -/
  orders : IndexMap OrderIdentifier Order
  /-- The balances by mint, in insertion order. -/
  balances : IndexMap Nat Balance
  /-- The fees. -/
  fees : List Fee
  /-- `key_chain.public_keys`. -/
  publicKeys : PublicKeyChain
  /-- The wallet blinder. -/
  blinder : Scalar

/-- `SizedCircuitWallet`: the wallet with fixed-size arrays of balances, orders and fees. -/
structure SizedCircuitWallet (maxBalances maxOrders maxFees : Nat) where
  /-- The balances array. -/
  balances : List Balance
  length_balances : balances.length = maxBalances
  /-- The orders array. -/
  orders : List Order
  length_orders : orders.length = maxOrders
  /-- The fees array. -/
  fees : List Fee
  length_fees : fees.length = maxFees
  /-- The public keys. -/
  keys : PublicKeyChain
  /-- The wallet blinder. -/
  blinder : Scalar

/-- `values.chain(iter::repeat(T::default())).take(n)`. -/
def padToCapacity {α : Type} [Inhabited α] (n : Nat) (values : List α) : List α :=
  (values ++ List.replicate n default).take n

/-- `collect_vec().try_into()` into `[T; n]`: `none` unless the vector has `n` entries. -/
def tryIntoArray {α : Type} (n : Nat) (l : List α) : Option {l : List α // l.length = n} :=
  if h : l.length = n then some ⟨l, h⟩ else none

/-- `From<Wallet> for SizedCircuitWallet`; `none` where an `unwrap` panics. -/
def Wallet.toSizedCircuitWallet (maxBalances maxOrders maxFees : Nat) (wallet : Wallet) :
    Option (SizedCircuitWallet maxBalances maxOrders maxFees) := do
  let balances ← tryIntoArray maxBalances (padToCapacity maxBalances wallet.balances.values)
  let orders ← tryIntoArray maxOrders (padToCapacity maxOrders wallet.orders.values)
  let fees ← tryIntoArray maxFees (padToCapacity maxFees wallet.fees)
  pure ⟨balances.1, balances.2, orders.1, orders.2, fees.1, fees.2, wallet.publicKeys,
    wallet.blinder⟩

/-- `Wallet::remove_default_elements`: drop the default balances, orders and fees. -/
def Wallet.removeDefaultElements (wallet : Wallet) : Wallet :=
  { wallet with balances := wallet.balances.retain fun _ balance => !balance.isDefault,
                orders := wallet.orders.retain fun _ order => !order.isDefault,
                fees := wallet.fees.filter fun fee => !fee.isDefault }

/-! ## Padding -/

section Padding

variable {α : Type} [Inhabited α]

@[simp] theorem length_padToCapacity (n : Nat) (values : List α) :
    (padToCapacity n values).length = n := by
  simp [padToCapacity]

/-- Padding never panics: the vector has exactly the capacity. -/
theorem tryIntoArray_padToCapacity (n : Nat) (values : List α) :
    tryIntoArray n (padToCapacity n values) = some ⟨_, length_padToCapacity n values⟩ :=
  dif_pos _

/-- Within the capacity, padding keeps every value and appends defaults. -/
theorem padToCapacity_of_le {n : Nat} {values : List α} (h : values.length ≤ n) :
    padToCapacity n values = values ++ List.replicate (n - values.length) default := by
  rw [padToCapacity, List.take_append_eq_append_take, List.take_of_length_le h,
    List.take_replicate, Nat.min_eq_left (Nat.sub_le _ _)]

/-- The non-default entries of a padded vector are the non-default values. -/
theorem filter_padToCapacity [DecidableEq α] {n : Nat} {values : List α} (h : values.length ≤ n) :
    (padToCapacity n values).filter (fun x => !isDefaultOf x) =
      values.filter fun x => !isDefaultOf x := by
  have hdefaults : (List.replicate (n - values.length) (default : α)).filter
      (fun x => !isDefaultOf x) = [] := by
    simp [isDefaultOf]
  rw [padToCapacity_of_le h, List.filter_append, hdefaults, List.append_nil]

end Padding

/-- For a wallet within its capacities, `SizedCircuitWallet::from` does not panic; its balances,
orders and fees arrays hold the wallet's values in insertion order followed by defaults, and
their non-default entries are what `remove_default_elements` leaves. -/
theorem sizedCircuitWallet_from (maxBalances maxOrders maxFees : Nat) (wallet : Wallet)
    (hb : wallet.balances.values.length ≤ maxBalances)
    (ho : wallet.orders.values.length ≤ maxOrders) (hf : wallet.fees.length ≤ maxFees) :
    ∃ sized, wallet.toSizedCircuitWallet maxBalances maxOrders maxFees = some sized ∧
      sized.balances = wallet.balances.values ++
        List.replicate (maxBalances - wallet.balances.values.length) default ∧
      sized.orders = wallet.orders.values ++
        List.replicate (maxOrders - wallet.orders.values.length) default ∧
      sized.fees = wallet.fees ++ List.replicate (maxFees - wallet.fees.length) default ∧
      sized.keys = wallet.publicKeys ∧ sized.blinder = wallet.blinder ∧
      sized.balances.filter (fun b => !b.isDefault) = wallet.removeDefaultElements.balances.values ∧
      sized.orders.filter (fun o => !o.isDefault) = wallet.removeDefaultElements.orders.values ∧
      sized.fees.filter (fun f => !f.isDefault) = wallet.removeDefaultElements.fees := by
  refine ⟨_, by simp only [Wallet.toSizedCircuitWallet, tryIntoArray_padToCapacity]; rfl,
    padToCapacity_of_le hb, padToCapacity_of_le ho, padToCapacity_of_le hf, rfl, rfl, ?_, ?_, ?_⟩
  · rw [Wallet.removeDefaultElements, IndexMap.values_retain]
    exact filter_padToCapacity hb
  · rw [Wallet.removeDefaultElements, IndexMap.values_retain]
    exact filter_padToCapacity ho
  · exact filter_padToCapacity hf

/-- A wallet holding one balance of `5` of mint `1`. -/
def oneBalanceWallet : Wallet :=
  ⟨IndexMap.empty, ⟨[(1, ⟨1, 5⟩)], List.nodup_singleton _⟩, [], ⟨⟨[0, 0], rfl⟩, 0⟩, 0⟩

/-- Within capacities of two, the balances array is the balance and a default. -/
theorem sizedCircuitWallet_from_oneBalance :
    oneBalanceWallet.balances.values.length ≤ 2 ∧ oneBalanceWallet.orders.values.length ≤ 2 ∧
    oneBalanceWallet.fees.length ≤ 2 ∧
    ∃ sized : SizedCircuitWallet 2 2 2, oneBalanceWallet.toSizedCircuitWallet 2 2 2 = some sized ∧
      sized.balances = [⟨1, 5⟩, default] := by
  obtain ⟨sized, hsome, hb, -⟩ :=
    sizedCircuitWallet_from 2 2 2 oneBalanceWallet (by decide) (by decide) (by decide)
  exact ⟨by decide, by decide, by decide, sized, hsome, hb⟩

end Renegade
