import Mathlib.Data.ZMod.Basic

/-!
# The hash inputs of the arkworks Poseidon gadget

The arkworks circuits hash a wallet, its orders or a match result by absorbing a vector of field
elements into a Poseidon sponge and squeezing one element. `OrderHashInput` lists each order's
base mint, quote mint, side, price and amount; `WalletHashInput` lists each balance's amount and
mint, then the orders as `OrderHashInput` does; `MatchHashInput` lists the amount, mint and side
of each match of the first party, then of the second. Each value is a `u64` gadget (the side a
`u8`) read into the field from its little-endian bits, so in a field of more than `2^64` elements
it is its integer value.

No length is absorbed. With the number of balances fixed, a wallet's input determines the wallet,
and the order input determines the orders; across shapes it does not: the ten elements of two
orders also read as five balances, so every wallet with two orders has the input, and so the
hash under every sponge, of a wallet with five more balances and two fewer orders. A match's
input determines the matches of both parties together, but not where the first party's end.
-/

namespace Renegade.Circuits.Poseidon

/-- Modelled from its use in `poseidon.rs`: an order of a `WalletVar`. -/
structure OrderVar where
  /-- `base_mint`. -/
  baseMint : UInt64
  /-- `quote_mint`. -/
  quoteMint : UInt64
  /-- `side`, a `u8` gadget. -/
  side : UInt8
  /-- `price`. -/
  price : UInt64
  /-- `amount`. -/
  amount : UInt64
  deriving DecidableEq, Repr

/-- Modelled from its use in `poseidon.rs`: a balance of a `WalletVar`. -/
structure BalanceVar where
  /-- `mint`. -/
  mint : UInt64
  /-- `amount`. -/
  amount : UInt64
  deriving DecidableEq, Repr

/-- Modelled from its use in `poseidon.rs`: `WalletVar`, its balances and orders as vectors. -/
structure WalletVar where
  /-- `balances`. -/
  balances : List BalanceVar
  /-- `orders`. -/
  orders : List OrderVar
  deriving DecidableEq, Repr

/-- Modelled from its use in `poseidon.rs`: one match of a `MatchResultVariable`. -/
structure MatchVar where
  /-- `mint`. -/
  mint : UInt64
  /-- `amount`. -/
  amount : UInt64
  /-- `side`, a `u8` gadget. -/
  side : UInt8
  deriving DecidableEq, Repr

/-- Modelled from its use in `poseidon.rs`: `MatchResultVariable`, the matches of both parties. -/
structure MatchResultVariable where
  /-- `matches1`. -/
  matches1 : List MatchVar
  /-- `matches2`. -/
  matches2 : List MatchVar
  deriving DecidableEq, Repr

variable (p : ℕ)

/-- `u64_to_field_element`: the field element of the gadget's little-endian bits. -/
def u64ToFieldElement (a : UInt64) : ZMod p := a.toNat

/-- `u8_to_field_element`. -/
def u8ToFieldElement (a : UInt8) : ZMod p := a.toNat

/-- The elements one order pushes. -/
def orderElements (order : OrderVar) : List (ZMod p) :=
  [u64ToFieldElement p order.baseMint, u64ToFieldElement p order.quoteMint,
    u8ToFieldElement p order.side, u64ToFieldElement p order.price,
    u64ToFieldElement p order.amount]

/-- The elements one balance pushes. -/
def balanceElements (balance : BalanceVar) : List (ZMod p) :=
  [u64ToFieldElement p balance.amount, u64ToFieldElement p balance.mint]

/-- The elements one match pushes. -/
def matchElements (matchVar : MatchVar) : List (ZMod p) :=
  [u64ToFieldElement p matchVar.amount, u64ToFieldElement p matchVar.mint,
    u8ToFieldElement p matchVar.side]

theorem length_orderElements (order : OrderVar) : (orderElements p order).length = 5 := rfl

theorem length_balanceElements (balance : BalanceVar) : (balanceElements p balance).length = 2 :=
  rfl

theorem length_matchElements (matchVar : MatchVar) : (matchElements p matchVar).length = 3 := rfl

/-- `From<&WalletVar> for Result<OrderHashInput>`; allocation errors are left out. -/
def orderHashInput (wallet : WalletVar) : List (ZMod p) :=
  wallet.orders.flatMap (orderElements p)

/-- `From<&WalletVar> for Result<WalletHashInput>`. -/
def walletHashInput (wallet : WalletVar) : List (ZMod p) :=
  wallet.balances.flatMap (balanceElements p) ++ wallet.orders.flatMap (orderElements p)

/-- `From<&MatchResultVariable> for Result<MatchHashInput>`. -/
def matchHashInput (matchRes : MatchResultVariable) : List (ZMod p) :=
  (matchRes.matches1 ++ matchRes.matches2).flatMap (matchElements p)

/-- The sponge the gadget absorbs into; the Poseidon permutation of arkworks' `PoseidonSpongeVar`
is not in the sources. -/
structure Sponge (σ : Type) where
  /-- `absorb` one element. -/
  absorb : σ → ZMod p → σ
  /-- `squeeze_field_elements(1)`, the one element it returns. -/
  squeeze : σ → ZMod p

/-- `PoseidonVectorHashGadget::evaluate`: absorb the input's elements in turn, then squeeze one
element. -/
def evaluate {σ : Type} (sponge : Sponge p σ) (state : σ) (input : List (ZMod p)) : ZMod p :=
  sponge.squeeze (input.foldl sponge.absorb state)

/-! ## Decoding an input of a known shape -/

theorem length_flatMap_const {α β : Type} {f : α → List β} {n : ℕ}
    (hlen : ∀ a, (f a).length = n) (l : List α) : (l.flatMap f).length = n * l.length := by
  induction l with
  | nil => rfl
  | cons a l ih => rw [List.flatMap_cons, List.length_append, ih, hlen, List.length_cons]; ring

/-- Blocks of one fixed length from an injective encoding determine the list they encode. -/
theorem flatMap_eq_flatMap_iff {α β : Type} {f : α → List β} {n : ℕ}
    (hlen : ∀ a, (f a).length = n) (hn : 0 < n) (hf : Function.Injective f) :
    ∀ {l l' : List α}, l.flatMap f = l'.flatMap f ↔ l = l'
  | [], [] => by simp
  | [], _ :: _ => iff_of_false (fun h => by
      have h := congrArg List.length h
      simp only [length_flatMap_const hlen, List.length_nil, List.length_cons] at h
      simp [hn.ne'] at h) (List.cons_ne_nil _ _).symm
  | _ :: _, [] => iff_of_false (fun h => by
      have h := congrArg List.length h
      simp only [length_flatMap_const hlen, List.length_nil, List.length_cons] at h
      simp [hn.ne'] at h) (List.cons_ne_nil _ _)
  | a :: l, a' :: l' => by
    simp only [List.flatMap_cons, List.cons.injEq]
    refine ⟨fun h => ?_, fun ⟨ha, hl⟩ => ha ▸ hl ▸ rfl⟩
    obtain ⟨ha, hl⟩ := List.append_inj h ((hlen a).trans (hlen a').symm)
    exact ⟨hf ha, flatMap_eq_flatMap_iff hlen hn hf |>.mp hl⟩

section Injective

variable {p} (hp : 2 ^ 64 < p)
include hp

theorem u64ToFieldElement_inj {a b : UInt64} :
    u64ToFieldElement p a = u64ToFieldElement p b ↔ a = b := by
  rw [u64ToFieldElement, u64ToFieldElement, ZMod.natCast_eq_natCast_iff',
    Nat.mod_eq_of_lt (a.toNat_lt_size.trans hp), Nat.mod_eq_of_lt (b.toNat_lt_size.trans hp)]
  exact ⟨UInt64.toNat.inj, congrArg _⟩

theorem u8ToFieldElement_inj {a b : UInt8} :
    u8ToFieldElement p a = u8ToFieldElement p b ↔ a = b := by
  have hlt : ∀ c : UInt8, c.toNat < p := fun c => lt_trans c.val.isLt (lt_trans (by decide) hp)
  rw [u8ToFieldElement, u8ToFieldElement, ZMod.natCast_eq_natCast_iff',
    Nat.mod_eq_of_lt (hlt a), Nat.mod_eq_of_lt (hlt b)]
  exact ⟨UInt8.toNat.inj, congrArg _⟩

theorem orderElements_injective : Function.Injective (orderElements p) := by
  rintro ⟨_, _, _, _, _⟩ ⟨_, _, _, _, _⟩ h
  simpa [orderElements, u64ToFieldElement_inj hp, u8ToFieldElement_inj hp] using h

theorem balanceElements_injective : Function.Injective (balanceElements p) := by
  rintro ⟨_, _⟩ ⟨_, _⟩ h
  simp only [balanceElements, List.cons.injEq, u64ToFieldElement_inj hp, and_true] at h
  obtain ⟨rfl, rfl⟩ := h
  rfl

theorem matchElements_injective : Function.Injective (matchElements p) := by
  rintro ⟨_, _, _⟩ ⟨_, _, _⟩ h
  simp only [matchElements, List.cons.injEq, u64ToFieldElement_inj hp, u8ToFieldElement_inj hp,
    and_true] at h
  obtain ⟨rfl, rfl, rfl⟩ := h
  rfl

end Injective

/-! ## What the inputs determine -/

section Determine

variable {p}

/-- Among wallets with the same number of balances, the wallet's hash input determines the
wallet. -/
theorem walletHashInput_eq_iff (hp : 2 ^ 64 < p) {wallet wallet' : WalletVar}
    (hb : wallet.balances.length = wallet'.balances.length) :
    walletHashInput p wallet = walletHashInput p wallet' ↔ wallet = wallet' := by
  refine ⟨fun h => ?_, fun h => h ▸ rfl⟩
  have hlen : (wallet.balances.flatMap (balanceElements p)).length =
      (wallet'.balances.flatMap (balanceElements p)).length := by
    rw [length_flatMap_const (length_balanceElements p),
      length_flatMap_const (length_balanceElements p), hb]
  obtain ⟨hbal, hord⟩ := List.append_inj h hlen
  obtain ⟨balances, orders⟩ := wallet
  obtain ⟨balances', orders'⟩ := wallet'
  rw [WalletVar.mk.injEq]
  exact ⟨(flatMap_eq_flatMap_iff (length_balanceElements p) (by decide)
      (balanceElements_injective hp)).mp hbal,
    (flatMap_eq_flatMap_iff (length_orderElements p) (by decide)
      (orderElements_injective hp)).mp hord⟩

/-- Two wallets with the same balance count. -/
theorem walletHashInput_eq_iff_oneBalance :
    2 ^ 64 < 2 ^ 64 + 1 ∧
    [(⟨1, 10⟩ : BalanceVar)].length = [(⟨2, 10⟩ : BalanceVar)].length ∧
    (walletHashInput (2 ^ 64 + 1) ⟨[⟨1, 10⟩], []⟩ = walletHashInput (2 ^ 64 + 1) ⟨[⟨2, 10⟩], []⟩ ↔
      (⟨[⟨1, 10⟩], []⟩ : WalletVar) = ⟨[⟨2, 10⟩], []⟩) :=
  ⟨Nat.lt_succ_self _, rfl, walletHashInput_eq_iff (Nat.lt_succ_self _) rfl⟩

/-- The order input determines exactly the wallet's orders, and nothing of its balances. -/
theorem orderHashInput_eq_iff (hp : 2 ^ 64 < p) {wallet wallet' : WalletVar} :
    orderHashInput p wallet = orderHashInput p wallet' ↔ wallet.orders = wallet'.orders :=
  flatMap_eq_flatMap_iff (length_orderElements p) (by decide) (orderElements_injective hp)

/-- Two wallets with the same orders and different balances. -/
theorem orderHashInput_eq_iff_balances :
    2 ^ 64 < 2 ^ 64 + 1 ∧
    (orderHashInput (2 ^ 64 + 1) ⟨[⟨1, 10⟩], [⟨2, 1, 0, 10, 1⟩]⟩ =
        orderHashInput (2 ^ 64 + 1) ⟨[], [⟨2, 1, 0, 10, 1⟩]⟩ ↔
      [(⟨2, 1, 0, 10, 1⟩ : OrderVar)] = [⟨2, 1, 0, 10, 1⟩]) :=
  ⟨Nat.lt_succ_self _, orderHashInput_eq_iff (Nat.lt_succ_self _)⟩

/-- The match input determines the matches of both parties together, and not where the first
party's matches end. -/
theorem matchHashInput_eq_iff (hp : 2 ^ 64 < p) {matchRes matchRes' : MatchResultVariable} :
    matchHashInput p matchRes = matchHashInput p matchRes' ↔
      matchRes.matches1 ++ matchRes.matches2 = matchRes'.matches1 ++ matchRes'.matches2 :=
  flatMap_eq_flatMap_iff (length_matchElements p) (by decide) (matchElements_injective hp)

/-- A match moved from the first party to the second. -/
theorem matchHashInput_eq_iff_moved :
    2 ^ 64 < 2 ^ 64 + 1 ∧
    (matchHashInput (2 ^ 64 + 1) ⟨[⟨1, 10, 0⟩], []⟩ =
        matchHashInput (2 ^ 64 + 1) ⟨[], [⟨1, 10, 0⟩]⟩ ↔
      [(⟨1, 10, 0⟩ : MatchVar)] ++ [] = [] ++ [⟨1, 10, 0⟩]) :=
  ⟨Nat.lt_succ_self _, matchHashInput_eq_iff (Nat.lt_succ_self _)⟩

end Determine

/-! ## Inputs of different shapes -/

/-- A `u8` value pushed as a `u64` gadget gives the same element. -/
theorem u64ToFieldElement_ofNat_toNat (a : UInt8) :
    u64ToFieldElement p (.ofNat a.toNat) = u8ToFieldElement p a := by
  unfold u64ToFieldElement u8ToFieldElement
  exact congrArg Nat.cast (UInt64.toNat_ofNat_of_lt (lt_trans a.val.isLt (by decide)))

/-- The five balances whose elements are those of two orders, in order. -/
def ordersAsBalances (o₁ o₂ : OrderVar) : List BalanceVar :=
  [⟨o₁.quoteMint, o₁.baseMint⟩, ⟨o₁.price, .ofNat o₁.side.toNat⟩, ⟨o₂.baseMint, o₁.amount⟩,
    ⟨.ofNat o₂.side.toNat, o₂.quoteMint⟩, ⟨o₂.amount, o₂.price⟩]

theorem flatMap_ordersAsBalances (o₁ o₂ : OrderVar) :
    (ordersAsBalances o₁ o₂).flatMap (balanceElements p) =
      orderElements p o₁ ++ orderElements p o₂ := by
  simp [ordersAsBalances, balanceElements, orderElements, u64ToFieldElement_ofNat_toNat]

/-- Every wallet with two orders has the hash input, and so the hash under every sponge, of a
wallet with five more balances and two fewer orders: the hash does not bind a wallet's shape. -/
theorem walletHashInput_collides (wallet : WalletVar) (hw : 2 ≤ wallet.orders.length) :
    ∃ wallet' : WalletVar, wallet'.balances.length = wallet.balances.length + 5 ∧
      wallet'.orders.length + 2 = wallet.orders.length ∧
      walletHashInput p wallet' = walletHashInput p wallet ∧
      ∀ {σ : Type} (sponge : Sponge p σ) (state : σ),
        evaluate p sponge state (walletHashInput p wallet') =
          evaluate p sponge state (walletHashInput p wallet) := by
  obtain ⟨balances, orders⟩ := wallet
  match orders, hw with
  | o₁ :: o₂ :: rest, _ =>
    have hinput : walletHashInput p ⟨balances ++ ordersAsBalances o₁ o₂, rest⟩ =
        walletHashInput p ⟨balances, o₁ :: o₂ :: rest⟩ := by
      simp only [walletHashInput, List.flatMap_append, flatMap_ordersAsBalances,
        List.flatMap_cons, List.append_assoc]
    exact ⟨⟨balances ++ ordersAsBalances o₁ o₂, rest⟩, by simp [ordersAsBalances], rfl, hinput,
      fun _ _ => by rw [hinput]⟩

/-- The test's wallet with its order twice collides with a wallet of six balances. -/
theorem walletHashInput_collides_twoOrders :
    2 ≤ [(⟨2, 1, 0, 10, 1⟩ : OrderVar), ⟨2, 1, 0, 10, 1⟩].length ∧
    ∃ wallet' : WalletVar, wallet'.balances.length = 1 + 5 ∧ wallet'.orders.length + 2 = 2 ∧
      walletHashInput (2 ^ 64 + 1) wallet' =
        walletHashInput (2 ^ 64 + 1) ⟨[⟨1, 10⟩], [⟨2, 1, 0, 10, 1⟩, ⟨2, 1, 0, 10, 1⟩]⟩ ∧
      ∀ {σ : Type} (sponge : Sponge (2 ^ 64 + 1) σ) (state : σ),
        evaluate (2 ^ 64 + 1) sponge state (walletHashInput (2 ^ 64 + 1) wallet') =
          evaluate (2 ^ 64 + 1) sponge state
            (walletHashInput (2 ^ 64 + 1) ⟨[⟨1, 10⟩], [⟨2, 1, 0, 10, 1⟩, ⟨2, 1, 0, 10, 1⟩]⟩) :=
  ⟨by decide, walletHashInput_collides (2 ^ 64 + 1)
    ⟨[⟨1, 10⟩], [⟨2, 1, 0, 10, 1⟩, ⟨2, 1, 0, 10, 1⟩]⟩ (by decide)⟩

end Renegade.Circuits.Poseidon
