import Renegade.Common.Wallet

/-!
# The balance and fee an order is matched with

`get_balance_and_fee_for_order` picks what a wallet pays a match with: the balance of the mint the
order spends (the quote mint for a buy, the base mint for a sell), the first non-default fee, and
the balance of that fee's gas mint, which must cover the fee's gas amount. It never compares the
balance with the order's amount, so undercapitalized orders are matched. Removing a wallet's
default elements keeps the fee it picks and every balance that is not the default one: the answer
for the cleaned wallet is the answer for the wallet, dropped exactly when one of its two balances
is the default balance.
-/

namespace Renegade

/-- `Wallet::get_balance_and_fee_for_order`. -/
def Wallet.getBalanceAndFeeForOrder (wallet : Wallet) (order : Order) :
    Option (Balance × Fee × Balance) := do
  let orderMint := match order.side with
    | .buy => order.quoteMint
    | .sell => order.baseMint
  let balance ← wallet.balances.get? orderMint
  let fee ← wallet.fees.find? fun fee => !fee.isDefault
  let feeBalance ← wallet.balances.get? fee.gasAddr
  if feeBalance.amount < fee.gasTokenAmount then none
  else some (balance, fee, feeBalance)

/-- Removing the default balances, orders and fees keeps the fee an order is matched with and
drops the answer exactly when its balance or its fee balance is the default balance. -/
theorem getBalanceAndFeeForOrder_removeDefaultElements (wallet : Wallet) (order : Order) :
    wallet.removeDefaultElements.getBalanceAndFeeForOrder order =
      (wallet.getBalanceAndFeeForOrder order).filter fun answer =>
        !answer.1.isDefault && !answer.2.2.isDefault := by
  simp only [Wallet.getBalanceAndFeeForOrder, Wallet.removeDefaultElements,
    IndexMap.get?_retain, List.find?_filter, and_self, Bool.decide_eq_true, Option.bind_eq_bind]
  cases wallet.balances.get? _ with
  | none => rfl
  | some balance =>
    cases wallet.fees.find? fun fee => !fee.isDefault with
    | none => by_cases hb : balance.isDefault <;> simp [Option.filter, hb]
    | some fee =>
      simp only [Option.some_bind]
      cases wallet.balances.get? fee.gasAddr with
      | none => by_cases hb : balance.isDefault <;> simp [Option.filter, hb]
      | some feeBalance =>
        by_cases hb : balance.isDefault <;> by_cases hf : feeBalance.isDefault <;>
          by_cases hlt : feeBalance.amount < fee.gasTokenAmount <;>
          simp [Option.filter, hb, hf, hlt]

/-- A wallet with `5` of mint `1` and a fee paying `2` of gas in mint `1` matches a buy of `10`
quoted in mint `1`: its balance does not cover the order. -/
example :
    let fee : Fee := ⟨7, 1, 2, default⟩
    let wallet : Wallet :=
      ⟨IndexMap.empty, ⟨[(1, ⟨1, 5⟩)], List.nodup_singleton _⟩, [default, fee], ⟨⟨[0, 0], rfl⟩, 0⟩,
        0⟩
    wallet.getBalanceAndFeeForOrder ⟨1, 2, .buy, 10, default⟩ = some (⟨1, 5⟩, fee, ⟨1, 5⟩) := by
  decide

end Renegade
