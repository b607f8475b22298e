import TransferRouter.Amount

/-! Coins: an amount of one denomination. -/

namespace TransferRouter

/-- An amount of one denomination. -/
structure Coin where
  denom : String
  amount : Amount
  deriving DecidableEq

namespace Coin

/-- The written form in messages, such as `95uusdc`. -/
def write (c : Coin) : String := c.amount.decimal ++ c.denom

/-- True when there is nothing of the coin. -/
def isZero (c : Coin) : Bool := c.amount.isZero

/-- Coins by denomination, then by amount. -/
instance : StrictOrder Coin :=
  .via (fun c => (c.denom, c.amount)) fun a b h => by cases a; cases b; simp_all

end Coin

end TransferRouter
