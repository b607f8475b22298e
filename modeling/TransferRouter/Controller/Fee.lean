import TransferRouter.Controller

/-!
Fees. Every recipient gets its share of the amount before any fee was taken, rounded down; the
transfer goes on with what is left.
-/

namespace TransferRouter

namespace Fee

/-- The share of an amount in basis points, rounded down. The product comes first and must be an
amount. -/
def share (amount : Amount) (basisPoints : UInt32) : Except RouterError Amount :=
  match amount.times? basisPoints.toNat with
  | some product => .ok (product.divide basisPointsOfWhole)
  | none => .error (.overflow .fee)

/-- What each recipient gets of an amount, in order. Shares of nothing are left out. -/
def compute (amount : Amount) : List FeeShare → Except RouterError (List (String × Amount))
  | [] => .ok []
  | f :: rest => do
    let fee ← share amount f.basisPoints
    let others ← compute amount rest
    return if fee.isZero then others else (f.recipient, fee) :: others

/-- Pays fees in order out of the holding account and returns their sum, added to those before. -/
def pay (holding denom : String) (total : Amount) : List (String × Amount) → BooksM Amount
  | [] => return total
  | (recipient, fee) :: rest => do
    let coin : Coin := ⟨denom, fee⟩
    BooksM.onLedger (LedgerM.send holding recipient [coin])
    match total.add? fee with
    | none => throw (.overflow .feeTotal)
    | some total =>
      BooksM.emit (.feeCharged recipient coin)
      pay holding denom total rest

/-- Charges fees on a transfer. -/
def charge (holding : String) (attributes : FeeAttributes) : WorkbenchM Unit := do
  checked attributes.check
  let transfer := (← get).transfer
  let fees ← settle id (compute transfer.destinationAmount attributes.fees)
  let total ← WorkbenchM.onBooks (pay holding transfer.destinationDenom .zero fees)
  match transfer.destinationAmount.sub? total with
  | none => throw (.overflow .remainder)
  | some rest => WorkbenchM.setAmount rest

/-- Charges fees out of the given account. -/
def controller (holding : String) : ActionController where
  id := .fee
  name := "fee"
  run action :=
    match action.attributes with
    | .fee attributes => charge holding attributes
    | .swap _ => throw (.validation (.notFeeAttributes .swap))

end Fee

end TransferRouter
