import TransferRouter.OrderedMap
import TransferRouter.Error
import TransferRouter.Identifier.Reading

/-!
Balances of accounts. Only balances that are not nothing are kept, in ascending order of account and
denomination, so that ledgers with the same balances are the same ledger.
-/

namespace TransferRouter

/-- A place for a balance. -/
structure Slot where
  account : String
  denom : String
  deriving DecidableEq

instance : StrictOrder Slot :=
  .via (fun s => (s.account, s.denom)) fun a b h => by cases a; cases b; simp_all

/-- The balances of all accounts. -/
structure Ledger where
  slots : OrderedMap Slot Amount
  positive : ∀ e ∈ slots.entries, e.2.isZero = false

namespace Ledger

/-- The ledger without balances. -/
def empty : Ledger := ⟨.empty, by simp [OrderedMap.empty]⟩

instance : Inhabited Ledger := ⟨empty⟩

/-- The balance of an account in one denomination. -/
def balance (l : Ledger) (account denom : String) : Amount :=
  (l.slots.get? ⟨account, denom⟩).getD .zero

/-- The balances of an account that are not nothing, in ascending order of denomination. -/
def balances (l : Ledger) (account : String) : List Coin :=
  (l.slots.entries.filter fun e => e.1.account == account).map fun e => ⟨e.1.denom, e.2⟩

/-- The ledger with another balance in one place. -/
def set (l : Ledger) (account denom : String) (amount : Amount) : Ledger :=
  if h : amount.isZero = true then
    ⟨l.slots.erase ⟨account, denom⟩, fun e he => l.positive e (List.mem_filter.1 he).1⟩
  else
    ⟨l.slots.insert ⟨account, denom⟩ amount, fun e he => by
      rcases OrderedMap.mem_insertEntry he with rfl | he
      · simpa using h
      · exact l.positive e he⟩

/-- Adds a coin to an account. -/
def credit (l : Ledger) (account : String) (coin : Coin) : Except RouterError Ledger :=
  match (l.balance account coin.denom).add? coin.amount with
  | some sum => .ok (l.set account coin.denom sum)
  | none => .error (.overflow (.balance account))

/-- Takes a coin from an account. -/
def debit (l : Ledger) (account : String) (coin : Coin) : Except RouterError Ledger :=
  let available := l.balance account coin.denom
  match available.sub? coin.amount with
  | some rest => .ok (l.set account coin.denom rest)
  | none => .error (.insufficientFunds account coin.write (Coin.write ⟨coin.denom, available⟩))

/-- Adds a coin to an account out of thin air. -/
def mint (l : Ledger) (account : String) (coin : Coin) : Except RouterError Ledger :=
  match coin.check with
  | .error cause => .error (.validation cause)
  | .ok () => l.credit account coin

/-- Moves one coin. -/
def move (sender receiver : String) (l : Ledger) (coin : Coin) : Except RouterError Ledger := do
  (← l.debit sender coin).credit receiver coin

/-- Moves coins one after the other; coins of nothing are skipped. Either all are moved or, with an
error, none. -/
def send (l : Ledger) (sender receiver : String) (coins : List Coin) :
    Except RouterError Ledger :=
  match coins.forM Coin.check with
  | .error cause => .error (.validation cause)
  | .ok () => (coins.filter fun c => !c.isZero).foldlM (move sender receiver) l

end Ledger

end TransferRouter
