import TransferRouter.Transfer
import TransferRouter.Error

/-!
Traffic over a route: for each denomination what came in and what went out, and the number of
dispatches. Totals only grow.
-/

namespace TransferRouter

/-- What came in and what went out over a route in one denomination. -/
structure Traffic where
  incoming : Amount
  outgoing : Amount
  deriving DecidableEq

namespace Traffic

/-- No traffic. -/
def none : Traffic := ⟨.zero, .zero⟩

/-- Adds traffic, if both totals stay amounts. -/
def add (a b : Traffic) : Except RouterError Traffic :=
  match a.incoming.add? b.incoming with
  | .none => .error (.overflow .incoming)
  | some incoming =>
    match a.outgoing.add? b.outgoing with
    | .none => .error (.overflow .outgoing)
    | some outgoing => .ok ⟨incoming, outgoing⟩

/-- The traffic of one dispatched transfer by denomination: a single entry when nothing was swapped,
else one for each of the two denominations. -/
def ofTransfer (t : Transfer) : List (String × Traffic) :=
  if t.sourceDenom = t.destinationDenom then
    [(t.sourceDenom, ⟨t.sourceAmount, t.destinationAmount⟩)]
  else
    [(t.sourceDenom, ⟨t.sourceAmount, .zero⟩), (t.destinationDenom, ⟨.zero, t.destinationAmount⟩)]

end Traffic

/-- The next number after `n`, if it fits 64 bits. -/
def successor? (n : UInt64) : Option UInt64 :=
  if n.toNat + 1 < UInt64.size then some (n + 1) else none

/-- Counts one more dispatch. -/
def countDispatch (n : UInt64) : Except RouterError UInt64 :=
  match successor? n with
  | some m => .ok m
  | none => .error (.overflow .dispatchCount)

end TransferRouter
