import TransferRouter.Ledger
import TransferRouter.Event
import TransferRouter.Store.Key
import TransferRouter.Store.Disk

/-!
The state that the router works on, and actions on it. An action that fails keeps what it changed
until then. Parts of the state have actions of their own, so that what an action can touch is seen
from its type: a controller sees the books but not the store.
-/

namespace TransferRouter

/-- A packet that was sent out over a protocol. -/
structure Shipment where
  protocol : ProtocolId
  packet : ForwardingPacket
  deriving DecidableEq

/-- The state that controllers work on. -/
structure Books where
  ledger : Ledger
  /-- Reports in the order in which they were made. -/
  events : List Event
  /-- Packets in the order in which they were sent. -/
  outbox : List Shipment

/-- The state that the router works on. -/
structure World where
  disk : Disk
  books : Books
  /-- Seconds since the epoch. -/
  clock : UInt64

/-- A transfer that is being worked on, with the state of the router. -/
structure Stage where
  world : World
  transfer : Transfer

/-- A transfer that is being worked on, with the state that controllers see. -/
structure Workbench where
  books : Books
  transfer : Transfer

/-- An action on the ledger. -/
abbrev LedgerM := EStateM RouterError Ledger

/-- An action on the books. -/
abbrev BooksM := EStateM RouterError Books

/-- An action on the state of the router. -/
abbrev RouterM := EStateM RouterError World

/-- An action on a transfer and the state of the router. -/
abbrev StageM := EStateM RouterError Stage

/-- An action on a transfer and the books. -/
abbrev WorkbenchM := EStateM RouterError Workbench

variable {σ τ ε ε' α : Type}

/-- Runs an action on a part of the state. -/
def zoom (view : σ → τ) (update : σ → τ → σ) (wrap : ε → ε') (act : EStateM ε τ α) :
    EStateM ε' σ α := fun s =>
  match act (view s) with
  | .ok a t => .ok a (update s t)
  | .error e t => .error (wrap e) (update s t)

/-- Runs an action on the state as it is and changes its error. -/
def wrapping (wrap : ε → ε') (act : EStateM ε σ α) : EStateM ε' σ α :=
  zoom id (fun _ t => t) wrap act

/-- The outcome of a computation that does not touch the state. -/
def settle (wrap : ε → ε') : Except ε α → EStateM ε' σ α
  | .ok a => pure a
  | .error e => throw (wrap e)

/-- The outcome of a check. -/
def checked : Except Invalid α → EStateM RouterError σ α := settle .validation

/-- Runs an action on the ledger. -/
def BooksM.onLedger (act : LedgerM α) : BooksM α :=
  zoom Books.ledger (fun b l => { b with ledger := l }) id act

/-- Makes a report. -/
def BooksM.emit (event : Event) : BooksM Unit :=
  modify fun b => { b with events := b.events ++ [event] }

/-- Moves coins, all or none. -/
def LedgerM.send (sender receiver : String) (coins : List Coin) : LedgerM Unit := fun l =>
  match l.send sender receiver coins with
  | .ok l' => .ok () l'
  | .error e => .error e l

/-- Adds a coin to an account out of thin air. -/
def LedgerM.mint (account : String) (coin : Coin) : LedgerM Unit := fun l =>
  match l.mint account coin with
  | .ok l' => .ok () l'
  | .error e => .error e l

namespace RouterM

/-- Runs an action on the store. -/
def onDisk (act : DiskM α) : RouterM α :=
  zoom World.disk (fun w d => { w with disk := d }) (.storage ∘ .store) act

/-- Runs an action on the books. -/
def onBooks (act : BooksM α) : RouterM α :=
  zoom World.books (fun w b => { w with books := b }) id act

/-- Runs an action on the ledger. -/
def onLedger (act : LedgerM α) : RouterM α := onBooks (BooksM.onLedger act)

/-- Makes a report. -/
def emit (event : Event) : RouterM Unit := onBooks (BooksM.emit event)

/-- Runs an action whose failure is of no consequence. -/
def attempt (act : RouterM Unit) : RouterM Unit := fun w =>
  match act w with
  | .ok _ w' | .error _ w' => .ok () w'

/-- The value under a key, if there is one. -/
def read (α : Type) [Codec α] (key : Key) : RouterM (Option α) := do
  match ← onDisk (Disk.get? key.bytes) with
  | none => return none
  | some s => some <$> settle (.storage ∘ .store) (Codec.decodeAt α key.bytes s)

/-- Works on a transfer and returns it with the result. -/
def staged (transfer : Transfer) (act : StageM α) : RouterM (α × Transfer) := fun w =>
  match act ⟨w, transfer⟩ with
  | .ok a s => .ok (a, s.transfer) s.world
  | .error e s => .error e s.world

end RouterM

namespace StageM

/-- Runs an action that does not see the transfer. -/
def onWorld (act : RouterM α) : StageM α :=
  zoom Stage.world (fun s w => { s with world := w }) id act

/-- Runs an action of a controller. -/
def onWorkbench (act : WorkbenchM α) : StageM α :=
  zoom (fun s => ⟨s.world.books, s.transfer⟩)
    (fun s b => ⟨{ s.world with books := b.books }, b.transfer⟩) id act

/-- Runs an action and takes its changes of the transfer back if it fails. -/
def tentatively (act : StageM α) : StageM α := fun s =>
  match act s with
  | .ok a s' => .ok a s'
  | .error e s' => .error e { s' with transfer := s.transfer }

end StageM

namespace WorkbenchM

/-- Runs an action that does not see the transfer. -/
def onBooks (act : BooksM α) : WorkbenchM α :=
  zoom Workbench.books (fun w b => { w with books := b }) id act

/-- Replaces the destination denomination, which must not be empty. -/
def setDenom (denom : String) : WorkbenchM Unit := do
  let transfer ← checked ((← get).transfer.withDestinationDenom denom)
  modify fun w => { w with transfer := transfer }

/-- Replaces the destination amount. -/
def setAmount (amount : Amount) : WorkbenchM Unit :=
  modify fun w => { w with transfer := w.transfer.withDestinationAmount amount }

end WorkbenchM

end TransferRouter
