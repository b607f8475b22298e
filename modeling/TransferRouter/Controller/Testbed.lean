import TransferRouter.Controller
import TransferRouter.Json.Reader
import TransferRouter.Json.Records

/-!
Handlers for trying a router out on a ledger of its own: packets in JSON, a swap against a pool at a
fixed rate, escrow accounts in place of a bridge, and handlers that only do what they are told.
-/

namespace TransferRouter

namespace Testbed

/-- The account that the handlers pay from. -/
def holding : String := "orbiter-holding"

/-- The account that swaps trade with. -/
def swapPool : String := "swap-pool"

/-- The account that receives what is sent over a protocol. -/
def escrow : ProtocolId → String
  | .cctp => "cctp-escrow"
  | .hyperlane => "hyperlane-escrow"
  | .ibc | .unsupported => "ibc-escrow"

/-- Reads packets in their JSON form. -/
def jsonParser (id : ProtocolId) : PacketParser where
  id := id
  parse raw :=
    match (Json.read? raw).bind JsonForm.ofJson? with
    | some packet => .ok packet
    | none => .error (.serialization "malformed packet")

/-- Trades the whole destination coin for half as much of the wanted denomination, rounded down. -/
def swap (attributes : SwapAttributes) : WorkbenchM Unit := do
  let input := (← get).transfer.destinationCoin
  let output : Coin := ⟨attributes.outputDenom, input.amount.divide 2⟩
  if output.amount.toNat < attributes.minimumOutput.toNat then
    throw (.controller ("swap output " ++ output.amount.decimal ++ " below minimum " ++
      attributes.minimumOutput.decimal))
  WorkbenchM.onBooks (BooksM.onLedger (LedgerM.send holding swapPool [input]))
  WorkbenchM.onBooks (BooksM.onLedger (LedgerM.send swapPool holding [output]))
  WorkbenchM.setDenom output.denom
  WorkbenchM.setAmount output.amount

/-- Swaps at the rate of two to one. -/
def swapController : ActionController where
  id := .swap
  name := "swap"
  run action :=
    match action.attributes with
    | .swap attributes => swap attributes
    | .fee _ => throw (.validation .notSwapAttributes)

/-- Moves the coin to the escrow account of a protocol and keeps the packet. -/
def escrowController (id : ProtocolId) : ForwardingController where
  id := id
  send packet := do
    BooksM.onLedger (LedgerM.send holding (escrow id) [packet.transfer.destinationCoin])
    modify fun b => { b with outbox := b.outbox ++ [⟨id, packet⟩] }

/-- What a scripted action does: it sets the destination denomination and the amount, where they are
given, and then may fail. -/
structure ActionScript where
  id : ActionId
  denom : Option String
  amount : Option Amount
  failure : Option String

/-- Does what a script says and moves nothing. -/
def ActionScript.controller (script : ActionScript) : ActionController where
  id := script.id
  name := "scripted"
  run _ := do
    script.denom.forM WorkbenchM.setDenom
    script.amount.forM WorkbenchM.setAmount
    script.failure.forM fun text => throw (.controller text)

/-- Accepts every packet, or refuses it for a given reason. -/
def scriptedForwarder (id : ProtocolId) (failure : Option String) : ForwardingController where
  id := id
  send _ := failure.forM fun text => throw (.controller text)

end Testbed

end TransferRouter
