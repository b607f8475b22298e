import TransferRouter.Breaker
import TransferRouter.Controller.Fee
import TransferRouter.Dispatch

/-!
A router: its configuration and its handlers, which never change once it is built. Execution of a
pre-action and forwarding of a packet are guarded by the circuit breakers, and a packet is only
forwarded when the holding account holds exactly the coin that is to be sent.
-/

namespace TransferRouter

/-- A router in service. -/
structure Router where
  config : Config
  /-- The only signer of administrative calls. -/
  authority : String
  parsers : Registry ProtocolId PacketParser
  actions : Registry ActionId ActionController
  forwarders : Registry ProtocolId ForwardingController

/-- Refuses what is held, given as its coins, unless it is exactly one expected coin. Coins of
nothing do not count. -/
def checkHeld (held : List Coin) (expected : Coin) : Except Invalid Unit :=
  match held.filter fun c => !c.isZero with
  | [] => .error (.heldNothing expected)
  | [coin] => if coin = expected then .ok () else .error (.heldOther coin expected)
  | coins => .error (.heldSeveral coins.length expected)

namespace Router

/-- Executes a pre-action on a transfer. -/
def execute (r : Router) (action : Action) : StageM Unit := do
  checked (ActionPacket.check ⟨(← get).transfer, action⟩)
  if ← StageM.onWorld (Breaker.isOpen (.pausedAction action.id)) then
    throw (.paused (.action action.id))
  let controller ← settle id (r.actions.require action.id)
  StageM.onWorkbench (controller.run action)

/-- Forwards a packet. -/
def forward (r : Router) (packet : ForwardingPacket) : RouterM Unit := do
  checked packet.check
  let destination ← checked packet.forwarding.destination
  if ← Breaker.isOpen (.pausedProtocol packet.forwarding.protocol) then
    throw (.paused (.protocol packet.forwarding.protocol))
  if ← Breaker.isOpen (.pausedRoute packet.forwarding.protocol destination.counterparty) then
    throw (.paused (.route destination))
  let held := (← get).books.ledger.balances r.config.accounts.holding
  checked (checkHeld held packet.transfer.destinationCoin)
  let controller ← settle id (r.forwarders.require packet.forwarding.protocol)
  RouterM.onBooks (controller.send packet)

/-- Dispatches a payload for a transfer. -/
def dispatch (r : Router) (payload : Payload) : StageM Unit :=
  TransferRouter.dispatch r.execute r.forward payload

end Router

end TransferRouter
