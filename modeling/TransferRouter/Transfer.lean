import TransferRouter.Payload

/-!
Transfers on their way through the router, and the packets handed from stage to stage. A transfer
starts with its destination coin equal to its source coin; pre-actions change only the destination.
-/

namespace TransferRouter

/-- A transfer: what arrived from where, and what is to be forwarded. -/
structure Transfer where
  sourceProtocol : ProtocolId
  sourceCounterparty : String
  sourceDenom : String
  sourceAmount : Amount
  destinationDenom : String
  destinationAmount : Amount
  deriving DecidableEq

namespace Transfer

/-- The transfer of a coin that arrived from an endpoint. -/
def arriving (source : CrossChainId) (coin : Coin) : Except Invalid Transfer := do
  source.check
  coin.check
  return {
    sourceProtocol := source.protocol
    sourceCounterparty := source.counterparty
    sourceDenom := coin.denom
    sourceAmount := coin.amount
    destinationDenom := coin.denom
    destinationAmount := coin.amount }

/-- The endpoint that the transfer came from. -/
def source (t : Transfer) : Except Invalid CrossChainId :=
  CrossChainId.make t.sourceProtocol t.sourceCounterparty

/-- The coin that arrived. -/
def sourceCoin (t : Transfer) : Coin := ⟨t.sourceDenom, t.sourceAmount⟩

/-- The coin that is to be forwarded. -/
def destinationCoin (t : Transfer) : Coin := ⟨t.destinationDenom, t.destinationAmount⟩

/-- The transfer with another destination denomination, which must not be empty. -/
def withDestinationDenom (t : Transfer) (denom : String) : Except Invalid Transfer :=
  if denom = "" then .error .emptyDestinationDenom else .ok { t with destinationDenom := denom }

/-- The transfer with another destination amount. -/
def withDestinationAmount (t : Transfer) (amount : Amount) : Transfer :=
  { t with destinationAmount := amount }

/-- Refuses a reserved source protocol and empty texts. -/
def check (t : Transfer) : Except Invalid Unit := do
  t.sourceProtocol.check
  if t.sourceCounterparty = "" then throw .emptySourceCounterparty
  if t.sourceDenom = "" then throw .emptySourceDenom
  if t.destinationDenom = "" then throw .emptyDestinationDenom

end Transfer

/-- What the router makes of an inbound packet. -/
structure RoutedPacket where
  transfer : Transfer
  payload : Payload
  deriving DecidableEq

/-- Checks the transfer, then the payload. -/
def RoutedPacket.check (p : RoutedPacket) : Except Invalid Unit := do
  p.transfer.check
  p.payload.check

/-- What a pre-action works on. -/
structure ActionPacket where
  transfer : Transfer
  action : Action
  deriving DecidableEq

/-- Checks the transfer, then the action. -/
def ActionPacket.check (p : ActionPacket) : Except Invalid Unit := do
  p.transfer.check
  p.action.check

/-- What is sent out. -/
structure ForwardingPacket where
  transfer : Transfer
  forwarding : Forwarding
  deriving DecidableEq

/-- Checks the transfer, then the forwarding. -/
def ForwardingPacket.check (p : ForwardingPacket) : Except Invalid Unit := do
  p.transfer.check
  p.forwarding.check

/-- The payload of an inbound packet: carried along, or recorded earlier and named by its hash. -/
inductive PacketPayload where
  | inline (payload : Payload)
  | pending (hash : PayloadHash)
  deriving DecidableEq

/-- An inbound packet as a protocol delivers it. -/
structure InboundPacket where
  coin : Coin
  payload : PacketPayload
  deriving DecidableEq

end TransferRouter
