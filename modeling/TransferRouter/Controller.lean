import TransferRouter.World
import TransferRouter.Registry

/-!
Handlers that a router is built from. A parser makes an inbound packet of raw bytes; an action
controller runs a pre-action on a transfer and the books; a forwarding controller sends a packet
out.
-/

namespace TransferRouter

/-- Reads the packets of a protocol. -/
structure PacketParser where
  id : ProtocolId
  parse : Bytes → Except RouterError InboundPacket

/-- Runs one kind of pre-action. -/
structure ActionController where
  id : ActionId
  name : String
  run : Action → WorkbenchM Unit

/-- Sends packets out over one protocol. -/
structure ForwardingController where
  id : ProtocolId
  send : ForwardingPacket → BooksM Unit

end TransferRouter
