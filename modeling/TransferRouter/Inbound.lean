import TransferRouter.Router
import TransferRouter.Pending.Record

/-!
The way of an inbound packet: it is read, the holding account is cleared of what is left there, the
funds arrive, their arrival is confirmed, the payload is dispatched, and a recorded payload that the
packet names is completed. A recorded payload stays in the store until the end, so that a packet
that was refused can be delivered again.
-/

namespace TransferRouter.Router

/-- Reads a packet from an endpoint, and looks up the recorded payload that it may name by the
returned hash. -/
def resolve (r : Router) (source : CrossChainId) (raw : Bytes) :
    RouterM (RoutedPacket × Option PayloadHash) := do
  checked source.check
  let parser ← settle id (r.parsers.require source.protocol)
  let inbound ← settle id (parser.parse raw)
  let (payload, pending) ←
    match inbound.payload with
    | .inline payload => pure (payload, none)
    | .pending hash =>
      match ← Pending.get? hash with
      | some entry => pure (entry.payload, some hash)
      | none => throw (.notFound (.pendingPayload hash))
  let packet : RoutedPacket := ⟨← checked (Transfer.arriving source inbound.coin), payload⟩
  checked packet.check
  return (packet, pending)

/-- Completes the recorded payload of a hash, if there is one. -/
def complete : Option PayloadHash → RouterM Unit
  | none => return
  | some hash => do
    let _ ← Pending.take hash

/-- Makes a packet of raw bytes and completes the recorded payload that it names. -/
def accept (r : Router) (source : CrossChainId) (raw : Bytes) : RouterM RoutedPacket := do
  let (packet, pending) ← r.resolve source raw
  complete pending
  return packet

/-- Before the funds of a packet arrive: refuses a passthrough payload that is too long, and moves
what the holding account has of the denomination to the dust account. -/
def beforeArrival (r : Router) (packet : RoutedPacket) : RouterM Unit := do
  let params ← loadParams
  checked (checkPassthrough packet.payload.forwarding.passthrough.length params.passthroughLimit)
  let accounts := r.config.accounts
  let denom := packet.transfer.destinationDenom
  let leftover := (← get).books.ledger.balance accounts.holding denom
  if !leftover.isZero then
    RouterM.onLedger (LedgerM.send accounts.holding accounts.dust [⟨denom, leftover⟩])
    RouterM.emit (.dustCleared ⟨denom, leftover⟩)

/-- After the funds of a packet arrived: refuses to go on unless the holding account has them. -/
def afterArrival (r : Router) (packet : RoutedPacket) : RouterM Unit := do
  let holding := r.config.accounts.holding
  let coin := packet.transfer.sourceCoin
  let held := (← get).books.ledger.balance holding coin.denom
  if held.toNat < coin.amount.toNat then
    throw (.insufficientFunds holding coin.write (Coin.write ⟨coin.denom, held⟩))

/-- Dispatches the payload of a packet and reports it. -/
def process (r : Router) (payload : Payload) : StageM Unit := do
  let incoming := (← get).transfer.sourceCoin
  r.dispatch payload
  let transfer := (← get).transfer
  let source ← checked transfer.source
  let destination ← checked payload.forwarding.destination
  StageM.onWorld (RouterM.emit
    (.payloadProcessed source destination incoming transfer.destinationCoin))

/-- The whole way of a packet. `receive` moves its funds into the holding account. -/
def deliver (r : Router) (source : CrossChainId) (raw : Bytes)
    (receive : RoutedPacket → LedgerM Unit) : RouterM RoutedPacket := do
  let (packet, pending) ← r.resolve source raw
  r.beforeArrival packet
  RouterM.onLedger (receive packet)
  r.afterArrival packet
  let ((), transfer) ← RouterM.staged packet.transfer (r.process packet.payload)
  complete pending
  return ⟨transfer, packet.payload⟩

end TransferRouter.Router
