import TransferRouter.Codec
import TransferRouter.Event
import TransferRouter.Genesis
import TransferRouter.Pending
import TransferRouter.Statistics

/-!
The layout of each stored type: records are their parts in order, alternatives are numbered in the
order of their declaration, amounts are stored as their written form, and endpoints are checked when
they are decoded.
-/

namespace TransferRouter

open Codec

instance : Codec ProtocolId where
  encode p := encodeVariant p.number
  decode := decodeVariant [plain .unsupported, plain .ibc, plain .cctp, plain .hyperlane]

instance : Codec ActionId where
  encode a := encodeVariant a.number
  decode := decodeVariant [plain .unsupported, plain .fee, plain .swap]

instance : Codec Amount :=
  via Amount.write fun s =>
    match Amount.read (Utf8.encode s) with
    | .ok a => .ok a
    | .error fault => .error (.notAmount fault)

instance : Codec CrossChainId :=
  via (fun id => (id.protocol, id.counterparty)) fun (protocol, counterparty) =>
    match CrossChainId.make protocol counterparty with
    | .ok id => .ok id
    | .error cause => .error (.rejected cause)

instance : Codec PayloadHash where
  encode hash := hash.bytes
  decode s :=
    match PayloadHash.ofBytes? (s.take 32) with
    | some hash => .ok (hash, s.drop 32)
    | none => .error .endOfInput

instance : Codec Coin :=
  via (fun c => (c.denom, c.amount)) fun (denom, amount) => .ok ⟨denom, amount⟩

instance : Codec FeeShare :=
  via (fun f => (f.recipient, f.basisPoints)) fun (recipient, share) => .ok ⟨recipient, share⟩

instance : Codec FeeAttributes := via (·.fees) fun fees => .ok ⟨fees⟩

instance : Codec SwapAttributes :=
  via (fun a => (a.outputDenom, a.minimumOutput, a.recipient)) fun (denom, minimum, recipient) =>
    .ok ⟨denom, minimum, recipient⟩

instance : Codec ActionAttributes where
  encode
    | .fee a => encodeVariant 0 ++ encode a
    | .swap a => encodeVariant 1 ++ encode a
  decode := decodeVariant [carrying ActionAttributes.fee, carrying ActionAttributes.swap]

instance : Codec IbcAttributes :=
  via (fun a => (a.channel, a.recipient, a.timeout)) fun (channel, recipient, timeout) =>
    .ok ⟨channel, recipient, timeout⟩

instance : Codec CctpAttributes :=
  via (fun a => (a.domain, a.mintRecipient, a.caller)) fun (domain, recipient, caller) =>
    .ok ⟨domain, recipient, caller⟩

instance : Codec HyperlaneAttributes :=
  via (fun a => (a.token, a.domain, a.recipient, a.hook, a.gasLimit, a.maxFee))
    fun (token, domain, recipient, hook, gasLimit, maxFee) =>
      .ok ⟨token, domain, recipient, hook, gasLimit, maxFee⟩

instance : Codec ForwardingAttributes where
  encode
    | .ibc a => encodeVariant 0 ++ encode a
    | .cctp a => encodeVariant 1 ++ encode a
    | .hyperlane a => encodeVariant 2 ++ encode a
  decode :=
    decodeVariant [carrying ForwardingAttributes.ibc, carrying ForwardingAttributes.cctp,
      carrying ForwardingAttributes.hyperlane]

instance : Codec Action :=
  via (fun a => (a.id, a.attributes)) fun (id, attributes) => .ok ⟨id, attributes⟩

instance : Codec Forwarding :=
  via (fun f => (f.protocol, f.attributes, f.passthrough))
    fun (protocol, attributes, passthrough) => .ok ⟨protocol, attributes, passthrough⟩

instance : Codec Payload :=
  via (fun p => (p.preActions, p.forwarding)) fun (actions, forwarding) => .ok ⟨actions, forwarding⟩

instance : Codec PacketPayload where
  encode
    | .inline p => encodeVariant 0 ++ encode p
    | .pending h => encodeVariant 1 ++ encode h
  decode := decodeVariant [carrying PacketPayload.inline, carrying PacketPayload.pending]

instance : Codec InboundPacket :=
  via (fun p => (p.coin, p.payload)) fun (coin, payload) => .ok ⟨coin, payload⟩

instance : Codec Transfer :=
  via (fun t => (t.sourceProtocol, t.sourceCounterparty, t.sourceDenom, t.sourceAmount,
      t.destinationDenom, t.destinationAmount))
    fun (protocol, counterparty, sourceDenom, sourceAmount, denom, amount) =>
      .ok ⟨protocol, counterparty, sourceDenom, sourceAmount, denom, amount⟩

instance : Codec RoutedPacket :=
  via (fun p => (p.transfer, p.payload)) fun (transfer, payload) => .ok ⟨transfer, payload⟩

instance : Codec PendingEntry :=
  via (fun e => (e.sequence, e.payload, e.timestamp)) fun (sequence, payload, timestamp) =>
    .ok ⟨sequence, payload, timestamp⟩

instance : Codec Traffic :=
  via (fun t => (t.incoming, t.outgoing)) fun (incoming, outgoing) => .ok ⟨incoming, outgoing⟩

instance : Codec Params := via (·.passthroughLimit) fun limit => .ok ⟨limit⟩

instance : Codec Accounts :=
  via (fun a => (a.holding, a.dust)) fun (holding, dust) => .ok ⟨holding, dust⟩

instance : Codec PendingConfig :=
  via (fun p => (p.lifetime, p.sweepLimit)) fun (lifetime, limit) => .ok ⟨lifetime, limit⟩

instance : Codec Config :=
  via (fun c => (c.authority, c.accounts, c.params, c.pending))
    fun (authority, accounts, params, pending) => .ok ⟨authority, accounts, params, pending⟩

instance : Codec Genesis :=
  via (fun g => (g.params, g.pausedActions, g.pausedProtocols, g.pausedRoutes))
    fun (params, actions, protocols, routes) => .ok ⟨params, actions, protocols, routes⟩

/-- The content of a report about a dispatch. -/
def Event.processed (p : CrossChainId × CrossChainId × Coin × Coin) : Event :=
  .payloadProcessed p.1 p.2.1 p.2.2.1 p.2.2.2

instance : Codec Event where
  encode
    | .payloadProcessed source destination incoming outgoing =>
      encodeVariant 0 ++ encode (source, destination, incoming, outgoing)
    | .dustCleared coin => encodeVariant 1 ++ encode coin
    | .feeCharged recipient coin => encodeVariant 2 ++ encode (recipient, coin)
    | .actionPaused action => encodeVariant 3 ++ encode action
    | .actionUnpaused action => encodeVariant 4 ++ encode action
    | .protocolPaused protocol => encodeVariant 5 ++ encode protocol
    | .protocolUnpaused protocol => encodeVariant 6 ++ encode protocol
    | .counterpartyPaused protocol counterparty =>
      encodeVariant 7 ++ encode (protocol, counterparty)
    | .counterpartyUnpaused protocol counterparty =>
      encodeVariant 8 ++ encode (protocol, counterparty)
    | .pendingPayloadSubmitted hash sequence => encodeVariant 9 ++ encode (hash, sequence)
    | .pendingPayloadRemoved hash => encodeVariant 10 ++ encode hash
    | .pendingPayloadExpired hash => encodeVariant 11 ++ encode hash
    | .paramsUpdated params => encodeVariant 12 ++ encode params
  decode :=
    decodeVariant [carrying Event.processed, carrying Event.dustCleared,
      carrying fun p : String × Coin => .feeCharged p.1 p.2,
      carrying Event.actionPaused, carrying Event.actionUnpaused,
      carrying Event.protocolPaused, carrying Event.protocolUnpaused,
      carrying fun p : ProtocolId × String => .counterpartyPaused p.1 p.2,
      carrying fun p : ProtocolId × String => .counterpartyUnpaused p.1 p.2,
      carrying fun p : PayloadHash × UInt64 => .pendingPayloadSubmitted p.1 p.2,
      carrying Event.pendingPayloadRemoved, carrying Event.pendingPayloadExpired,
      carrying Event.paramsUpdated]

end TransferRouter
