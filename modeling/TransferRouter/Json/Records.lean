import TransferRouter.Json.Form
import TransferRouter.Event
import TransferRouter.Genesis
import TransferRouter.Pending
import TransferRouter.Statistics

/-!
The JSON form of each type of the router. Records are objects with named members, alternatives with
content are objects of one member, and alternatives without content are their names. A record may
also be read from the list of its values, except where it is the content of an event. Endpoints are
checked when they are read.
-/

namespace TransferRouter

open JsonForm

/-- The name of a protocol in JSON. -/
def ProtocolId.label : ProtocolId → String
  | unsupported => "Unsupported"
  | ibc => "Ibc"
  | cctp => "Cctp"
  | hyperlane => "Hyperlane"

instance : JsonForm ProtocolId where
  toJson p := .text p.label
  ofJson? v := do
    match ← v.plain? with
    | "Unsupported" => some .unsupported
    | "Ibc" => some .ibc
    | "Cctp" => some .cctp
    | "Hyperlane" => some .hyperlane
    | _ => none

/-- The name of an action in JSON. -/
def ActionId.label : ActionId → String
  | unsupported => "Unsupported"
  | fee => "Fee"
  | swap => "Swap"

instance : JsonForm ActionId where
  toJson a := .text a.label
  ofJson? v := do
    match ← v.plain? with
    | "Unsupported" => some .unsupported
    | "Fee" => some .fee
    | "Swap" => some .swap
    | _ => none

instance : JsonForm PayloadHash where
  toJson h := toJson h.bytes
  ofJson? v := do PayloadHash.ofBytes? (← ofJson? v)

instance : JsonForm CrossChainId where
  toJson id :=
    .object [("protocol_id", toJson id.protocol), ("counterparty_id", toJson id.counterparty)]
  ofJson? v := do
    match ← v.record? ["protocol_id", "counterparty_id"] with
    | [protocol, counterparty] =>
      (CrossChainId.make (← part protocol) (← part counterparty)).toOption
    | _ => none

instance : JsonForm Coin where
  toJson c := .object [("denom", toJson c.denom), ("amount", toJson c.amount)]
  ofJson? v := do
    match ← v.record? ["denom", "amount"] with
    | [denom, amount] => return ⟨← part denom, ← part amount⟩
    | _ => none

instance : JsonForm FeeShare where
  toJson f :=
    .object [("recipient", toJson f.recipient), ("basis_points", toJson f.basisPoints)]
  ofJson? v := do
    match ← v.record? ["recipient", "basis_points"] with
    | [recipient, share] => return ⟨← part recipient, ← part share⟩
    | _ => none

instance : JsonForm FeeAttributes where
  toJson a := .object [("fees", toJson a.fees)]
  ofJson? v := do
    match ← v.record? ["fees"] with
    | [fees] => return ⟨← part fees⟩
    | _ => none

instance : JsonForm SwapAttributes where
  toJson a :=
    .object [("output_denom", toJson a.outputDenom), ("min_output_amount", toJson a.minimumOutput),
      ("recipient", toJson a.recipient)]
  ofJson? v := do
    match ← v.record? ["output_denom", "min_output_amount", "recipient"] with
    | [denom, minimum, recipient] =>
      return ⟨← part denom, ← part minimum, ← part? recipient⟩
    | _ => none

instance : JsonForm ActionAttributes where
  toJson
    | .fee a => .object [("Fee", toJson a)]
    | .swap a => .object [("Swap", toJson a)]
  ofJson? v := do
    match ← v.tagged? with
    | ("Fee", v) => return .fee (← ofJson? v)
    | ("Swap", v) => return .swap (← ofJson? v)
    | _ => none

instance : JsonForm IbcAttributes where
  toJson a :=
    .object [("channel_id", toJson a.channel), ("recipient", toJson a.recipient),
      ("timeout_timestamp", toJson a.timeout)]
  ofJson? v := do
    match ← v.record? ["channel_id", "recipient", "timeout_timestamp"] with
    | [channel, recipient, timeout] =>
      return ⟨← part channel, ← part recipient, ← part timeout⟩
    | _ => none

instance : JsonForm CctpAttributes where
  toJson a :=
    .object [("destination_domain", toJson a.domain), ("mint_recipient", toJson a.mintRecipient),
      ("destination_caller", toJson a.caller)]
  ofJson? v := do
    match ← v.record? ["destination_domain", "mint_recipient", "destination_caller"] with
    | [domain, recipient, caller] =>
      return ⟨← part domain, ← part recipient, ← part caller⟩
    | _ => none

instance : JsonForm HyperlaneAttributes where
  toJson a :=
    .object [("token_id", toJson a.token), ("destination_domain", toJson a.domain),
      ("recipient", toJson a.recipient), ("custom_hook_id", toJson a.hook),
      ("gas_limit", toJson a.gasLimit), ("max_fee", toJson a.maxFee)]
  ofJson? v := do
    match ← v.record? ["token_id", "destination_domain", "recipient", "custom_hook_id", "gas_limit",
      "max_fee"] with
    | [token, domain, recipient, hook, gasLimit, maxFee] =>
      return ⟨← part token, ← part domain, ← part recipient, ← part? hook,
        ← part gasLimit, ← part maxFee⟩
    | _ => none

instance : JsonForm ForwardingAttributes where
  toJson
    | .ibc a => .object [("Ibc", toJson a)]
    | .cctp a => .object [("Cctp", toJson a)]
    | .hyperlane a => .object [("Hyperlane", toJson a)]
  ofJson? v := do
    match ← v.tagged? with
    | ("Ibc", v) => return .ibc (← ofJson? v)
    | ("Cctp", v) => return .cctp (← ofJson? v)
    | ("Hyperlane", v) => return .hyperlane (← ofJson? v)
    | _ => none

instance : JsonForm Action where
  toJson a := .object [("id", toJson a.id), ("attributes", toJson a.attributes)]
  ofJson? v := do
    match ← v.record? ["id", "attributes"] with
    | [id, attributes] => return ⟨← part id, ← part attributes⟩
    | _ => none

instance : JsonForm Forwarding where
  toJson f :=
    .object [("protocol_id", toJson f.protocol), ("attributes", toJson f.attributes),
      ("passthrough_payload", toJson f.passthrough)]
  ofJson? v := do
    match ← v.record? ["protocol_id", "attributes", "passthrough_payload"] with
    | [protocol, attributes, passthrough] =>
      return ⟨← part protocol, ← part attributes, ← part passthrough⟩
    | _ => none

instance : JsonForm Payload where
  toJson p :=
    .object [("pre_actions", toJson p.preActions), ("forwarding", toJson p.forwarding)]
  ofJson? v := do
    match ← v.record? ["pre_actions", "forwarding"] with
    | [actions, forwarding] => return ⟨← part actions, ← part forwarding⟩
    | _ => none

instance : JsonForm PacketPayload where
  toJson
    | .inline p => .object [("Inline", toJson p)]
    | .pending h => .object [("Pending", toJson h)]
  ofJson? v := do
    match ← v.tagged? with
    | ("Inline", v) => return .inline (← ofJson? v)
    | ("Pending", v) => return .pending (← ofJson? v)
    | _ => none

instance : JsonForm InboundPacket where
  toJson p := .object [("coin", toJson p.coin), ("payload", toJson p.payload)]
  ofJson? v := do
    match ← v.record? ["coin", "payload"] with
    | [coin, payload] => return ⟨← part coin, ← part payload⟩
    | _ => none

instance : JsonForm Transfer where
  toJson t :=
    .object [("source_protocol_id", toJson t.sourceProtocol),
      ("source_counterparty_id", toJson t.sourceCounterparty),
      ("source_denom", toJson t.sourceDenom), ("source_amount", toJson t.sourceAmount),
      ("destination_denom", toJson t.destinationDenom),
      ("destination_amount", toJson t.destinationAmount)]
  ofJson? v := do
    match ← v.record? ["source_protocol_id", "source_counterparty_id", "source_denom",
      "source_amount", "destination_denom", "destination_amount"] with
    | [protocol, counterparty, sourceDenom, sourceAmount, denom, amount] =>
      return ⟨← part protocol, ← part counterparty, ← part sourceDenom,
        ← part sourceAmount, ← part denom, ← part amount⟩
    | _ => none

instance : JsonForm RoutedPacket where
  toJson p :=
    .object [("transfer_attributes", toJson p.transfer), ("payload", toJson p.payload)]
  ofJson? v := do
    match ← v.record? ["transfer_attributes", "payload"] with
    | [transfer, payload] => return ⟨← part transfer, ← part payload⟩
    | _ => none

instance : JsonForm PendingEntry where
  toJson e :=
    .object [("sequence", toJson e.sequence), ("payload", toJson e.payload),
      ("timestamp", toJson e.timestamp)]
  ofJson? v := do
    match ← v.record? ["sequence", "payload", "timestamp"] with
    | [sequence, payload, timestamp] =>
      return ⟨← part sequence, ← part payload, ← part timestamp⟩
    | _ => none

instance : JsonForm Traffic where
  toJson t := .object [("incoming", toJson t.incoming), ("outgoing", toJson t.outgoing)]
  ofJson? v := do
    match ← v.record? ["incoming", "outgoing"] with
    | [incoming, outgoing] => return ⟨← part incoming, ← part outgoing⟩
    | _ => none

instance : JsonForm Params where
  toJson p := .object [("max_passthrough_payload_size", toJson p.passthroughLimit)]
  ofJson? v := do
    match ← v.record? ["max_passthrough_payload_size"] with
    | [limit] => return ⟨← part limit⟩
    | _ => none

instance : JsonForm Accounts where
  toJson a := .object [("holding", toJson a.holding), ("dust", toJson a.dust)]
  ofJson? v := do
    match ← v.record? ["holding", "dust"] with
    | [holding, dust] => return ⟨← part holding, ← part dust⟩
    | _ => none

instance : JsonForm PendingConfig where
  toJson p := .object [("ttl_secs", toJson p.lifetime), ("sweep_limit", toJson p.sweepLimit)]
  ofJson? v := do
    match ← v.record? ["ttl_secs", "sweep_limit"] with
    | [lifetime, limit] => return ⟨← part lifetime, ← part limit⟩
    | _ => none

instance : JsonForm Config where
  toJson c :=
    .object [("authority", toJson c.authority), ("accounts", toJson c.accounts),
      ("params", toJson c.params), ("pending", toJson c.pending)]
  ofJson? v := do
    match ← v.record? ["authority", "accounts", "params", "pending"] with
    | [authority, accounts, params, pending] =>
      return ⟨← part authority, ← part accounts, ← part params, ← part pending⟩
    | _ => none

instance : JsonForm Genesis where
  toJson g :=
    .object [("params", toJson g.params), ("paused_actions", toJson g.pausedActions),
      ("paused_protocols", toJson g.pausedProtocols),
      ("paused_counterparties", toJson g.pausedRoutes)]
  ofJson? v := do
    match ← v.record? ["params", "paused_actions", "paused_protocols", "paused_counterparties"] with
    | [params, actions, protocols, routes] =>
      return ⟨← part params, ← part actions, ← part protocols, ← part routes⟩
    | _ => none

/-- Reads an object of one member. -/
def JsonForm.only {α : Type} [JsonForm α] (name : String) (v : Json) : Option α := do
  match ← v.members? [name] with
  | [a] => part a
  | _ => none

/-- Reads an object of two members. -/
def JsonForm.both {α β : Type} [JsonForm α] [JsonForm β] (first second : String) (v : Json) :
    Option (α × β) := do
  match ← v.members? [first, second] with
  | [a, b] => return (← part a, ← part b)
  | _ => none

instance : JsonForm Event where
  toJson
    | .payloadProcessed source destination incoming outgoing =>
      .object [("PayloadProcessed", .object [("source", toJson source),
        ("destination", toJson destination), ("incoming", toJson incoming),
        ("outgoing", toJson outgoing)])]
    | .dustCleared coin => .object [("DustCleared", .object [("coin", toJson coin)])]
    | .feeCharged recipient coin =>
      .object [("FeeCharged", .object [("recipient", toJson recipient), ("coin", toJson coin)])]
    | .actionPaused action => .object [("ActionPaused", .object [("action", toJson action)])]
    | .actionUnpaused action => .object [("ActionUnpaused", .object [("action", toJson action)])]
    | .protocolPaused protocol =>
      .object [("ProtocolPaused", .object [("protocol", toJson protocol)])]
    | .protocolUnpaused protocol =>
      .object [("ProtocolUnpaused", .object [("protocol", toJson protocol)])]
    | .counterpartyPaused protocol counterparty =>
      .object [("CounterpartyPaused", .object [("protocol", toJson protocol),
        ("counterparty", toJson counterparty)])]
    | .counterpartyUnpaused protocol counterparty =>
      .object [("CounterpartyUnpaused", .object [("protocol", toJson protocol),
        ("counterparty", toJson counterparty)])]
    | .pendingPayloadSubmitted hash sequence =>
      .object [("PendingPayloadSubmitted", .object [("hash", toJson hash),
        ("sequence", toJson sequence)])]
    | .pendingPayloadRemoved hash =>
      .object [("PendingPayloadRemoved", .object [("hash", toJson hash)])]
    | .pendingPayloadExpired hash =>
      .object [("PendingPayloadExpired", .object [("hash", toJson hash)])]
    | .paramsUpdated params => .object [("ParamsUpdated", .object [("params", toJson params)])]
  ofJson? v := do
    match ← v.tagged? with
    | ("PayloadProcessed", v) =>
      match ← v.members? ["source", "destination", "incoming", "outgoing"] with
      | [source, destination, incoming, outgoing] =>
        return .payloadProcessed (← part source) (← part destination) (← part incoming)
          (← part outgoing)
      | _ => none
    | ("DustCleared", v) => return .dustCleared (← only "coin" v)
    | ("FeeCharged", v) => (both "recipient" "coin" v).map fun p => .feeCharged p.1 p.2
    | ("ActionPaused", v) => return .actionPaused (← only "action" v)
    | ("ActionUnpaused", v) => return .actionUnpaused (← only "action" v)
    | ("ProtocolPaused", v) => return .protocolPaused (← only "protocol" v)
    | ("ProtocolUnpaused", v) => return .protocolUnpaused (← only "protocol" v)
    | ("CounterpartyPaused", v) =>
      (both "protocol" "counterparty" v).map fun p => .counterpartyPaused p.1 p.2
    | ("CounterpartyUnpaused", v) =>
      (both "protocol" "counterparty" v).map fun p => .counterpartyUnpaused p.1 p.2
    | ("PendingPayloadSubmitted", v) =>
      (both "hash" "sequence" v).map fun p => .pendingPayloadSubmitted p.1 p.2
    | ("PendingPayloadRemoved", v) => return .pendingPayloadRemoved (← only "hash" v)
    | ("PendingPayloadExpired", v) => return .pendingPayloadExpired (← only "hash" v)
    | ("ParamsUpdated", v) => return .paramsUpdated (← only "params" v)
    | _ => none

end TransferRouter
