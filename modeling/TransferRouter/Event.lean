import TransferRouter.Config
import TransferRouter.Transfer

/-! What the router reports. Pauses are reported only when they change something. -/

namespace TransferRouter

/-- A report of the router. -/
inductive Event where
  | payloadProcessed (source destination : CrossChainId) (incoming outgoing : Coin)
  /-- What was left in the holding account went to the dust account. -/
  | dustCleared (coin : Coin)
  | feeCharged (recipient : String) (coin : Coin)
  | actionPaused (action : ActionId)
  | actionUnpaused (action : ActionId)
  | protocolPaused (protocol : ProtocolId)
  | protocolUnpaused (protocol : ProtocolId)
  | counterpartyPaused (protocol : ProtocolId) (counterparty : String)
  | counterpartyUnpaused (protocol : ProtocolId) (counterparty : String)
  | pendingPayloadSubmitted (hash : PayloadHash) (sequence : UInt64)
  /-- A recorded payload was completed or removed. -/
  | pendingPayloadRemoved (hash : PayloadHash)
  | pendingPayloadExpired (hash : PayloadHash)
  | paramsUpdated (params : Params)
  deriving DecidableEq

/-- The name of a kind of report. -/
def Event.name : Event → String
  | payloadProcessed .. => "payload_processed"
  | dustCleared _ => "dust_cleared"
  | feeCharged .. => "fee_charged"
  | actionPaused _ => "action_paused"
  | actionUnpaused _ => "action_unpaused"
  | protocolPaused _ => "protocol_paused"
  | protocolUnpaused _ => "protocol_unpaused"
  | counterpartyPaused .. => "counterparty_paused"
  | counterpartyUnpaused .. => "counterparty_unpaused"
  | pendingPayloadSubmitted .. => "pending_payload_submitted"
  | pendingPayloadRemoved _ => "pending_payload_removed"
  | pendingPayloadExpired _ => "pending_payload_expired"
  | paramsUpdated _ => "params_updated"

end TransferRouter
