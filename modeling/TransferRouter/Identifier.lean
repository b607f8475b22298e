import TransferRouter.Bytes.Hex
import TransferRouter.Text.Decimal

/-!
Names of what is routed: bridging protocols, pre-actions, endpoints on other chains and recorded
payloads. The number 0 of protocols and of actions is reserved and never routed.
-/

namespace TransferRouter

/-- A bridging protocol. -/
inductive ProtocolId where
  | unsupported
  | ibc
  | cctp
  | hyperlane
  deriving DecidableEq

namespace ProtocolId

/-- The protocols that may be routed. -/
def supported : List ProtocolId := [ibc, cctp, hyperlane]

/-- The number of a protocol, also its written form. -/
def number : ProtocolId → Nat
  | unsupported => 0
  | ibc => 1
  | cctp => 2
  | hyperlane => 3

/-- The protocol of a number. -/
def ofNumber? : Nat → Option ProtocolId
  | 0 => some unsupported
  | 1 => some ibc
  | 2 => some cctp
  | 3 => some hyperlane
  | _ => none

/-- The name of a protocol in messages. -/
def name : ProtocolId → String
  | unsupported => "unsupported"
  | ibc => "ibc"
  | cctp => "cctp"
  | hyperlane => "hyperlane"

instance : Inhabited ProtocolId := ⟨unsupported⟩

@[simp] theorem ofNumber?_number (p : ProtocolId) : ofNumber? p.number = some p := by
  cases p <;> rfl

theorem number_inj {p q : ProtocolId} (h : p.number = q.number) : p = q := by
  have hp := ofNumber?_number p
  rw [h, ofNumber?_number] at hp
  exact (Option.some.inj hp).symm

end ProtocolId

/-- A pre-action. -/
inductive ActionId where
  | unsupported
  | fee
  | swap
  deriving DecidableEq

namespace ActionId

/-- The actions that may be routed. -/
def supported : List ActionId := [fee, swap]

/-- The number of an action, also its written form. -/
def number : ActionId → Nat
  | unsupported => 0
  | fee => 1
  | swap => 2

/-- The action of a number. -/
def ofNumber? : Nat → Option ActionId
  | 0 => some unsupported
  | 1 => some fee
  | 2 => some swap
  | _ => none

/-- The name of an action in messages. -/
def name : ActionId → String
  | unsupported => "unsupported"
  | fee => "fee"
  | swap => "swap"

instance : Inhabited ActionId := ⟨unsupported⟩

end ActionId

/-- One end of a route: a protocol and a counterparty that only the protocol understands, such as a
channel or a domain number. -/
structure CrossChainId where
  protocol : ProtocolId
  counterparty : String
  deriving DecidableEq

/-- The written form: the protocol's number, a colon and the counterparty. -/
def CrossChainId.write (id : CrossChainId) : String :=
  Decimal.print id.protocol.number ++ ":" ++ id.counterparty

/-- The name of a recorded payload: a digest of 32 bytes. -/
structure PayloadHash where
  bytes : Bytes
  length_eq : bytes.length = 32
  deriving DecidableEq

/-- The written form: 64 lower-case hexadecimal digits. -/
def PayloadHash.write (hash : PayloadHash) : String := Hex.encode hash.bytes

end TransferRouter
