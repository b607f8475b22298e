import TransferRouter.Identifier.Reading

/-!
What is to be done with a transfer: pre-actions in order, then one forwarding. Attributes come in
one variant for each action and each protocol, and a payload is well formed when every declared
identifier is that of the variant it carries.
-/

namespace TransferRouter

/-- One recipient of a fee and its share in basis points. -/
structure FeeShare where
  recipient : String
  basisPoints : UInt32
  deriving DecidableEq

/-- The recipients of a fee, charged in order. -/
structure FeeAttributes where
  fees : List FeeShare
  deriving DecidableEq

namespace FeeAttributes

/-- The sum of all shares in basis points. -/
def total (a : FeeAttributes) : Nat := a.fees.foldr (fun f n => f.basisPoints.toNat + n) 0

/-- Refuses an empty recipient and a share that is nothing or more than the whole. -/
def checkShare (f : FeeShare) : Except Invalid Unit := do
  if f.recipient = "" then throw .emptyFeeRecipient
  if f.basisPoints.toNat = 0 ∨ basisPointsOfWhole < f.basisPoints.toNat then
    throw (.badFeeShare f.basisPoints.toNat)

/-- Refuses an empty list, a bad share, and shares that together exceed the whole. -/
def check (a : FeeAttributes) : Except Invalid Unit := do
  if a.fees = [] then throw .noFees
  a.fees.forM checkShare
  if basisPointsOfWhole < a.total then throw (.badFeeTotal a.total)

end FeeAttributes

/-- A swap of the whole destination amount. -/
structure SwapAttributes where
  outputDenom : String
  /-- The least output that is accepted. -/
  minimumOutput : Amount
  recipient : Option String
  deriving DecidableEq

/-- Refuses an empty denomination and a minimum of nothing. -/
def SwapAttributes.check (a : SwapAttributes) : Except Invalid Unit := do
  if a.outputDenom = "" then throw .emptySwapDenom
  if a.minimumOutput.isZero then throw .zeroSwapMinimum

/-- The attributes of a pre-action. -/
inductive ActionAttributes where
  | fee (attributes : FeeAttributes)
  | swap (attributes : SwapAttributes)
  deriving DecidableEq

namespace ActionAttributes

/-- The action that a variant belongs to. -/
def id : ActionAttributes → ActionId
  | fee _ => .fee
  | swap _ => .swap

/-- Checks the attributes of the variant. -/
def check : ActionAttributes → Except Invalid Unit
  | fee a => a.check
  | swap a => a.check

end ActionAttributes

/-- A transfer over an IBC channel. -/
structure IbcAttributes where
  channel : String
  recipient : String
  /-- Absolute timeout in nanoseconds, 0 for none. -/
  timeout : UInt64
  deriving DecidableEq

/-- A burn over CCTP. -/
structure CctpAttributes where
  domain : UInt32
  mintRecipient : Bytes
  /-- The only caller at the destination, or empty for any. -/
  caller : Bytes
  deriving DecidableEq

/-- A transfer over a Hyperlane warp route. -/
structure HyperlaneAttributes where
  token : Bytes
  domain : UInt32
  recipient : Bytes
  hook : Option Bytes
  gasLimit : Amount
  maxFee : Amount
  deriving DecidableEq

/-- The attributes of the forwarding. -/
inductive ForwardingAttributes where
  | ibc (attributes : IbcAttributes)
  | cctp (attributes : CctpAttributes)
  | hyperlane (attributes : HyperlaneAttributes)
  deriving DecidableEq

/-- Refuses an address that is not of 32 bytes or is all zero. -/
def checkAddress (field : AddressField) (s : Bytes) : Except Invalid Unit := do
  if s.length ≠ 32 then throw (.badAddressLength field s.length)
  if s.all (· == 0) then throw (.zeroAddress field)

namespace ForwardingAttributes

/-- The protocol that a variant belongs to. -/
def protocol : ForwardingAttributes → ProtocolId
  | ibc _ => .ibc
  | cctp _ => .cctp
  | hyperlane _ => .hyperlane

/-- The counterparty in the protocol's own terms: a channel, or a domain's decimal numeral. -/
def counterparty : ForwardingAttributes → String
  | ibc a => a.channel
  | cctp a => Decimal.print a.domain.toNat
  | hyperlane a => Decimal.print a.domain.toNat

/-- Checks the attributes of the variant. -/
def check : ForwardingAttributes → Except Invalid Unit
  | ibc a => do
    if a.channel = "" then throw .emptyIbcChannel
    if a.recipient = "" then throw .emptyIbcRecipient
  | cctp a => do
    checkAddress .cctpMintRecipient a.mintRecipient
    if a.caller ≠ [] ∧ a.caller.length ≠ 32 then throw .badCallerLength
  | hyperlane a => do
    if a.token = [] then throw .emptyTokenId
    checkAddress .hyperlaneRecipient a.recipient

end ForwardingAttributes

/-- A pre-action under a declared identifier. -/
structure Action where
  id : ActionId
  attributes : ActionAttributes
  deriving DecidableEq

namespace Action

/-- The action declared as what its attributes are. -/
def ofAttributes (a : ActionAttributes) : Action := ⟨a.id, a⟩

/-- Refuses a reserved identifier, attributes of another action, and bad attributes. -/
def check (a : Action) : Except Invalid Unit := do
  a.id.check
  if a.attributes.id ≠ a.id then throw (.actionMismatch a.id a.attributes.id)
  a.attributes.check

end Action

/-- The outbound leg under a declared protocol, with bytes handed through to the destination. -/
structure Forwarding where
  protocol : ProtocolId
  attributes : ForwardingAttributes
  passthrough : Bytes
  deriving DecidableEq

namespace Forwarding

/-- The forwarding declared as what its attributes are. -/
def ofAttributes (a : ForwardingAttributes) (passthrough : Bytes) : Forwarding :=
  ⟨a.protocol, a, passthrough⟩

/-- The endpoint that the forwarding goes to. -/
def destination (f : Forwarding) : Except Invalid CrossChainId :=
  CrossChainId.make f.protocol f.attributes.counterparty

/-- Refuses a reserved protocol, attributes of another protocol, and bad attributes. -/
def check (f : Forwarding) : Except Invalid Unit := do
  f.protocol.check
  if f.attributes.protocol ≠ f.protocol then
    throw (.forwardingMismatch f.protocol f.attributes.protocol)
  f.attributes.check

end Forwarding

/-- Pre-actions, executed in order, and the forwarding that follows them. -/
structure Payload where
  preActions : List Action
  forwarding : Forwarding
  deriving DecidableEq

namespace Payload

/-- The payload without pre-actions. -/
def forwardOnly (f : Forwarding) : Payload := ⟨[], f⟩

/-- Checks pre-actions, of which the first is the one of the given index. -/
def checkActions (index : Nat) : List Action → Except Invalid Unit
  | [] => .ok ()
  | a :: rest =>
    match a.check with
    | .error cause => .error (.badPreAction index cause)
    | .ok () => checkActions (index + 1) rest

/-- Checks the forwarding, then every pre-action. -/
def check (p : Payload) : Except Invalid Unit := do
  p.forwarding.check
  checkActions 0 p.preActions

end Payload

end TransferRouter
