import TransferRouter.Identifier
import TransferRouter.Coin

/-!
Why a value is refused as malformed, each cause with its wording. A cause may also be worded by a
host's own controller.
-/

namespace TransferRouter

/-- A part of the configuration, as it is named in messages. -/
inductive ConfigField where
  | authority
  | holding
  | dust
  | passthroughLimit
  | pendingLifetime
  | sweepLimit
  deriving DecidableEq

/-- The place of a part in the configuration. -/
def ConfigField.path : ConfigField → String
  | authority => "authority"
  | holding => "accounts.holding"
  | dust => "accounts.dust"
  | passthroughLimit => "params.max_passthrough_payload_size"
  | pendingLifetime => "pending.ttl_secs"
  | sweepLimit => "pending.sweep_limit"

/-- The variable that a part is read from. -/
def ConfigField.variable : ConfigField → String
  | authority => "ORBITER_AUTHORITY"
  | holding => "ORBITER_HOLDING_ACCOUNT"
  | dust => "ORBITER_DUST_ACCOUNT"
  | passthroughLimit => "ORBITER_MAX_PASSTHROUGH_PAYLOAD_SIZE"
  | pendingLifetime => "ORBITER_PENDING_TTL_SECS"
  | sweepLimit => "ORBITER_PENDING_SWEEP_LIMIT"

/-- Why a configuration is refused. -/
inductive ConfigFault where
  | missing (field : ConfigField)
  /-- The dust account is the holding account. -/
  | sharedAccount
  | notPositive (field : ConfigField)
  /-- The variable of a number holds a text that is no numeral of it. -/
  | notNumeral (field : ConfigField) (raw : String) (fault : Decimal.Fault)
  deriving DecidableEq

/-- The wording of a message about a part that is there but wrong. -/
def ConfigFault.wrong (field : ConfigField) (reason : String) : String :=
  "invalid configuration value for " ++ field.path ++ ": " ++ reason

/-- The wording of a fault. -/
def ConfigFault.message : ConfigFault → String
  | missing field => "configuration value " ++ field.path ++ " is empty"
  | sharedAccount => wrong .dust "must differ from the holding account"
  | notPositive field => wrong field "must be positive"
  | notNumeral field raw fault =>
    wrong field (field.variable ++ "=" ++ raw ++ ": " ++ fault.message)

/-- An address of 32 bytes, as it is named in messages. -/
inductive AddressField where
  | cctpMintRecipient
  | hyperlaneRecipient
  deriving DecidableEq

/-- The name of an address in messages. -/
def AddressField.name : AddressField → String
  | cctpMintRecipient => "cctp mint recipient"
  | hyperlaneRecipient => "hyperlane recipient"

/-- Why a value is malformed. -/
inductive Invalid where
  | reservedProtocol
  | unknownProtocol (number : Nat)
  | reservedAction
  | unknownAction (number : Nat)
  | emptyCounterparty
  | missingColon (text : String)
  | badProtocolNumeral (text : String)
  | badHashText (fault : Hex.Fault)
  | badHashLength
  | emptyCoinDenom
  | emptySourceCounterparty
  | emptySourceDenom
  | emptyDestinationDenom
  | noFees
  | emptyFeeRecipient
  | badFeeShare (basisPoints : Nat)
  | badFeeTotal (basisPoints : Nat)
  | emptySwapDenom
  | zeroSwapMinimum
  | emptyIbcChannel
  | emptyIbcRecipient
  | badAddressLength (field : AddressField) (length : Nat)
  | zeroAddress (field : AddressField)
  | badCallerLength
  | emptyTokenId
  | actionMismatch (declared carried : ActionId)
  | forwardingMismatch (declared carried : ProtocolId)
  | badPreAction (index : Nat) (cause : Invalid)
  | zeroPassthroughLimit
  | longPassthrough (length limit : Nat)
  /-- The holding account holds nothing of what is to be forwarded. -/
  | heldNothing (expected : Coin)
  | heldOther (held expected : Coin)
  | heldSeveral (count : Nat) (expected : Coin)
  | repeatedAction (id : ActionId)
  | repeatedProtocol (id : ProtocolId)
  | repeatedRoute (id : CrossChainId)
  | badRoute (protocol : ProtocolId) (counterparty : String) (cause : Invalid)
  | sealedRegistry (key : Nat)
  | notFeeAttributes (carried : ActionId)
  | notSwapAttributes
  | config (fault : ConfigFault)
  /-- A reason worded by a host. -/
  | stated (text : String)
  deriving DecidableEq

/-- The heading of messages about malformed values. -/
def Invalid.heading : String := "Validation failed: "

/-- The wording of a cause, without its heading. -/
def Invalid.message : Invalid → String
  | reservedProtocol => "protocol id is unsupported"
  | unknownProtocol n => "unknown protocol id " ++ Decimal.print n
  | reservedAction => "action id is unsupported"
  | unknownAction n => "unknown action id " ++ Decimal.print n
  | emptyCounterparty => "counterparty id is empty"
  | missingColon s => "invalid cross-chain id " ++ Text.quoted s ++ ": missing ':'"
  | badProtocolNumeral s => "invalid protocol id " ++ Text.quoted s
  | badHashText fault => "invalid payload hash: " ++ fault.message
  | badHashLength => "payload hash must be 32 bytes"
  | emptyCoinDenom => "coin denom is empty"
  | emptySourceCounterparty => "source counterparty id is empty"
  | emptySourceDenom => "source denom is empty"
  | emptyDestinationDenom => "destination denom is empty"
  | noFees => "fee attributes carry no fees"
  | emptyFeeRecipient => "fee recipient is empty"
  | badFeeShare n =>
    "fee basis points " ++ Decimal.print n ++ " out of range 1..=" ++
      Decimal.print basisPointsOfWhole
  | badFeeTotal n =>
    "total fee basis points " ++ Decimal.print n ++ " exceed " ++ Decimal.print basisPointsOfWhole
  | emptySwapDenom => "swap output denom is empty"
  | zeroSwapMinimum => "swap minimum output is zero"
  | emptyIbcChannel => "ibc channel id is empty"
  | emptyIbcRecipient => "ibc recipient is empty"
  | badAddressLength field n => field.name ++ " must be 32 bytes, got " ++ Decimal.print n
  | zeroAddress field => field.name ++ " is zero"
  | badCallerLength => "cctp destination caller must be empty or 32 bytes"
  | emptyTokenId => "hyperlane token id is empty"
  | actionMismatch declared carried =>
    "action " ++ Decimal.print declared.number ++ " carries attributes of action " ++
      Decimal.print carried.number
  | forwardingMismatch declared carried =>
    "forwarding to protocol " ++ Decimal.print declared.number ++
      " carries attributes of protocol " ++ Decimal.print carried.number
  | badPreAction index cause =>
    "pre-action " ++ Decimal.print index ++ " invalid: " ++ heading ++ cause.message
  | zeroPassthroughLimit => "max passthrough payload size must be positive"
  | longPassthrough length limit =>
    "passthrough payload is " ++ Decimal.print length ++ " bytes, max is " ++ Decimal.print limit
  | heldNothing expected => "holding account is empty, expected " ++ expected.write
  | heldOther held expected =>
    "holding account balance " ++ held.write ++ " does not match forwarded coin " ++ expected.write
  | heldSeveral count expected =>
    "holding account carries " ++ Decimal.print count ++ " balances, expected exactly " ++
      expected.write
  | repeatedAction id => "duplicate paused action " ++ Decimal.print id.number
  | repeatedProtocol id => "duplicate paused protocol " ++ Decimal.print id.number
  | repeatedRoute id => "duplicate paused route " ++ id.write
  | badRoute protocol counterparty cause =>
    "invalid route " ++ Decimal.print protocol.number ++ ":" ++ counterparty ++ ": " ++ heading ++
      cause.message
  | sealedRegistry key => "cannot register route " ++ Decimal.print key ++ ": router is sealed"
  | notFeeAttributes carried =>
    "fee controller received attributes of action " ++ Decimal.print carried.number
  | notSwapAttributes => "swap controller got non-swap attributes"
  | config fault => fault.message
  | stated text => text

end TransferRouter
