import TransferRouter.Error.Storage

/-!
Failures of the router. A failure of a pre-action or of the forwarding wraps its cause and keeps the
kind of it.
-/

namespace TransferRouter

/-- What was looked for and not found. -/
inductive Missing where
  | pendingPayload (hash : PayloadHash)
  | route (key : Nat)
  | stated (text : String)
  deriving DecidableEq

/-- What is there already. -/
inductive Duplicate where
  | pendingPayload (hash : PayloadHash)
  | route (key : Nat)
  | stated (text : String)
  deriving DecidableEq

/-- What is paused. -/
inductive Gate where
  | action (id : ActionId)
  | protocol (id : ProtocolId)
  | route (id : CrossChainId)
  | stated (text : String)
  deriving DecidableEq

/-- A number that left its range. -/
inductive Quantity where
  | incoming
  | outgoing
  | dispatchCount
  | sequence
  | fee
  | feeTotal
  /-- What is left of a transfer after its fees. -/
  | remainder
  | balance (account : String)
  | stated (text : String)
  deriving DecidableEq

/-- A failure inside the store layer, or one stated by a host. -/
inductive StorageCause where
  | store (fault : StoreFault)
  | stated (text : String)
  deriving DecidableEq

/-- A failure of the router. -/
inductive RouterError where
  | validation (cause : Invalid)
  | notFound (item : Missing)
  | unauthorized (expected signer : String)
  | paused (gate : Gate)
  | overflow (quantity : Quantity)
  | alreadyExists (item : Duplicate)
  | insufficientFunds (account required available : String)
  | actionFailed (action : ActionId) (cause : RouterError)
  | forwardingFailed (protocol : ProtocolId) (cause : RouterError)
  /-- A failure inside a controller of the host. -/
  | controller (text : String)
  | storage (cause : StorageCause)
  | serialization (text : String)
  deriving DecidableEq

/-- The kinds of failure that callers tell apart. -/
inductive ErrorKind where
  | validation
  | notFound
  | unauthorized
  | paused
  | overflow
  | alreadyExists
  | insufficientFunds
  | controller
  | internal
  deriving DecidableEq

/-- The wording of a missing item. -/
def Missing.message : Missing → String
  | pendingPayload hash => "pending payload " ++ hash.write
  | route key => "no route for " ++ Decimal.print key
  | stated text => text

/-- The wording of an item that is there already. -/
def Duplicate.message : Duplicate → String
  | pendingPayload hash => "pending payload " ++ hash.write
  | route key => "route " ++ Decimal.print key
  | stated text => text

/-- The wording of a pause. -/
def Gate.message : Gate → String
  | action id => "action " ++ id.name ++ " is paused"
  | protocol id => "protocol " ++ id.name ++ " is paused"
  | route id => "route " ++ id.write ++ " is paused"
  | stated text => text

/-- The wording of a number that left its range. -/
def Quantity.message : Quantity → String
  | incoming => "dispatched incoming amount"
  | outgoing => "dispatched outgoing amount"
  | dispatchCount => "dispatched count"
  | sequence => "pending payload sequence"
  | fee => "fee amount"
  | feeTotal => "total fee"
  | remainder => "fees exceed transfer amount"
  | balance account => "balance of " ++ account
  | stated text => text

/-- The wording of a failure inside the store layer. -/
def StorageCause.message : StorageCause → String
  | store fault => fault.message
  | stated text => text

namespace RouterError

/-- The wording of a failure. -/
def message : RouterError → String
  | validation cause => Invalid.heading ++ cause.message
  | notFound item => "Not found: " ++ item.message
  | unauthorized expected signer => "Unauthorized: expected " ++ expected ++ ", got " ++ signer
  | paused gate => "Paused: " ++ gate.message
  | overflow quantity => "Overflow: " ++ quantity.message
  | alreadyExists item => "Already exists: " ++ item.message
  | insufficientFunds account required available =>
    "Insufficient funds in " ++ account ++ ": required " ++ required ++ ", available " ++ available
  | actionFailed action cause =>
    "Action " ++ Decimal.print action.number ++ " failed: " ++ cause.message
  | forwardingFailed protocol cause =>
    "Forwarding to protocol " ++ Decimal.print protocol.number ++ " failed: " ++ cause.message
  | controller text => "Controller error: " ++ text
  | storage cause => "Storage error: " ++ cause.message
  | serialization text => "Serialization error: " ++ text

/-- The kind of a failure. A wrapped failure has the kind of its cause. -/
def kind : RouterError → ErrorKind
  | validation _ => .validation
  | notFound _ => .notFound
  | unauthorized .. => .unauthorized
  | paused _ => .paused
  | overflow _ => .overflow
  | alreadyExists _ => .alreadyExists
  | insufficientFunds .. => .insufficientFunds
  | actionFailed _ cause | forwardingFailed _ cause => cause.kind
  | controller _ => .controller
  | storage _ | serialization _ => .internal

end RouterError

end TransferRouter
