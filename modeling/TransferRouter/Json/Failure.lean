import TransferRouter.Json
import TransferRouter.Error

/-!
Failures in JSON: an object with the name of the failure and its wording. A failure of the router
also tells its kind and, if it wraps another one, that one. The wording of a packet that could not
be read is left out, because it is its reader's.
-/

namespace TransferRouter

/-- The name of a kind of failure in JSON. -/
def ErrorKind.label : ErrorKind → String
  | validation => "Validation"
  | notFound => "NotFound"
  | unauthorized => "Unauthorized"
  | paused => "Paused"
  | overflow => "Overflow"
  | alreadyExists => "AlreadyExists"
  | insufficientFunds => "InsufficientFunds"
  | controller => "Controller"
  | internal => "Internal"

namespace RouterError

/-- The name of a failure in JSON. -/
def label : RouterError → String
  | validation _ => "Validation"
  | notFound _ => "NotFound"
  | unauthorized .. => "Unauthorized"
  | paused _ => "Paused"
  | overflow _ => "Overflow"
  | alreadyExists _ => "AlreadyExists"
  | insufficientFunds .. => "InsufficientFunds"
  | actionFailed .. => "ActionFailed"
  | forwardingFailed .. => "ForwardingFailed"
  | controller _ => "Controller"
  | storage _ => "Storage"
  | serialization _ => "Serialization"

/-- The wording of a failure, where it is the router's own. -/
def ownMessage : RouterError → List (String × Json)
  | serialization _ => []
  | e => [("message", .text e.message)]

/-- The members that every failure has. -/
def facts (e : RouterError) : List (String × Json) :=
  ("error", .text e.label) :: ("kind", .text e.kind.label) :: e.ownMessage

/-- A failure of the router in JSON. -/
def report : RouterError → Json
  | actionFailed action cause =>
    .object ((actionFailed action cause).facts ++ [("cause", cause.report)])
  | forwardingFailed protocol cause =>
    .object ((forwardingFailed protocol cause).facts ++ [("cause", cause.report)])
  | e => .object e.facts

end RouterError

/-- A failure of the store in JSON. -/
def StoreFault.report (fault : StoreFault) : Json :=
  let label :=
    match fault with
    | .io _ => "IOError"
    | .corruption _ => "CorruptionError"
    | .undecodable .. => "DecodeError"
  .object [("error", .text label), ("message", .text fault.message)]

/-- The refusal of a configuration in JSON. -/
def ConfigFault.report (fault : ConfigFault) : Json :=
  let label :=
    match fault with
    | .missing _ => "Missing"
    | .sharedAccount | .notPositive _ | .notNumeral .. => "Invalid"
  .object [("error", .text label), ("message", .text fault.message)]

end TransferRouter
