import TransferRouter.Testbed
import TransferRouter.Json.Member

/-!
Set-ups of the testbed described in JSON: which handlers a router is built from, and when the store
is to fail. What a description leaves open, or gives as null, is as in the initial set-up.
-/

namespace TransferRouter

namespace Testbed

open Json

/-- A forwarding controller of the testbed. -/
inductive Forwarder where
  /-- Moves the coin into escrow and keeps the packet. -/
  | escrowing (id : ProtocolId)
  /-- Accepts every packet, or refuses it for a given reason. -/
  | scripted (id : ProtocolId) (failure : Option String)

namespace Forwarder

/-- The controller. -/
def controller : Forwarder → ForwardingController
  | escrowing id => escrowController id
  | scripted id failure => scriptedForwarder id failure

/-- The protocol of a forwarder that keeps packets. -/
def keeping? : Forwarder → Option ProtocolId
  | escrowing id => some id
  | scripted .. => none

end Forwarder

/-- The parts of a router of the testbed. -/
structure Setup where
  config : Config
  authority : Option String
  /-- The protocols whose packets are read. -/
  parsers : List ProtocolId
  chargesFees : Bool
  actions : List ActionController
  forwarders : List Forwarder

namespace Setup

/-- A swap, and escrow over every protocol. -/
def initial : Setup :=
  ⟨Config.initial, none, [.ibc], true, [swapController],
    [.escrowing .ibc, .escrowing .cctp, .escrowing .hyperlane]⟩

/-- The blueprint of a set-up. -/
def blueprint (s : Setup) : Blueprint :=
  ⟨s.config, s.authority, s.parsers.map jsonParser, s.chargesFees, s.actions,
    s.forwarders.map Forwarder.controller⟩

/-- The protocols whose forwarders keep what they sent, in order. -/
def keeping (s : Setup) : List ProtocolId := s.forwarders.filterMap Forwarder.keeping?

/-- The action controller that a description asks for. -/
def action? (v : Json) : Option ActionController := do
  let scripted (failure : Option String) : Option ActionController := do
    let script : ActionScript :=
      ⟨← need ActionId v "id", ← option String v "denom", ← option Amount v "amount", failure⟩
    return script.controller
  match ← need String v "mode" with
  | "swap" => return swapController
  | "noop" | "set" => scripted none
  | "fail" => scripted (some "action failed")
  | _ => none

/-- The forwarder that a description asks for. -/
def forwarder? (v : Json) : Option Forwarder := do
  let id ← need ProtocolId v "id"
  match ← need String v "mode" with
  | "escrow" => return .escrowing id
  | "noop" => return .scripted id none
  | "fail" => return .scripted id (some "forward failed")
  | _ => none

/-- The set-up that a description asks for. -/
def read (v : Json) : Option Setup := do
  return {
    config := ← needOr v "config" initial.config
    authority := ← option String v "authority"
    parsers := ← needOr v "parsers" initial.parsers
    chargesFees := ← needOr v "fee" initial.chargesFees
    actions := ← itemsOr v "actions" action? initial.actions
    forwarders := ← itemsOr v "forwarders" forwarder? initial.forwarders }

end Setup

/-- The call on the store that a description names. -/
def storeCall? : String → Option StoreCall
  | "get" => some .get
  | "put" => some .put
  | "delete" => some .delete
  | "batch" => some .batch
  | "exists" => some .contains
  | "prefix" => some .extensions
  | "range" => some .range
  | _ => none

/-- The failures of the store that a description asks for. -/
def faults? (v : Json) : Option FaultPlan := do
  let calls := (← need (List String) v "ops").filterMap storeCall?
  let skip : UInt64 ← needOr v "skip" 0
  let message ← needOr v "message" "disk full"
  let fault : StoreFault ←
    match ← needOr v "error" "io" with
    | "io" => some (.io message)
    | "corruption" => some (.corruption (.stated message))
    | "decode" => some (.undecodable "ff" (.stated message))
    | _ => none
  return if calls.isEmpty then .none else .after calls skip.toNat fault

end Testbed

end TransferRouter
