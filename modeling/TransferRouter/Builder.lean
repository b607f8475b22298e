import TransferRouter.Administration
import TransferRouter.Genesis.Exchange
import TransferRouter.Inbound

/-!
Building a router of its parts. Building checks the configuration, stores its parameters if the
store has none, and registers the handlers in order, after which no more can be registered.
-/

namespace TransferRouter

/-- The parts of a router. -/
structure Blueprint where
  config : Config
  /-- The signer of administrative calls, if it is not the one of the configuration. -/
  authority : Option String
  parsers : List PacketParser
  /-- Whether the router charges fees itself. -/
  chargesFees : Bool
  actions : List ActionController
  forwarders : List ForwardingController

namespace Blueprint

/-- Stores the parameters of the configuration if there are none. -/
def storeParams (b : Blueprint) : RouterM Unit := do
  match ← RouterM.read Params .params with
  | some _ => return
  | none => Genesis.importState { Genesis.initial with params := b.config.params }

/-- All controllers of pre-actions, that of fees first. -/
def allActions (b : Blueprint) : List ActionController :=
  if b.chargesFees then Fee.controller b.config.accounts.holding :: b.actions else b.actions

/-- Builds a router. -/
def build (b : Blueprint) : RouterM Router := do
  settle (.validation ∘ .config) b.config.check
  b.storeParams
  let actions ← settle id (Registry.ofList ActionController.id b.allActions)
  let forwarders ← settle id (Registry.ofList ForwardingController.id b.forwarders)
  let parsers ← settle id (Registry.ofList PacketParser.id b.parsers)
  return {
    config := b.config
    authority := b.authority.getD b.config.authority
    parsers := parsers
    actions := actions
    forwarders := forwarders }

end Blueprint

end TransferRouter
