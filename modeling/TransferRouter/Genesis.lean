import TransferRouter.Config
import TransferRouter.Identifier.Reading

/-!
The exported state of a router: its parameters and what is paused. Recorded payloads and statistics
are no part of it.
-/

namespace TransferRouter

/-- Parameters and the three sets of what is paused. -/
structure Genesis where
  params : Params
  pausedActions : List ActionId
  pausedProtocols : List ProtocolId
  pausedRoutes : List CrossChainId
  deriving DecidableEq

namespace Genesis

/-- The state of a router where nothing was changed. -/
def initial : Genesis := ⟨.initial, [], [], []⟩

/-- Checks the items of a list in turn and refuses one that stood there before. -/
def checkDistinct {α : Type} [DecidableEq α] (check : α → Except Invalid Unit)
    (repeated : α → Invalid) (seen : List α) : List α → Except Invalid Unit
  | [] => .ok ()
  | a :: rest => do
    check a
    if a ∈ seen then throw (repeated a)
    checkDistinct check repeated (a :: seen) rest

/-- Refuses bad parameters, reserved identifiers, malformed routes and repetitions. -/
def check (g : Genesis) : Except Invalid Unit := do
  g.params.check
  checkDistinct ActionId.check .repeatedAction [] g.pausedActions
  checkDistinct ProtocolId.check .repeatedProtocol [] g.pausedProtocols
  checkDistinct CrossChainId.check .repeatedRoute [] g.pausedRoutes

end Genesis

end TransferRouter
