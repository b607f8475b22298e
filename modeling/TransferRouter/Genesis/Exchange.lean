import TransferRouter.Breaker
import TransferRouter.Genesis
import TransferRouter.Pending.Record

/-! Import and export of the state that a router is started with. -/

namespace TransferRouter

namespace Genesis

/-- The writes of an import. -/
def writes (g : Genesis) : List Write :=
  .put Key.params.bytes (Codec.encode g.params) ::
    (g.pausedActions.map fun a => .put (Key.pausedAction a).bytes []) ++
    (g.pausedProtocols.map fun p => .put (Key.pausedProtocol p).bytes []) ++
    (g.pausedRoutes.map fun route => .put (Breaker.routeKey route).bytes [])

/-- Stores a state in one batch. -/
def importState (g : Genesis) : RouterM Unit := do
  checked g.check
  RouterM.onDisk (Disk.write g.writes)

/-- The state that is in the store. -/
def exportState : RouterM Genesis := do
  return {
    params := ← loadParams
    pausedActions := ← Breaker.pausedActions
    pausedProtocols := ← Breaker.pausedProtocols
    pausedRoutes := ← Breaker.pausedRoutes none }

end Genesis

end TransferRouter
