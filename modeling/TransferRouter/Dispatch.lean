import TransferRouter.Statistics.Record

/-!
Dispatch of a payload: its pre-actions in order, then its forwarding, then the statistics. A failing
pre-action or forwarding ends the dispatch; a failure of the statistics does not, because the packet
is out by then. How pre-actions are executed and packets forwarded is a parameter.
-/

namespace TransferRouter

/-- Executes pre-actions in order. A failure names its action and leaves the transfer as the actions
before it did. -/
def executeAll (execute : Action → StageM Unit) : List Action → StageM Unit
  | [] => return
  | action :: rest => do
    wrapping (.actionFailed action.id) (StageM.tentatively (execute action))
    executeAll execute rest

/-- Dispatches a payload for a transfer. -/
def dispatch (execute : Action → StageM Unit) (forward : ForwardingPacket → RouterM Unit)
    (payload : Payload) : StageM Unit := do
  checked (← get).transfer.check
  checked payload.check
  let destination ← checked payload.forwarding.destination
  executeAll execute payload.preActions
  let transfer := (← get).transfer
  wrapping (.forwardingFailed payload.forwarding.protocol)
    (StageM.onWorld (forward ⟨transfer, payload.forwarding⟩))
  StageM.onWorld (RouterM.attempt (Statistics.record transfer destination))

end TransferRouter
