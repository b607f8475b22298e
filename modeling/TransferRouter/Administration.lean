import TransferRouter.Router
import TransferRouter.Pending.Record

/-!
Administrative calls. All but the submission of a payload are open only to the authority, which is
checked before anything else.
-/

namespace TransferRouter

/-- Refuses any signer but the authority. -/
def checkAuthority (signer authority : String) : Except RouterError Unit :=
  if signer = authority then .ok () else .error (.unauthorized authority signer)

namespace Router

/-- Runs an action in the name of the authority. -/
def authorized {α : Type} (r : Router) (signer : String) (act : RouterM α) : RouterM α := do
  settle id (checkAuthority signer r.authority)
  act

/-- Pauses or resumes an action. -/
def setAction (r : Router) (signer : String) (action : ActionId) (paused : Bool) : RouterM Unit :=
  r.authorized signer (Breaker.setAction action paused)

/-- Pauses or resumes a whole protocol, or only its routes to the listed counterparties. -/
def setTraffic (r : Router) (signer : String) (protocol : ProtocolId)
    (counterparties : List String) (paused : Bool) : RouterM Unit :=
  r.authorized signer (Breaker.setTraffic protocol counterparties paused)

/-- Replaces the parameters. -/
def updateParams (r : Router) (signer : String) (params : Params) : RouterM Unit :=
  r.authorized signer do
    checked params.check
    RouterM.onDisk (Disk.put Key.params.bytes (Codec.encode params))
    RouterM.emit (.paramsUpdated params)

/-- Records a payload for any signer. -/
def submitPayload (_r : Router) (_signer : String) (payload : Payload) : RouterM PayloadHash :=
  Pending.submit payload

/-- Drops a recorded payload without executing it. -/
def removePending (r : Router) (signer : String) (hash : PayloadHash) : RouterM Unit :=
  r.authorized signer do
    let _ ← Pending.take hash

/-- Drops recorded payloads that have outlived their lifetime. -/
def endBlock (r : Router) (now : UInt64) : RouterM (List PayloadHash) :=
  Pending.endBlock r.config.pending now

end Router

end TransferRouter
