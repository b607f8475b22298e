import TransferRouter.World

/-!
Circuit breakers: actions, whole protocols and single routes that are paused. A breaker is open
while its key is in the store. Only a change is reported.
-/

namespace TransferRouter

namespace Breaker

/-- True when the key of a breaker is in the store. -/
def isOpen (key : Key) : RouterM Bool := RouterM.onDisk (Disk.contains key.bytes)

/-- Opens or closes a breaker. The answer tells whether that changed it. -/
def set (key : Key) (paused : Bool) : RouterM Bool := RouterM.onDisk do
  let present ← Disk.contains key.bytes
  match present, paused with
  | false, true =>
    Disk.put key.bytes []
    return true
  | true, false =>
    Disk.delete key.bytes
    return true
  | _, _ => return false

/-- The report of a breaker of an action. -/
def actionEvent (paused : Bool) (action : ActionId) : Event :=
  if paused then .actionPaused action else .actionUnpaused action

/-- The report of a breaker of a protocol. -/
def protocolEvent (paused : Bool) (protocol : ProtocolId) : Event :=
  if paused then .protocolPaused protocol else .protocolUnpaused protocol

/-- The report of a breaker of a route. -/
def routeEvent (paused : Bool) (route : CrossChainId) : Event :=
  if paused then .counterpartyPaused route.protocol route.counterparty
  else .counterpartyUnpaused route.protocol route.counterparty

/-- Pauses or resumes an action. -/
def setAction (action : ActionId) (paused : Bool) : RouterM Unit := do
  checked action.check
  if ← set (.pausedAction action) paused then
    RouterM.emit (actionEvent paused action)

/-- Pauses or resumes a whole protocol. -/
def setProtocol (protocol : ProtocolId) (paused : Bool) : RouterM Unit := do
  if ← set (.pausedProtocol protocol) paused then
    RouterM.emit (protocolEvent paused protocol)

/-- The routes of a protocol to the given counterparties, each once, in order of first mention after
those already seen. -/
def routesTo (protocol : ProtocolId) (seen : List CrossChainId) :
    List String → Except Invalid (List CrossChainId)
  | [] => .ok []
  | counterparty :: rest =>
    match CrossChainId.make protocol counterparty with
    | .error cause => .error (.badRoute protocol counterparty cause)
    | .ok route =>
      if route ∈ seen then routesTo protocol seen rest
      else (routesTo protocol (route :: seen) rest).map (route :: ·)

/-- The key of the breaker of a route. -/
def routeKey (route : CrossChainId) : Key := .pausedRoute route.protocol route.counterparty

/-- Those of the given routes whose breaker is not yet as wanted. -/
def routesToChange (paused : Bool) : List CrossChainId → DiskM (List CrossChainId)
  | [] => return []
  | route :: rest => do
    let present ← Disk.contains (routeKey route).bytes
    let others ← routesToChange paused rest
    return if present == paused then others else route :: others

/-- The write that opens or closes the breaker of a route. -/
def routeWrite (paused : Bool) (route : CrossChainId) : Write :=
  if paused then .put (routeKey route).bytes [] else .delete (routeKey route).bytes

/-- Pauses or resumes single routes of a protocol in one batch. A malformed route fails the whole
call before anything is written. -/
def setRoutes (protocol : ProtocolId) (counterparties : List String) (paused : Bool) :
    RouterM Unit := do
  let routes ← checked (routesTo protocol [] counterparties)
  let changed ← RouterM.onDisk do
    let changed ← routesToChange paused routes
    if changed ≠ [] then Disk.write (changed.map (routeWrite paused))
    return changed
  changed.forM fun route => RouterM.emit (routeEvent paused route)

/-- Pauses or resumes a protocol: all of it if no counterparties are given, else only the routes to
them. -/
def setTraffic (protocol : ProtocolId) (counterparties : List String) (paused : Bool) :
    RouterM Unit := do
  checked protocol.check
  match counterparties with
  | [] => setProtocol protocol paused
  | _ => setRoutes protocol counterparties paused

/-- Decodes what the keys of a listing name. -/
def decodeSuffixes (α : Type) [Codec α] (entries : List (Bytes × Bytes)) :
    Except StoreFault (List α) :=
  entries.mapM fun e => Codec.decodeAt α e.1 (e.1.drop 1)

/-- What the keys with a common beginning name, in key order. -/
def listed (α : Type) [Codec α] (start : Bytes) : RouterM (List α) := RouterM.onDisk do
  settle id (decodeSuffixes α (← Disk.extensions start))

/-- The paused actions. -/
def pausedActions : RouterM (List ActionId) := listed ActionId Key.pausedActions

/-- The protocols that are paused as a whole. -/
def pausedProtocols : RouterM (List ProtocolId) := listed ProtocolId Key.pausedProtocols

/-- The paused routes of one protocol, or of all. -/
def pausedRoutes (protocol : Option ProtocolId) : RouterM (List CrossChainId) := do
  let pairs ← listed (ProtocolId × String) (protocol.elim Key.pausedRoutes Key.pausedRoutesOf)
  checked (pairs.mapM fun (protocol, counterparty) => CrossChainId.make protocol counterparty)

end Breaker

end TransferRouter
