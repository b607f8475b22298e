import TransferRouter.Administration
import TransferRouter.Genesis.Exchange
import TransferRouter.Proofs.Inbound

/-!
Sessions: calls of a host on a router, one after the other, each at its own time. A step keeps the
call, what came of it, and the worlds before and after.
-/

namespace TransferRouter

/-- What a host can ask of a router. -/
inductive Call where
  | submit (signer : String) (payload : Payload)
  | complete (hash : PayloadHash)
  | remove (hash : PayloadHash)
  | removePending (signer : String) (hash : PayloadHash)
  | sweep (cutoff : UInt64)
  | endBlock (now : UInt64)
  | accept (source : CrossChainId) (raw : Bytes)
  | deliver (source : CrossChainId) (raw : Bytes) (receive : RoutedPacket → LedgerM Unit)
  | setAction (signer : String) (action : ActionId) (paused : Bool)
  | setTraffic (signer : String) (protocol : ProtocolId) (counterparties : List String)
    (paused : Bool)
  | updateParams (signer : String) (params : Params)
  | importState (genesis : Genesis)

inductive Answer where
  | done
  | hash (hash : PayloadHash)
  | entry (entry : PendingEntry)
  | packet (packet : RoutedPacket)
  | hashes (hashes : List PayloadHash)

namespace Answer

/-- The payloads that were recorded. -/
def submits : Answer → List PayloadHash
  | hash h => [h]
  | _ => []

/-- The payloads that were swept. -/
def sweeps : Answer → List PayloadHash
  | hashes hs => hs
  | _ => []

end Answer

namespace Call

/-- What the router does about a call. -/
def perform (r : Router) : Call → RouterM Answer
  | submit signer payload => do return .hash (← r.submitPayload signer payload)
  | complete hash => do return .entry (← Pending.take hash)
  | remove hash => do
    let _ ← Pending.take hash
    return .done
  | removePending signer hash => do
    r.removePending signer hash
    return .done
  | sweep cutoff => do return .hashes (← Pending.sweep r.config.pending.sweepLimit cutoff)
  | endBlock now => do return .hashes (← r.endBlock now)
  | accept source raw => do return .packet (← r.accept source raw)
  | deliver source raw receive => do return .packet (← r.deliver source raw receive)
  | setAction signer action paused => do
    r.setAction signer action paused
    return .done
  | setTraffic signer protocol counterparties paused => do
    r.setTraffic signer protocol counterparties paused
    return .done
  | updateParams signer params => do
    r.updateParams signer params
    return .done
  | importState genesis => do
    genesis.importState
    return .done

/-- The recorded payload that a call is about. -/
def named (r : Router) : Call → Option PayloadHash
  | complete hash | remove hash | removePending _ hash => some hash
  | accept source raw | deliver source raw _ => r.named source raw
  | _ => none

end Call

/-- One call of a session. -/
structure Step where
  call : Call
  before : World
  outcome : Except RouterError Answer
  after : World

namespace Step

/-- The step that a call is on a world. -/
def of (r : Router) (call : Call) (w : World) : Step :=
  match call.perform r w with
  | .ok a w' => ⟨call, w, .ok a, w'⟩
  | .error e w' => ⟨call, w, .error e, w'⟩

def submits (s : Step) : List PayloadHash :=
  match s.outcome with
  | .ok a => a.submits
  | .error _ => []

def sweeps (s : Step) : List PayloadHash :=
  match s.outcome with
  | .ok a => a.sweeps
  | .error _ => []

/-- The payload that the step is about, if it succeeded. -/
def consumes (r : Router) (s : Step) : List PayloadHash :=
  match s.outcome with
  | .ok _ => (s.call.named r).toList
  | .error _ => []

end Step

/-- The steps of a session. Each call comes with the time at which it is made. -/
def session (r : Router) (w : World) : List (UInt64 × Call) → List Step
  | [] => []
  | (now, call) :: rest =>
    let s := Step.of r call { w with clock := now }
    s :: session r s.after rest

def final (r : Router) (w : World) : List (UInt64 × Call) → World
  | [] => w
  | (now, call) :: rest => final r (Step.of r call { w with clock := now }).after rest

/-! ## What a step can end in -/

section

variable {r : Router} {call : Call} {w w' : World}

theorem Step.of_ok {a : Answer} (h : call.perform r w = .ok a w') :
    Step.of r call w = ⟨call, w, .ok a, w'⟩ := by
  simp only [Step.of, h]

theorem Step.of_error {e : RouterError} (h : call.perform r w = .error e w') :
    Step.of r call w = ⟨call, w, .error e, w'⟩ := by
  simp only [Step.of, h]

theorem Step.of_eq (r : Router) (call : Call) (w : World) :
    Step.of r call w = ⟨call, w, (Step.of r call w).outcome, (Step.of r call w).after⟩ := by
  unfold Step.of
  cases call.perform r w with
  | ok a w' => rfl
  | error e w' => rfl

theorem Step.call_of (r : Router) (call : Call) (w : World) : (Step.of r call w).call = call := by
  rw [Step.of_eq]

theorem Step.before_of (r : Router) (call : Call) (w : World) : (Step.of r call w).before = w := by
  rw [Step.of_eq]

end

end TransferRouter
