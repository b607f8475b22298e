import TransferRouter.Error
import TransferRouter.Identifier.Reading

/-!
Registries: which handler serves which identifier. The first handler of an identifier stays, and a
sealed registry never changes.
-/

namespace TransferRouter

/-- Identifiers that handlers can be registered under. -/
class RouteKey (κ : Type) where
  check : κ → Except Invalid Unit
  number : κ → Nat

instance : RouteKey ProtocolId := ⟨ProtocolId.check, ProtocolId.number⟩

instance : RouteKey ActionId := ⟨ActionId.check, ActionId.number⟩

/-- Handlers under their identifiers, in the order of registration. -/
structure Registry (κ ρ : Type) where
  routes : List (κ × ρ)
  isSealed : Bool

namespace Registry

variable {κ ρ : Type}

/-- The registry without handlers. -/
def empty : Registry κ ρ := ⟨[], false⟩

/-- The handler of an identifier. -/
def route? [DecidableEq κ] (r : Registry κ ρ) (key : κ) : Option ρ :=
  (r.routes.find? fun e => e.1 == key).map (·.2)

/-- True when an identifier has a handler. -/
def hasRoute [DecidableEq κ] (r : Registry κ ρ) (key : κ) : Bool := (r.route? key).isSome

/-- The handler of an identifier, which must have one. -/
def require [DecidableEq κ] [RouteKey κ] (r : Registry κ ρ) (key : κ) : Except RouterError ρ :=
  match r.route? key with
  | some handler => .ok handler
  | none => .error (.notFound (.route (RouteKey.number key)))

/-- The registry with one more handler. -/
def add [DecidableEq κ] [RouteKey κ] (r : Registry κ ρ) (key : κ) (handler : ρ) :
    Except RouterError (Registry κ ρ) :=
  if r.isSealed then .error (.validation (.sealedRegistry (RouteKey.number key)))
  else
    match RouteKey.check key with
    | .error cause => .error (.validation cause)
    | .ok () =>
      if r.hasRoute key then .error (.alreadyExists (.route (RouteKey.number key)))
      else .ok { r with routes := r.routes ++ [(key, handler)] }

/-- The registry that no longer changes. -/
def freeze (r : Registry κ ρ) : Registry κ ρ := { r with isSealed := true }

/-- The identifiers with a handler. -/
def keys (r : Registry κ ρ) : List κ := r.routes.map (·.1)

/-- The number of handlers. -/
def size (r : Registry κ ρ) : Nat := r.routes.length

/-- The sealed registry of the given handlers, each registered in turn. -/
def ofList [DecidableEq κ] [RouteKey κ] (key : ρ → κ) (handlers : List ρ) :
    Except RouterError (Registry κ ρ) :=
  (handlers.foldlM (fun (r : Registry κ ρ) h => r.add (key h) h) empty).map freeze

end Registry

end TransferRouter
