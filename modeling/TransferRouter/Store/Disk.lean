import TransferRouter.Store
import TransferRouter.Error.Storage

/-!
The store as its users meet it: every call may be refused by the medium, and a refused call changes
nothing. When calls are refused is a plan that is part of the state, so a run is a function of it.
-/

namespace TransferRouter

/-- The calls on the store. -/
inductive StoreCall where
  | get
  | put
  | delete
  | batch
  | contains
  | extensions
  | range
  deriving DecidableEq

/-- Which calls are refused. Calls that the plan concerns are numbered in the order in which they
are made, and each is settled by the verdict on its number. -/
structure FaultPlan where
  concerns : StoreCall → Bool
  verdict : Nat → Option StoreFault
  /-- The number of concerned calls made so far. -/
  made : Nat

namespace FaultPlan

/-- The plan of a medium that never fails. -/
def none : FaultPlan := ⟨fun _ => false, fun _ => .none, 0⟩

/-- The plan of a medium that fails for good after `skip` successes of the given calls. -/
def after (calls : List StoreCall) (skip : Nat) (fault : StoreFault) : FaultPlan :=
  ⟨fun c => decide (c ∈ calls), fun n => if n < skip then .none else some fault, 0⟩

end FaultPlan

/-- A store on a medium. -/
structure Disk where
  store : Store
  faults : FaultPlan

/-- An action on a store that may be refused. -/
abbrev DiskM := EStateM StoreFault Disk

namespace Disk

/-- An empty store on a medium that never fails. -/
def empty : Disk := ⟨.empty, .none⟩

instance : Inhabited Disk := ⟨empty⟩

/-- The medium's answer to a call. -/
def permit (call : StoreCall) : DiskM Unit := fun d =>
  if d.faults.concerns call then
    let d' : Disk := ⟨d.store, { d.faults with made := d.faults.made + 1 }⟩
    match d.faults.verdict d.faults.made with
    | none => .ok () d'
    | some fault => .error fault d'
  else .ok () d

/-- The value under a key. -/
def get? (key : Bytes) : DiskM (Option Bytes) := do
  permit .get
  return (← get).store.get? key

/-- True when there is a value under a key. -/
def contains (key : Bytes) : DiskM Bool := do
  permit .contains
  return (← get).store.contains key

/-- Stores a value under a key. -/
def put (key value : Bytes) : DiskM Unit := do
  permit .put
  modify fun d => { d with store := d.store.insert key value }

/-- Removes what is under a key. -/
def delete (key : Bytes) : DiskM Unit := do
  permit .delete
  modify fun d => { d with store := d.store.erase key }

/-- Applies a batch of writes, all or none. -/
def write (batch : List Write) : DiskM Unit := do
  permit .batch
  modify fun d => { d with store := d.store.applyAll batch }

/-- The entries whose key starts with `start`, ascending. -/
def extensions (start : Bytes) : DiskM (List (Bytes × Bytes)) := do
  permit .extensions
  return (← get).store.extensions start

/-- The first entries of a range of keys, ascending. -/
def range (start stop : Bytes) (limit : Nat) : DiskM (List (Bytes × Bytes)) := do
  permit .range
  return (← get).store.range start stop limit

end Disk

end TransferRouter
