import TransferRouter.Json.Form

/-!
Members of JSON objects by name, for objects that are read member by member. A member with a default
may be missing or null.
-/

namespace TransferRouter.Json

/-- The member of an object with the given name. -/
def member? (v : Json) (name : String) : Option Json :=
  match v with
  | .object members => (members.find? fun m => m.1 == name).map (·.2)
  | _ => none

/-- The items of a list. -/
def items? : Json → Option (List Json)
  | .list vs => some vs
  | _ => none

variable {α : Type}

/-- A member that must be there. -/
def need (α : Type) [JsonForm α] (v : Json) (name : String) : Option α :=
  (member? v name).bind ofJson?

/-- A member that may be missing or null. -/
def option (α : Type) [JsonForm α] (v : Json) (name : String) : Option (Option α) :=
  JsonForm.part? (member? v name)

/-- A member that has a default. -/
def needOr [JsonForm α] (v : Json) (name : String) (default : α) : Option α :=
  (option α v name).map fun w => w.getD default

/-- A member that is a list and has a default. -/
def itemsOr (v : Json) (name : String) (item? : Json → Option α) (default : List α) :
    Option (List α) :=
  match member? v name with
  | none | some .null => some default
  | some w => do (← items? w).mapM item?

end TransferRouter.Json
