/-!
JSON values. Whole numbers are kept as numbers, all others as they are written. Members of an object
keep their order and their repetitions.
-/

namespace TransferRouter

/-- A JSON value. -/
inductive Json where
  | null
  | bool (b : Bool)
  | int (n : Int)
  /-- A number with a fraction or an exponent, or a negative zero, as written. -/
  | real (written : String)
  | text (s : String)
  /-- A string, or an object with a member name, that is no Unicode text. It can only be skipped. -/
  | garbled
  | list (items : List Json)
  | object (members : List (String × Json))

instance : Inhabited Json := ⟨.null⟩

namespace Json

/-- The whole number of a value, if it is below the limit. -/
def natural? (limit : Nat) : Json → Option Nat
  | .int (.ofNat n) => if n < limit then some n else none
  | _ => none

/-- The members of an object with the given names, in their order; one may be missing. Members of
other names are skipped, and a name that stands twice spoils the object. -/
def members? (names : List String) : Json → Option (List (Option Json))
  | .object members =>
    names.mapM fun name =>
      match members.filter fun m => m.1 == name with
      | [] => some none
      | [m] => some (some m.2)
      | _ => none
  | _ => none

/-- The parts of a record with the given member names. A list of as many values as there are names
is a record too. -/
def record? (names : List String) : Json → Option (List (Option Json))
  | .list items => if items.length = names.length then some (items.map some) else none
  | v => v.members? names

/-- The name and the content of an alternative that carries content. -/
def tagged? : Json → Option (String × Json)
  | .object [m] => some m
  | _ => none

/-- The name of an alternative that carries nothing. -/
def plain? : Json → Option String
  | .text s => some s
  | .object [(s, .null)] => some s
  | _ => none

end Json

end TransferRouter
