import TransferRouter.Json
import TransferRouter.Amount
import TransferRouter.Text.Utf8

/-!
The JSON form of a type: how its values are written, and which JSON values are read as one. Forms of
records and alternatives are built from the three shapes of `Json`: a record with named parts, an
alternative with content, and an alternative that is only a name.
-/

namespace TransferRouter

/-- The JSON form of the values of a type. -/
class JsonForm (α : Type) where
  toJson : α → Json
  ofJson? : Json → Option α

export JsonForm (toJson ofJson?)

namespace JsonForm

variable {α β : Type}

/-- A part of a record that must be there. -/
def part [JsonForm α] (v : Option Json) : Option α := v.bind ofJson?

/-- A part of a record that may be missing or null. -/
def part? [JsonForm α] : Option Json → Option (Option α)
  | none => some none
  | some .null => some none
  | some v => (ofJson? v).map some

instance : JsonForm Json := ⟨id, some⟩

instance : JsonForm UInt8 where
  toJson n := .int n.toNat
  ofJson? v := (v.natural? UInt8.size).map UInt8.ofNat

instance : JsonForm UInt32 where
  toJson n := .int n.toNat
  ofJson? v := (v.natural? UInt32.size).map UInt32.ofNat

instance : JsonForm UInt64 where
  toJson n := .int n.toNat
  ofJson? v := (v.natural? UInt64.size).map UInt64.ofNat

instance : JsonForm Bool where
  toJson b := .bool b
  ofJson?
    | .bool b => some b
    | _ => none

instance : JsonForm String where
  toJson s := .text s
  ofJson?
    | .text s => some s
    | _ => none

instance : JsonForm Amount where
  toJson a := .text a.write
  ofJson?
    | .text s => (Amount.read (Utf8.encode s)).toOption
    | _ => none

instance [JsonForm α] : JsonForm (List α) where
  toJson vs := .list (vs.map toJson)
  ofJson?
    | .list vs => vs.mapM ofJson?
    | _ => none

instance [JsonForm α] : JsonForm (Option α) where
  toJson
    | none => .null
    | some v => toJson v
  ofJson? v := part? (some v)

instance [JsonForm α] [JsonForm β] : JsonForm (α × β) where
  toJson p := .list [toJson p.1, toJson p.2]
  ofJson?
    | .list [a, b] => do return (← ofJson? a, ← ofJson? b)
    | _ => none

end JsonForm

end TransferRouter
