import TransferRouter.Json
import TransferRouter.Bytes.Hex
import TransferRouter.Text.Utf8
import TransferRouter.Text.Decimal

/-!
JSON text of a value, without blanks. Quotes, backslashes and control characters are escaped and all
else is written as it is.
-/

namespace TransferRouter.Json

/-- One character of a JSON string. -/
def escaped (c : Char) : List Char :=
  if c = '"' ∨ c = '\\' then ['\\', c]
  else if c = '\n' then ['\\', 'n']
  else if c = '\r' then ['\\', 'r']
  else if c = '\t' then ['\\', 't']
  else if c.toNat < 32 then
    ['\\', 'u', '0', '0', Hex.digit (c.toNat / 16), Hex.digit (c.toNat % 16)]
  else [c]

/-- A JSON string. -/
def writeText (s : String) : String :=
  String.ofList ('"' :: s.toList.flatMap escaped ++ ['"'])

/-- A JSON whole number. -/
def writeInt : Int → String
  | .ofNat n => Decimal.print n
  | .negSucc n => "-" ++ Decimal.print (n + 1)

mutual

/-- Appends the text of a value. -/
def writeOnto (acc : String) : Json → String
  | .null => acc ++ "null"
  | .bool true => acc ++ "true"
  | .bool false => acc ++ "false"
  | .int n => acc ++ writeInt n
  | .real s => acc ++ s
  | .text s => acc ++ writeText s
  | .garbled => acc ++ "null"
  | .list [] => acc ++ "[]"
  | .list (v :: vs) => writeItems (writeOnto (acc ++ "[") v) vs ++ "]"
  | .object [] => acc ++ "\x7b\x7d"
  | .object ((k, v) :: ms) =>
    writeMembers (writeOnto (acc ++ "\x7b" ++ writeText k ++ ":") v) ms ++ "\x7d"

/-- Appends further items of a list. -/
def writeItems (acc : String) : List Json → String
  | [] => acc
  | v :: vs => writeItems (writeOnto (acc ++ ",") v) vs

/-- Appends further members of an object. -/
def writeMembers (acc : String) : List (String × Json) → String
  | [] => acc
  | (k, v) :: ms => writeMembers (writeOnto (acc ++ "," ++ writeText k ++ ":") v) ms

end

/-- The JSON text of a value. -/
def write (v : Json) : String := writeOnto "" v

end TransferRouter.Json
