/-!
Decimal numerals of unsigned numbers below a limit: ASCII digits after an optional plus sign, with
any number of leading zeros. Reading stops at the first character that settles the outcome.
-/

namespace TransferRouter.Decimal

/-- The shortest decimal numeral of a number. -/
def print (n : Nat) : String := String.ofList (Nat.toDigits 10 n)

/-- Why a text is no numeral of a number below the limit. -/
inductive Fault where
  | empty
  | badDigit
  | tooLarge
  deriving DecidableEq

/-- The wording of a fault. -/
def Fault.message : Fault → String
  | .empty => "cannot parse integer from empty string"
  | .badDigit => "invalid digit found in string"
  | .tooLarge => "number too large to fit in target type"

/-- The value of an ASCII decimal digit. -/
def value? (c : Char) : Option Nat :=
  let n := c.toNat
  if 48 ≤ n ∧ n ≤ 57 then some (n - 48) else none

/-- Reads the digits that follow those already worth `acc`. -/
def readDigits (limit acc : Nat) : List Char → Except Fault Nat
  | [] => .ok acc
  | c :: cs =>
    match value? c with
    | none => .error .badDigit
    | some d =>
      if acc * 10 + d < limit then readDigits limit (acc * 10 + d) cs else .error .tooLarge

/-- The number below `limit` that a numeral spells. -/
def read (limit : Nat) : List Char → Except Fault Nat
  | [] => .error .empty
  | ['+'] => .error .badDigit
  | '+' :: cs => readDigits limit 0 cs
  | cs => readDigits limit 0 cs

end TransferRouter.Decimal
