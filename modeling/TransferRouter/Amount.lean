import TransferRouter.Bytes.Hex
import TransferRouter.Text.Decimal
import TransferRouter.Order

/-!
Amounts: whole numbers below 2^256. Sums, differences and products exist only when they are amounts
again. The written form is minimal lower-case hexadecimal after `0x`; messages use decimal.
-/

namespace TransferRouter

/-- The number of amounts, which is 2^256. -/
abbrev Amount.size : Nat := 0x10000000000000000000000000000000000000000000000000000000000000000

/-- A whole number below 2^256. -/
structure Amount where
  toNat : Nat
  isLt : toNat < Amount.size
  deriving DecidableEq

namespace Amount

@[ext] theorem ext {a b : Amount} (h : a.toNat = b.toNat) : a = b := by
  cases a; cases b; simp_all

/-- The number as an amount, if it is small enough. -/
def ofNat? (n : Nat) : Option Amount :=
  if h : n < size then some ⟨n, h⟩ else none

/-- The amount of nothing. -/
def zero : Amount := ⟨0, by decide⟩

instance : Inhabited Amount := ⟨zero⟩

instance : StrictOrder Amount := .ofNumber toNat fun _ _ => ext

/-- True for the amount of nothing. -/
def isZero (a : Amount) : Bool := a.toNat == 0

/-- The sum, if it is an amount. -/
def add? (a b : Amount) : Option Amount := ofNat? (a.toNat + b.toNat)

/-- The difference, if it is an amount. -/
def sub? (a b : Amount) : Option Amount :=
  if b.toNat ≤ a.toNat then some ⟨a.toNat - b.toNat, Nat.lt_of_le_of_lt (Nat.sub_le ..) a.isLt⟩
  else none

/-- The quotient by a number, rounded down. -/
def divide (a : Amount) (d : Nat) : Amount :=
  ⟨a.toNat / d, Nat.lt_of_le_of_lt (Nat.div_le_self ..) a.isLt⟩

/-- The product with a number, if it is an amount. -/
def times? (a : Amount) (n : Nat) : Option Amount := ofNat? (a.toNat * n)

/-- The written form, such as `0x64`. -/
def write (a : Amount) : String := String.ofList ('0' :: 'x' :: Nat.toDigits 16 a.toNat)

/-- The form used in messages, such as `100`. -/
def decimal (a : Amount) : String := Decimal.print a.toNat

/-- Why a text is not the written form of an amount. -/
inductive Fault where
  /-- The number of bytes after the mark `0x` is not between 1 and 64. -/
  | length (bytes : Nat)
  /-- The byte at `index` of the whole text is neither a hexadecimal digit nor a blank. -/
  | badDigit (byte : UInt8) (index : Nat)
  deriving DecidableEq

/-- The wording of a fault. -/
def Fault.message : Fault → String
  | .length n =>
    "invalid length " ++ Decimal.print n ++ ", expected a (both 0x-prefixed or not) hex string " ++
      "or byte array containing between (0; 32] bytes"
  | .badDigit b i =>
    "invalid hex character: " ++ String.ofList [Char.ofNat b.toNat] ++ ", at " ++ Decimal.print i

/-- A blank among digits: a space, a tab, or a character that ends a line. -/
def isBlank (b : UInt8) : Bool := b == 32 || b == 9 || b == 10 || b == 13

/-- Reads hexadecimal digits, with or without blanks among them, after digits already worth `acc`;
`index` is the place of the next byte in the whole text. -/
def readDigits (index acc : Nat) : Bytes → Except Fault Nat
  | [] => .ok acc
  | b :: s =>
    if isBlank b then readDigits (index + 1) acc s
    else
      match Hex.value? b with
      | some d => readDigits (index + 1) (16 * acc + d) s
      | none => .error (.badDigit b index)

/-- Reads the digits of an amount, which start at `index` of the whole text. Blanks take up places,
and digits are paired by the number of places: after an odd number of blanks the last digit is left
without a partner and does not count. -/
def readAfterMark (index : Nat) (digits : Bytes) : Except Fault Amount :=
  if 0 < digits.length ∧ digits.length ≤ 64 then
    (readDigits index 0 digits).bind fun n =>
      match ofNat? (if digits.countP isBlank % 2 = 0 then n else n / 16) with
      | some a => .ok a
      | none => .error (.length digits.length)
  else .error (.length digits.length)

/-- The amount that a text, given by its UTF-8 bytes, writes: at most one mark `0x`, then 1 to 64
places that hold hexadecimal digits of either case or blanks. -/
def read : Bytes → Except Fault Amount
  | 48 :: 120 :: digits => readAfterMark 2 digits
  | digits => readAfterMark 0 digits

end Amount

/-- The whole of an amount in basis points. -/
def basisPointsOfWhole : Nat := 10000

end TransferRouter
