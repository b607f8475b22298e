import TransferRouter.Bytes
import TransferRouter.Text.Decimal
import TransferRouter.Text.Quoted

/-!
Hexadecimal text of byte strings: two digits a byte, lower case when written, either case when read.
Reading works on the bytes of the text, and a fault names the first byte that is no digit.
-/

namespace TransferRouter.Hex

/-- The character of a digit below sixteen. -/
def digit (n : Nat) : Char :=
  if n < 10 then Char.ofNat (48 + n) else Char.ofNat (87 + n)

/-- The value of a byte read as an ASCII hexadecimal digit. -/
def value? (b : UInt8) : Option Nat :=
  let n := b.toNat
  if 48 ≤ n ∧ n ≤ 57 then some (n - 48)
  else if 97 ≤ n ∧ n ≤ 102 then some (n - 87)
  else if 65 ≤ n ∧ n ≤ 70 then some (n - 55)
  else none

/-- The two digits of each byte. -/
def digits (s : Bytes) : List Char :=
  s.flatMap fun b => [digit (b.toNat / 16), digit (b.toNat % 16)]

/-- The hexadecimal text of a byte string. -/
def encode (s : Bytes) : String := String.ofList (digits s)

/-- Why a text is not the hexadecimal text of bytes. -/
inductive Fault where
  | oddLength
  | badDigit (byte : UInt8) (index : Nat)
  deriving DecidableEq

/-- Reads pairs of digits. The next one stands at `index` of the whole text, and `acc` holds the
bytes read so far, last first. -/
def decodePairs (index : Nat) (acc : Bytes) : Bytes → Except Fault Bytes
  | a :: b :: rest =>
    match value? a, value? b with
    | none, _ => .error (.badDigit a index)
    | some _, none => .error (.badDigit b (index + 1))
    | some m, some n => decodePairs (index + 2) (UInt8.ofNat (16 * m + n) :: acc) rest
  | [_] => .error .oddLength
  | [] => .ok acc.reverse

/-- The bytes that a hexadecimal text spells. An odd length is found before a bad digit. -/
def decode (text : Bytes) : Except Fault Bytes :=
  if text.length % 2 = 0 then decodePairs 0 [] text else .error .oddLength

/-- The wording of a fault. -/
def Fault.message : Fault → String
  | .oddLength => "Odd number of digits"
  | .badDigit byte index =>
    "Invalid character " ++ Text.quotedSingle (Char.ofNat byte.toNat) ++ " at position " ++
      Decimal.print index

end TransferRouter.Hex
