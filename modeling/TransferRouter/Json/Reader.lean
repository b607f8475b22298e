import TransferRouter.Json
import TransferRouter.Bytes.Hex
import TransferRouter.Text.Utf8

/-!
JSON values from bytes. Each reader returns the bytes after what it read, or nothing where the text
is not JSON. Text inside strings need not be Unicode: such a value is read as `garbled`, so that a
record may carry it in a member that is skipped.
-/

namespace TransferRouter.Json

/-- A byte that may stand between tokens. -/
def isSpace (b : UInt8) : Bool := b == 32 || b == 10 || b == 9 || b == 13

/-- The bytes from the next token on. -/
def skipSpaces (s : Bytes) : Bytes := s.dropWhile isSpace

/-- A byte that is an ASCII decimal digit. -/
def isDigit (b : UInt8) : Bool := 48 ≤ b.toNat && b.toNat ≤ 57

/-- The four hexadecimal digits of a code unit. -/
def readUnit : Bytes → Option (Nat × Bytes)
  | a :: b :: c :: d :: s =>
    match Hex.value? a, Hex.value? b, Hex.value? c, Hex.value? d with
    | some a, some b, some c, some d => some (a * 4096 + b * 256 + c * 16 + d, s)
    | _, _, _, _ => none
  | _ => none

/-- The low half of a surrogate pair, if it comes next. -/
def readLowHalf : Bytes → Option (Nat × Bytes)
  | 92 :: 117 :: s =>
    match readUnit s with
    | some (n, s) => if 0xDC00 ≤ n ∧ n ≤ 0xDFFF then some (n, s) else none
    | none => none
  | _ => none

/-- The character that a one-letter escape stands for. -/
def escapedChar? (b : UInt8) : Option Char :=
  if b = 34 ∨ b = 92 ∨ b = 47 then some (Char.ofNat b.toNat)
  else if b = 98 then some (Char.ofNat 8)
  else if b = 102 then some (Char.ofNat 12)
  else if b = 110 then some '\n'
  else if b = 114 then some '\r'
  else if b = 116 then some '\t'
  else none

/-- Reads the rest of a string, up to and with its closing quote. The bytes read so far are in
`acc`, last first; it is missing once an escape was half of a surrogate pair. -/
def readString : (fuel : Nat) → (acc : Option Bytes) → Bytes → Option (Option Bytes × Bytes)
  | 0, _, _ => none
  | _ + 1, _, [] => none
  | fuel + 1, acc, b :: s =>
    if b = 34 then some (acc.map List.reverse, s)
    else if b.toNat < 32 then none
    else if b = 92 then
      match s with
      | [] => none
      | e :: s =>
        if e = 117 then
          match readUnit s with
          | none => none
          | some (n, s) =>
            if 0xD800 ≤ n ∧ n ≤ 0xDBFF then
              match readLowHalf s with
              | some (m, s) =>
                let c := Char.ofNat (0x10000 + (n - 0xD800) * 1024 + (m - 0xDC00))
                readString fuel (acc.map ((Utf8.encodeChar c).reverse ++ ·)) s
              | none => readString fuel none s
            else if 0xDC00 ≤ n ∧ n ≤ 0xDFFF then readString fuel none s
            else readString fuel (acc.map ((Utf8.encodeChar (Char.ofNat n)).reverse ++ ·)) s
        else
          match escapedChar? e with
          | some c => readString fuel (acc.map ((Utf8.encodeChar c).reverse ++ ·)) s
          | none => none
    else readString fuel (acc.map (b :: ·)) s

/-- Reads the rest of a string as Unicode text; the text is missing if it is none. -/
def readText (fuel : Nat) (s : Bytes) : Option (Option String × Bytes) :=
  (readString fuel (some []) s).map fun (bytes, rest) =>
    (bytes.bind fun bs => (Utf8.decode bs).toOption, rest)

/-- Splits off a run of digits that must not be empty. -/
def readRun (s : Bytes) : Option (Bytes × Bytes) :=
  match s.takeWhile isDigit with
  | [] => none
  | run => some (run, s.dropWhile isDigit)

/-- Splits off the digits of a whole number, which has no leading zero. -/
def readWhole : Bytes → Option (Bytes × Bytes)
  | 48 :: s => if (s.headD 0 |> isDigit) then none else some ([48], s)
  | s => readRun s

/-- Splits off a fraction, or nothing. -/
def readFraction : Bytes → Option (Bytes × Bytes)
  | 46 :: s => (readRun s).map fun (run, s) => (46 :: run, s)
  | s => some ([], s)

/-- Splits off an exponent, or nothing. -/
def readExponent : Bytes → Option (Bytes × Bytes)
  | b :: s =>
    if b = 101 ∨ b = 69 then
      match s with
      | 43 :: t => (readRun t).map fun (run, t) => (b :: 43 :: run, t)
      | 45 :: t => (readRun t).map fun (run, t) => (b :: 45 :: run, t)
      | t => (readRun t).map fun (run, t) => (b :: run, t)
    else some ([], b :: s)
  | [] => some ([], [])

/-- The number that ASCII decimal digits spell. -/
def numberOfDigits (s : Bytes) : Nat := s.foldl (fun n b => 10 * n + (b.toNat - 48)) 0

/-- The text of ASCII bytes. -/
def ascii (s : Bytes) : String := String.ofList (s.map fun b => Char.ofNat b.toNat)

/-- Reads a number after its sign, which is the empty string or a minus. -/
def readNumber (sign s : Bytes) : Option (Json × Bytes) := do
  let (whole, s) ← readWhole s
  let (fraction, s) ← readFraction s
  let (exponent, s) ← readExponent s
  let n := numberOfDigits whole
  if fraction.isEmpty && exponent.isEmpty && (sign.isEmpty || n != 0) then
    some (.int (if sign.isEmpty then n else -n), s)
  else some (.real (ascii (sign ++ whole ++ fraction ++ exponent)), s)

/-- Reads a literal word. -/
def readWord (word : Bytes) (v : Json) (s : Bytes) : Option (Json × Bytes) :=
  if word.isPrefixOf s then some (v, s.drop word.length) else none

mutual

/-- Reads a value. -/
def readValue : (fuel : Nat) → Bytes → Option (Json × Bytes)
  | 0, _ => none
  | fuel + 1, s =>
    match skipSpaces s with
    | [] => none
    | b :: s =>
      if b = 123 then
        match skipSpaces s with
        | 125 :: s => some (.object [], s)
        | s => readMembers fuel (some []) s
      else if b = 91 then
        match skipSpaces s with
        | 93 :: s => some (.list [], s)
        | s => readItems fuel [] s
      else if b = 34 then
        (readText fuel s).map fun (t, s) => (t.elim .garbled .text, s)
      else if b = 116 then readWord [114, 117, 101] (.bool true) s
      else if b = 102 then readWord [97, 108, 115, 101] (.bool false) s
      else if b = 110 then readWord [117, 108, 108] .null s
      else if b = 45 then readNumber [45] s
      else readNumber [] (b :: s)

/-- Reads the items of a list after those in `acc`, up to and with the closing bracket. -/
def readItems : (fuel : Nat) → (acc : List Json) → Bytes → Option (Json × Bytes)
  | 0, _, _ => none
  | fuel + 1, acc, s =>
    match readValue fuel s with
    | none => none
    | some (v, s) =>
      match skipSpaces s with
      | 44 :: s => readItems fuel (v :: acc) s
      | 93 :: s => some (.list (v :: acc).reverse, s)
      | _ => none

/-- Reads the members of an object after those in `acc`, up to and with the closing brace. The
accumulator is missing once a member name was no Unicode text. -/
def readMembers : (fuel : Nat) → (acc : Option (List (String × Json))) → Bytes →
    Option (Json × Bytes)
  | 0, _, _ => none
  | fuel + 1, acc, s =>
    match skipSpaces s with
    | 34 :: s =>
      match readText fuel s with
      | none => none
      | some (name, s) =>
        match skipSpaces s with
        | 58 :: s =>
          match readValue fuel s with
          | none => none
          | some (v, s) =>
            let acc := acc.bind fun ms => name.map fun k => (k, v) :: ms
            match skipSpaces s with
            | 44 :: s => readMembers fuel acc s
            | 125 :: s => some (acc.elim .garbled fun ms => .object ms.reverse, s)
            | _ => none
        | _ => none
    | _ => none

end

/-- The value that a whole JSON text writes. A byte takes at most two units of fuel from the reading
of what follows it, so there is always more fuel left than there are bytes. -/
def read? (s : Bytes) : Option Json :=
  match readValue (2 * s.length + 2) s with
  | some (v, rest) => if (skipSpaces rest).isEmpty then some v else none
  | none => none

end TransferRouter.Json
