import TransferRouter.Bytes
import TransferRouter.Text.Decimal

/-!
UTF-8. A decoding fault says how long the well-formed beginning is and how many bytes of what
follows could not start a character; the latter is missing when the text merely ends too early.
-/

namespace TransferRouter.Utf8

/-- The bytes of one character. -/
def encodeChar (c : Char) : Bytes :=
  let n := c.toNat
  if n < 0x80 then [UInt8.ofNat n]
  else if n < 0x800 then [UInt8.ofNat (0xC0 + n / 64), UInt8.ofNat (0x80 + n % 64)]
  else if n < 0x10000 then
    [UInt8.ofNat (0xE0 + n / 4096), UInt8.ofNat (0x80 + n / 64 % 64), UInt8.ofNat (0x80 + n % 64)]
  else
    [UInt8.ofNat (0xF0 + n / 262144), UInt8.ofNat (0x80 + n / 4096 % 64),
      UInt8.ofNat (0x80 + n / 64 % 64), UInt8.ofNat (0x80 + n % 64)]

/-- The bytes of a list of characters. -/
def encodeChars (cs : List Char) : Bytes := cs.flatMap encodeChar

/-- The bytes of a text. -/
def encode (s : String) : Bytes := encodeChars s.toList

/-- Where a byte string stops being UTF-8. -/
inductive Fault where
  /-- The `width` bytes from `index` on are no beginning of a character. -/
  | invalid (width index : Nat)
  /-- The text ends within the character that starts at `index`. -/
  | incomplete (index : Nat)
  deriving DecidableEq

/-- The character at the head of a non-empty byte string, with the bytes after it. A fault gives
the number of bytes that cannot be part of a character, or nothing if bytes are missing. -/
inductive Head where
  | char (c : Char) (width : Nat) (rest : Bytes)
  | invalid (width : Nat)
  | incomplete

/-- A byte that may follow the first one of a character. -/
def isContinuation (b : Nat) : Bool := 0x80 ≤ b && b ≤ 0xBF

/-- The second bytes that may follow the first byte `a` of a three-byte character: longer forms of
shorter characters and surrogates are excluded. -/
def isSecondOfThree (a b : Nat) : Bool :=
  (if a = 0xE0 then 0xA0 else 0x80) ≤ b && b ≤ (if a = 0xED then 0x9F else 0xBF)

/-- The second bytes that may follow the first byte `a` of a four-byte character: longer forms of
shorter characters and values above the last code point are excluded. -/
def isSecondOfFour (a b : Nat) : Bool :=
  (if a = 0xF0 then 0x90 else 0x80) ≤ b && b ≤ (if a = 0xF4 then 0x8F else 0xBF)

/-- Reads the rest of a character of two bytes. -/
def headOfTwo (a : Nat) : Bytes → Head
  | [] => .incomplete
  | b :: rest =>
    if isContinuation b.toNat then .char (Char.ofNat (a % 32 * 64 + b.toNat % 64)) 2 rest
    else .invalid 1

/-- Reads the rest of a character of three bytes. -/
def headOfThree (a : Nat) : Bytes → Head
  | [] => .incomplete
  | b :: rest =>
    if isSecondOfThree a b.toNat then
      match rest with
      | [] => .incomplete
      | c :: rest =>
        if isContinuation c.toNat then
          .char (Char.ofNat (a % 16 * 4096 + b.toNat % 64 * 64 + c.toNat % 64)) 3 rest
        else .invalid 2
    else .invalid 1

/-- Reads the rest of a character of four bytes. -/
def headOfFour (a : Nat) : Bytes → Head
  | [] => .incomplete
  | b :: rest =>
    if isSecondOfFour a b.toNat then
      match rest with
      | [] => .incomplete
      | c :: rest =>
        if isContinuation c.toNat then
          match rest with
          | [] => .incomplete
          | d :: rest =>
            if isContinuation d.toNat then
              .char (Char.ofNat (a % 8 * 262144 + b.toNat % 64 * 4096 + c.toNat % 64 * 64 +
                d.toNat % 64)) 4 rest
            else .invalid 3
        else .invalid 2
    else .invalid 1

/-- Reads the character that starts with the byte `a`. -/
def head (a : UInt8) (rest : Bytes) : Head :=
  let n := a.toNat
  if n < 0x80 then .char (Char.ofNat n) 1 rest
  else if n < 0xC2 then .invalid 1
  else if n < 0xE0 then headOfTwo n rest
  else if n < 0xF0 then headOfThree n rest
  else if n < 0xF5 then headOfFour n rest
  else .invalid 1

theorem length_le_of_head {a : UInt8} {s rest : Bytes} {c : Char} {width : Nat}
    (h : head a s = .char c width rest) : rest.length ≤ s.length := by
  unfold head headOfTwo headOfThree headOfFour at h
  dsimp only at h
  repeat' split at h
  all_goals first
    | (injection h with _ _ h; subst h; simp; try omega)
    | exact absurd h (by simp)

/-- Decodes from `index` on; `acc` holds the characters before, last first. -/
def decodeFrom (index : Nat) (acc : List Char) (s : Bytes) : Except Fault (List Char) :=
  match s with
  | [] => .ok acc.reverse
  | a :: s =>
    match _h : head a s with
    | .char c width rest => decodeFrom (index + width) (c :: acc) rest
    | .invalid width => .error (.invalid width index)
    | .incomplete => .error (.incomplete index)
termination_by s.length
decreasing_by
  have := length_le_of_head _h
  simp only [List.length_cons]
  omega

/-- The text that a byte string encodes. -/
def decode (s : Bytes) : Except Fault String := (decodeFrom 0 [] s).map String.ofList

/-- The wording of a fault. -/
def Fault.message : Fault → String
  | .invalid width index =>
    "invalid utf-8 sequence of " ++ Decimal.print width ++ " bytes from index " ++
      Decimal.print index
  | .incomplete index => "incomplete utf-8 byte sequence from index " ++ Decimal.print index

end TransferRouter.Utf8
