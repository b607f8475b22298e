import TransferRouter.Error.Storage

/-!
The encoding of values in the store: numbers of fixed width with the low byte first, lengths and
counts as 64-bit numbers, the variant of an alternative as a 32-bit number, and everything else by
putting parts side by side. A decoder returns the bytes that it did not use.
-/

namespace TransferRouter

/-- How the values of a type are laid out in bytes. -/
class Codec (α : Type) where
  encode : α → Bytes
  decode : Bytes → Except DecodeFault (α × Bytes)

namespace Codec

variable {α β : Type}

/-- A number of the given width. -/
def decodeNumber (width : Nat) (s : Bytes) : Except DecodeFault (Nat × Bytes) :=
  let front := s.take width
  if front.length = width then .ok (Bytes.ofLittleEndian front, s.drop width)
  else .error .endOfInput

/-- A length or a count. -/
def encodeLength (n : Nat) : Bytes := Bytes.littleEndian 8 n

/-- The variant of an alternative. -/
def encodeVariant (n : Nat) : Bytes := Bytes.littleEndian 4 n

instance : Codec UInt8 where
  encode n := [n]
  decode
    | [] => .error .endOfInput
    | b :: s => .ok (b, s)

instance : Codec UInt32 where
  encode n := Bytes.littleEndian 4 n.toNat
  decode s := do
    let (n, s) ← decodeNumber 4 s
    return (UInt32.ofNat n, s)

instance : Codec UInt64 where
  encode n := Bytes.littleEndian 8 n.toNat
  decode s := do
    let (n, s) ← decodeNumber 8 s
    return (UInt64.ofNat n, s)

/-- A byte string of known length. -/
def decodeBytes (n : Nat) (fault : DecodeFault) (s : Bytes) : Except DecodeFault (Bytes × Bytes) :=
  let front := s.take n
  if front.length = n then .ok (front, s.drop n) else .error fault

instance : Codec String where
  encode s :=
    let bytes := Utf8.encode s
    encodeLength bytes.length ++ bytes
  decode s := do
    let (n, s) ← decodeNumber 8 s
    let (bytes, s) ← decodeBytes n .textOverrun s
    match Utf8.decode bytes with
    | .ok text => return (text, s)
    | .error fault => throw (.notUtf8 fault)

/-- Byte strings are lists of bytes, decoded in one piece. -/
instance : Codec Bytes where
  encode bytes := encodeLength bytes.length ++ bytes
  decode s := do
    let (n, s) ← decodeNumber 8 s
    decodeBytes n .endOfInput s

/-- The first `n` values of a byte string. -/
def decodeMany [Codec α] : Nat → Bytes → Except DecodeFault (List α × Bytes)
  | 0, s => .ok ([], s)
  | n + 1, s => do
    let (v, s) ← decode s
    let (vs, s) ← decodeMany n s
    return (v :: vs, s)

instance (priority := low) [Codec α] : Codec (List α) where
  encode vs := encodeLength vs.length ++ vs.flatMap encode
  decode s := do
    let (n, s) ← decodeNumber 8 s
    decodeMany n s

instance [Codec α] : Codec (Option α) where
  encode
    | none => [0]
    | some v => 1 :: encode v
  decode
    | [] => .error .endOfInput
    | 0 :: s => .ok (none, s)
    | 1 :: s => do
      let (v, s) ← decode s
      return (some v, s)
    | b :: _ => .error (.badOptionTag b.toNat)

instance [Codec α] [Codec β] : Codec (α × β) where
  encode p := encode p.1 ++ encode p.2
  decode s := do
    let (a, s) ← decode s
    let (b, s) ← decode s
    return ((a, b), s)

/-- The layout of a type whose values are laid out as those of another. -/
@[reducible] def via [Codec β] (view : α → β) (ofPart : β → Except DecodeFault α) : Codec α where
  encode v := encode (view v)
  decode s := do
    let (w, s) ← decode s
    let v ← ofPart w
    return (v, s)

/-- A list of alternatives, each with a decoder of its content, by the number of the variant. -/
def decodeVariant (contents : List (Bytes → Except DecodeFault (α × Bytes))) (s : Bytes) :
    Except DecodeFault (α × Bytes) := do
  let (n, s) ← decodeNumber 4 s
  match contents[n]? with
  | some content => content s
  | none => throw (.unknownVariant n contents.length)

/-- An alternative that carries nothing. -/
def plain (v : α) (s : Bytes) : Except DecodeFault (α × Bytes) := .ok (v, s)

/-- An alternative that carries a value. -/
def carrying [Codec β] (make : β → α) (s : Bytes) : Except DecodeFault (α × Bytes) := do
  let (w, s) ← decode s
  return (make w, s)

/-- Decodes the value under a key. Bytes after the value are ignored. -/
def decodeAt (α : Type) [Codec α] (key s : Bytes) : Except StoreFault α :=
  match decode s with
  | .ok (v, _) => .ok v
  | .error fault => .error (.undecodable (Hex.encode key) fault)

end Codec

end TransferRouter
