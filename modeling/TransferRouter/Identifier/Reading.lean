import TransferRouter.Error.Invalid
import TransferRouter.Text.Utf8

/-!
Checks of identifiers, and their reading from numbers and from text. The text of an endpoint is
split at its first colon, so a counterparty may contain colons; the text of a hash may repeat the
mark `0x`.
-/

namespace TransferRouter

namespace ProtocolId

/-- Refuses the reserved protocol. -/
def check : ProtocolId → Except Invalid Unit
  | unsupported => .error .reservedProtocol
  | _ => .ok ()

/-- The protocol of a number. -/
def ofNumber (n : Nat) : Except Invalid ProtocolId :=
  match ofNumber? n with
  | some p => .ok p
  | none => .error (.unknownProtocol n)

end ProtocolId

namespace ActionId

/-- Refuses the reserved action. -/
def check : ActionId → Except Invalid Unit
  | unsupported => .error .reservedAction
  | _ => .ok ()

/-- The action of a number. -/
def ofNumber (n : Nat) : Except Invalid ActionId :=
  match ofNumber? n with
  | some a => .ok a
  | none => .error (.unknownAction n)

end ActionId

namespace CrossChainId

/-- Endpoints by the number of their protocol, then by counterparty. -/
instance : StrictOrder CrossChainId :=
  .via (fun id => (id.protocol.number, id.counterparty)) fun a b h => by
    cases a; cases b
    simp only [Prod.mk.injEq] at h
    simp [ProtocolId.number_inj h.1, h.2]

/-- Refuses a reserved protocol and an empty counterparty. -/
def check (id : CrossChainId) : Except Invalid Unit := do
  id.protocol.check
  if id.counterparty = "" then throw .emptyCounterparty

/-- The endpoint of a supported protocol and a counterparty that is not empty. -/
def make (protocol : ProtocolId) (counterparty : String) : Except Invalid CrossChainId := do
  let id : CrossChainId := ⟨protocol, counterparty⟩
  id.check
  return id

/-- The endpoint that a text writes. -/
def read (text : String) : Except Invalid CrossChainId :=
  match text.toList.span (· ≠ ':') with
  | (_, []) => .error (.missingColon text)
  | (number, _ :: counterparty) =>
    match Decimal.read UInt32.size number with
    | .error _ => .error (.badProtocolNumeral (String.ofList number))
    | .ok n => do make (← ProtocolId.ofNumber n) (String.ofList counterparty)

end CrossChainId

namespace PayloadHash

/-- The bytes after all leading marks `0x`. -/
def dropMarks : Bytes → Bytes
  | 48 :: 120 :: s => dropMarks s
  | s => s

/-- The hash of 32 bytes. -/
def ofBytes? (s : Bytes) : Option PayloadHash :=
  if h : s.length = 32 then some ⟨s, h⟩ else none

/-- The hash that a text writes. -/
def read (text : String) : Except Invalid PayloadHash :=
  match Hex.decode (dropMarks (Utf8.encode text)) with
  | .error fault => .error (.badHashText fault)
  | .ok s =>
    match ofBytes? s with
    | some hash => .ok hash
    | none => .error .badHashLength

end PayloadHash

/-- Refuses a coin without a denomination. -/
def Coin.check (c : Coin) : Except Invalid Unit :=
  if c.denom = "" then .error .emptyCoinDenom else .ok ()

end TransferRouter
