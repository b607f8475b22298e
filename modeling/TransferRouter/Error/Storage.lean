import TransferRouter.Error.Invalid
import TransferRouter.Text.Utf8

/-!
Failures of the store: a call that the medium refused, an index key that no writer made, and stored
bytes that are not the encoding of a value.
-/

namespace TransferRouter

/-- Why bytes are not the encoding of a value. -/
inductive DecodeFault where
  /-- The bytes end within a number, a tag or a length. -/
  | endOfInput
  /-- A text is longer than the bytes that are left. -/
  | textOverrun
  | unknownVariant (found count : Nat)
  | badOptionTag (found : Nat)
  | notUtf8 (fault : Utf8.Fault)
  | notAmount (fault : Amount.Fault)
  | rejected (cause : Invalid)
  | stated (text : String)
  deriving DecidableEq

/-- The wording of a fault. -/
def DecodeFault.message : DecodeFault → String
  | endOfInput => "io error: unexpected end of file"
  | textOverrun => "io error: "
  | unknownVariant found count =>
    "invalid value: integer " ++ "\x60" ++ Decimal.print found ++ "\x60" ++
      ", expected variant index 0 <= i < " ++ Decimal.print count
  | badOptionTag found => "tag for enum is not valid, found " ++ Decimal.print found
  | notUtf8 fault => "string is not valid utf8: " ++ fault.message
  | notAmount fault => fault.message
  | rejected cause => Invalid.heading ++ cause.message
  | stated text => text

/-- Why the store's content is not what its writers leave. -/
inductive Corruption where
  | malformedIndexKey (key : Bytes)
  | stated (text : String)
  deriving DecidableEq

/-- The wording of a corruption. -/
def Corruption.message : Corruption → String
  | malformedIndexKey key => "malformed pending time index key " ++ Hex.encode key
  | stated text => text

/-- Why a call on the store failed. -/
inductive StoreFault where
  | io (text : String)
  | corruption (cause : Corruption)
  /-- The bytes under a key, given in hexadecimal, are not the encoding of a value. -/
  | undecodable (key : String) (cause : DecodeFault)
  deriving DecidableEq

/-- The wording of a fault. -/
def StoreFault.message : StoreFault → String
  | io text => "KV store I/O error: " ++ text
  | corruption cause => "KV store corruption: " ++ cause.message
  | undecodable key cause => "KV store decode error for key " ++ key ++ ": " ++ cause.message

end TransferRouter
