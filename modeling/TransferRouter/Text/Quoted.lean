import TransferRouter.Text.Hidden

/-!
Quoted text for messages. The delimiter and the backslash get a backslash, the usual controls their
letter, and every other hidden character its code point, so that a quotation is one visible line.
-/

namespace TransferRouter.Text

/-- One character of a quotation with the given delimiter. -/
def quotedChar (delimiter c : Char) : List Char :=
  if c = delimiter ∨ c = '\\' then ['\\', c]
  else if c = '\n' then ['\\', 'n']
  else if c = '\r' then ['\\', 'r']
  else if c = '\t' then ['\\', 't']
  else if c = Char.ofNat 0 then ['\\', '0']
  else if isHidden c then
    ['\\', 'u', '\x7b'] ++ Nat.toDigits 16 c.toNat ++ ['\x7d']
  else [c]

/-- A quotation with the given delimiter. -/
def quotedWith (delimiter : Char) (cs : List Char) : String :=
  String.ofList (delimiter :: cs.flatMap (quotedChar delimiter) ++ [delimiter])

/-- A text in double quotes. -/
def quoted (s : String) : String := quotedWith '"' s.toList

/-- A character in single quotes. -/
def quotedSingle (c : Char) : String := quotedWith '\'' [c]

end TransferRouter.Text
