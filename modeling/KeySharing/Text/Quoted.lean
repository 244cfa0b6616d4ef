import KeySharing.Text.Printable

/-!
# Quoted texts

A text shown in a message stands in double quotes, with every character that could not be told
apart written as an escape: the quote, the backslash, the usual control characters by letter, and
whatever is not printable by its code.
-/

namespace KeySharing

namespace Text

/-- The form of one character inside double quotes. -/
def quotedChar (c : Char) : List Char :=
  if c = '"' ∨ c = '\\' then ['\\', c]
  else if c = '\x00' then ['\\', '0']
  else if c = '\t' then ['\\', 't']
  else if c = '\n' then ['\\', 'n']
  else if c = '\r' then ['\\', 'r']
  else if isPrintable c then [c]
  else '\\' :: 'u' :: '\x7b' :: (Nat.toDigits 16 c.toNat ++ ['\x7d'])

/-- The text in double quotes. -/
def quoted (text : String) : String :=
  String.ofList ('"' :: (text.toList.flatMap quotedChar ++ ['"']))

end Text

end KeySharing
