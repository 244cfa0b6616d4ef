/-!
# Blank characters

- `Text.isBlank`: the characters with the Unicode property White_Space.
- `Text.dropBlanks`, `Text.trim`: a text without the blanks at its start, or at both ends.
-/

namespace KeySharing

namespace Text

/-- The characters with the property White_Space. -/
def blanks : List Char :=
  ['\t', '\n', '\x0b', '\x0c', '\r', ' ', '\x85', '\xa0', '\u1680', '\u2000', '\u2001', '\u2002',
    '\u2003', '\u2004', '\u2005', '\u2006', '\u2007', '\u2008', '\u2009', '\u200a', '\u2028',
    '\u2029', '\u202f', '\u205f', '\u3000']

/-- Whether a character is blank. -/
def isBlank (c : Char) : Bool := blanks.contains c

/-- The text from its first character that is not blank. -/
def dropBlanks (text : List Char) : List Char := text.dropWhile isBlank

/-- The text without the blanks at both ends. -/
def trim (text : List Char) : List Char := (dropBlanks (dropBlanks text).reverse).reverse

end Text

end KeySharing
