/-!
# JSON tokens

The lexical layer of JSON: punctuation, literals, strings and numbers, with blanks between them.
A number may be as large as it likes, since its value is not kept.

- `Json.Token`: the tokens. A string that names half of a surrogate pair has no value, but is a
  token all the same.
- `Json.tokens?`: the tokens of a text.
-/

namespace KeySharing

namespace Json

/-- A token. -/
inductive Token where
  /-- An opening brace. -/
  | beginObject
  /-- A closing brace. -/
  | endObject
  /-- An opening bracket. -/
  | beginArray
  /-- A closing bracket. -/
  | endArray
  /-- A colon. -/
  | colon
  /-- A comma. -/
  | comma
  /-- A string and its value, if it has one. -/
  | string (value : Option String)
  /-- A number. -/
  | number
  /-- One of the two truth values. -/
  | boolean
  /-- The null. -/
  | null
deriving DecidableEq

/-! ## Strings -/

/-- A character of a string, or a code unit that an escape gives. -/
inductive StringUnit where
  /-- A character. -/
  | char (c : Char)
  /-- A UTF-16 code unit. -/
  | code (unit : Nat)

/-- The value of a hexadecimal digit. -/
def hexValue? (c : Char) : Option Nat :=
  if '0' ≤ c ∧ c ≤ '9' then some (c.toNat - 48)
  else if 'a' ≤ c ∧ c ≤ 'f' then some (c.toNat - 87)
  else if 'A' ≤ c ∧ c ≤ 'F' then some (c.toNat - 55)
  else none

/-- The code unit of four hexadecimal digits. -/
def codeUnit? (a b c d : Char) : Option Nat := do
  let a ← hexValue? a
  let b ← hexValue? b
  let c ← hexValue? c
  let d ← hexValue? d
  some (((a * 16 + b) * 16 + c) * 16 + d)

/-- The character that a letter stands for after a backslash. -/
def escaped? (c : Char) : Option Char :=
  if c = '"' ∨ c = '\\' ∨ c = '/' then some c
  else if c = 'b' then some '\x08'
  else if c = 'f' then some '\x0c'
  else if c = 'n' then some '\n'
  else if c = 'r' then some '\r'
  else if c = 't' then some '\t'
  else none

/-- The units of a string after its opening quote, and the text after its closing quote. Control
characters have to be escaped. -/
def readUnits : List Char → Option (List StringUnit × List Char)
  | [] => none
  | '"' :: rest => some ([], rest)
  | '\\' :: 'u' :: a :: b :: c :: d :: rest => do
    let unit ← codeUnit? a b c d
    let (units, rest) ← readUnits rest
    some (.code unit :: units, rest)
  | '\\' :: c :: rest => do
    let c ← escaped? c
    let (units, rest) ← readUnits rest
    some (.char c :: units, rest)
  | c :: rest =>
    if c.toNat < 32 ∨ c = '\\' then none
    else do
      let (units, rest) ← readUnits rest
      some (.char c :: units, rest)

/-- Whether a code unit opens a surrogate pair. -/
def isHighSurrogate (unit : Nat) : Bool := 0xd800 ≤ unit && unit < 0xdc00

/-- Whether a code unit closes a surrogate pair. -/
def isLowSurrogate (unit : Nat) : Bool := 0xdc00 ≤ unit && unit < 0xe000

/-- The characters of the units of a string, unless half of a surrogate pair stands alone. -/
def characters? : List StringUnit → Option (List Char)
  | [] => some []
  | .char c :: rest => do
    let cs ← characters? rest
    some (c :: cs)
  | .code high :: .code low :: rest =>
    if isHighSurrogate high then
      if isLowSurrogate low then do
        let cs ← characters? rest
        some (Char.ofNat (0x10000 + (high - 0xd800) * 0x400 + (low - 0xdc00)) :: cs)
      else none
    else if isLowSurrogate high then none
    else do
      let cs ← characters? (.code low :: rest)
      some (Char.ofNat high :: cs)
  | .code unit :: rest =>
    if isHighSurrogate unit || isLowSurrogate unit then none
    else do
      let cs ← characters? rest
      some (Char.ofNat unit :: cs)

/-! ## Numbers -/

/-- What follows a run of at least one digit. -/
def afterDigits? (text : List Char) : Option (List Char) :=
  match text with
  | c :: rest => if c.isDigit then some (rest.dropWhile Char.isDigit) else none
  | [] => none

/-- What follows the whole part of a number: a zero, or digits that do not start with one. -/
def afterWhole? : List Char → Option (List Char)
  | '0' :: rest => some rest
  | text => afterDigits? text

/-- What follows the fraction of a number, if there is one. -/
def afterFraction? : List Char → Option (List Char)
  | '.' :: rest => afterDigits? rest
  | text => some text

/-- What follows the exponent of a number, if there is one. -/
def afterExponent? : List Char → Option (List Char)
  | c :: rest =>
    if c = 'e' ∨ c = 'E' then
      match rest with
      | '+' :: digits => afterDigits? digits
      | '-' :: digits => afterDigits? digits
      | digits => afterDigits? digits
    else some (c :: rest)
  | [] => some []

/-- What follows a number without its sign. -/
def afterNumber? (text : List Char) : Option (List Char) := do
  let text ← afterWhole? text
  let text ← afterFraction? text
  afterExponent? text

/-! ## Tokens -/

/-- Whether a character may stand between tokens. -/
def isSpace (c : Char) : Bool := c = ' ' || c = '\n' || c = '\r' || c = '\t'

/-- The first token of a text that does not start with a space, and the rest. -/
def readToken (text : List Char) : Option (Token × List Char) :=
  match text with
  | '\x7b' :: rest => some (.beginObject, rest)
  | '\x7d' :: rest => some (.endObject, rest)
  | '[' :: rest => some (.beginArray, rest)
  | ']' :: rest => some (.endArray, rest)
  | ':' :: rest => some (.colon, rest)
  | ',' :: rest => some (.comma, rest)
  | 't' :: 'r' :: 'u' :: 'e' :: rest => some (.boolean, rest)
  | 'f' :: 'a' :: 'l' :: 's' :: 'e' :: rest => some (.boolean, rest)
  | 'n' :: 'u' :: 'l' :: 'l' :: rest => some (.null, rest)
  | '"' :: rest => do
    let (units, rest) ← readUnits rest
    some (.string ((characters? units).map String.ofList), rest)
  | '-' :: rest => (afterNumber? rest).map (.number, ·)
  | rest => (afterNumber? rest).map (.number, ·)

/-- The tokens of a text, of which there are at most `count`. -/
def tokensUpTo : (count : Nat) → List Char → Option (List Token)
  | 0, text => if (text.dropWhile isSpace).isEmpty then some [] else none
  | count + 1, text =>
    match text.dropWhile isSpace with
    | [] => some []
    | c :: rest => do
      let (token, rest) ← readToken (c :: rest)
      let tokens ← tokensUpTo count rest
      some (token :: tokens)

/-- The tokens of a text; each takes at least one character. -/
def tokens? (text : String) : Option (List Token) := tokensUpTo text.length text.toList

end Json

end KeySharing
