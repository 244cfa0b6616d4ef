import KeySharing.Bytes
import KeySharing.CryptoError

/-!
# Base64

Two forms are in use: URL-safe text without padding for serialized values, and the standard
alphabet with padding inside key files. Both are strict: three bytes are four digits, a shorter
tail has two or three digits, and the bits a tail does not need are zero. So a byte string has
exactly one text.

- `Base64.Alphabet`: the last two digits, in which the two alphabets differ.
- `Base64.encode`, `Base64.decode`: without padding.
- `Base64.encodePadded`, `Base64.decodePadded`: with the padding written out.
- `Base64.encodeUrl`, `Base64.decodeUrl`: the URL-safe form; reading ignores `=` at the end.
- `Base64.readUrl`: the same reading with its error.
-/

namespace KeySharing

namespace Base64

/-- The two digits in which the alphabets of Base64 differ. -/
structure Alphabet where
  /-- The digit of value 62. -/
  digit62 : Char
  /-- The digit of value 63. -/
  digit63 : Char

/-- The standard alphabet. -/
def standard : Alphabet := ⟨'+', '/'⟩

/-- The alphabet that is safe in URLs and file names. -/
def urlSafe : Alphabet := ⟨'-', '_'⟩

/-- The digit of a value below 64. -/
def Alphabet.digit (alphabet : Alphabet) (value : Nat) : Char :=
  if value < 26 then Char.ofNat (value + 65)
  else if value < 52 then Char.ofNat (value + 71)
  else if value < 62 then Char.ofNat (value - 4)
  else if value = 62 then alphabet.digit62
  else alphabet.digit63

/-- The value of a digit. -/
def Alphabet.value? (alphabet : Alphabet) (c : Char) : Option Nat :=
  if 65 ≤ c.toNat ∧ c.toNat ≤ 90 then some (c.toNat - 65)
  else if 97 ≤ c.toNat ∧ c.toNat ≤ 122 then some (c.toNat - 71)
  else if 48 ≤ c.toNat ∧ c.toNat ≤ 57 then some (c.toNat + 4)
  else if c = alphabet.digit62 then some 62
  else if c = alphabet.digit63 then some 63
  else none

/-- The text of a byte string, without padding. -/
def encode (alphabet : Alphabet) : Bytes → List Char
  | [] => []
  | [a] => [alphabet.digit (a.toNat / 4), alphabet.digit (a.toNat % 4 * 16)]
  | [a, b] =>
    [alphabet.digit (a.toNat / 4), alphabet.digit (a.toNat % 4 * 16 + b.toNat / 16),
      alphabet.digit (b.toNat % 16 * 4)]
  | a :: b :: c :: rest =>
    alphabet.digit (a.toNat / 4) :: alphabet.digit (a.toNat % 4 * 16 + b.toNat / 16) ::
      alphabet.digit (b.toNat % 16 * 4 + c.toNat / 64) :: alphabet.digit (c.toNat % 64) ::
      encode alphabet rest

/-- The byte string of a text without padding. A single digit at the end carries no byte and is
refused, as are bits that no byte takes up. -/
def decode (alphabet : Alphabet) : List Char → Option Bytes
  | [] => some []
  | [_] => none
  | [w, x] => do
    let w ← alphabet.value? w
    let x ← alphabet.value? x
    if x % 16 = 0 then some [UInt8.ofNat (w * 4 + x / 16)] else none
  | [w, x, y] => do
    let w ← alphabet.value? w
    let x ← alphabet.value? x
    let y ← alphabet.value? y
    if y % 4 = 0 then
      some [UInt8.ofNat (w * 4 + x / 16), UInt8.ofNat (x % 16 * 16 + y / 4)]
    else none
  | w :: x :: y :: z :: rest => do
    let w ← alphabet.value? w
    let x ← alphabet.value? x
    let y ← alphabet.value? y
    let z ← alphabet.value? z
    let bytes ← decode alphabet rest
    some (UInt8.ofNat (w * 4 + x / 16) :: UInt8.ofNat (x % 16 * 16 + y / 4) ::
      UInt8.ofNat (y % 4 * 64 + z) :: bytes)

/-- The text of a byte string, its last group of four filled up with `=`. -/
def encodePadded (alphabet : Alphabet) (bytes : Bytes) : List Char :=
  let digits := encode alphabet bytes
  digits ++ List.replicate ((4 - digits.length % 4) % 4) '='

/-- A text without the padding signs at its end. -/
def dropPadding (text : List Char) : List Char := (text.reverse.dropWhile (· == '=')).reverse

/-- The byte string of a text whose last group of four is filled up with `=`. -/
def decodePadded (alphabet : Alphabet) (text : List Char) : Option Bytes :=
  let digits := dropPadding text
  if text.length % 4 = 0 ∧ text.length ≤ digits.length + 2 then decode alphabet digits else none

/-- URL-safe text without padding. -/
def encodeUrl (bytes : Bytes) : String := String.ofList (encode urlSafe bytes)

/-- The byte string of a URL-safe text; any `=` at its end are ignored. -/
def decodeUrl (text : String) : Option Bytes := decode urlSafe (dropPadding text.toList)

/-- The byte string of a URL-safe text, with the one error that reading has. -/
def readUrl (text : String) : Except CryptoError Bytes :=
  match decodeUrl text with
  | some bytes => .ok bytes
  | none => .error .invalidBase64

end Base64

end KeySharing
