import KeySharing.Base64
import KeySharing.Text.Blank

/-!
# PEM texts

A PEM text is Base64 between two boundary lines that carry a label. Blanks around the text are
ignored, and other text may stand before the first boundary line. In between little is free: the
label is the expected one, every line but the last has 64 digits, a last line may be ended twice,
and nothing follows the last boundary line.

- `Pem.encode`: the text of a byte string.
- `Pem.decode`: the byte string of a text.
-/

namespace KeySharing

namespace Pem

/-- The start of the first boundary line. -/
def opening : List Char := "-----BEGIN ".toList

/-- The end of both boundary lines. -/
def dashes : List Char := "-----".toList

/-- The last boundary line. -/
def closing (label : List Char) : List Char := "-----END ".toList ++ label ++ dashes

/-- The number of digits of a full line. -/
def lineLength : Nat := 64

/-! ## Writing -/

/-- The digits in at most `count` full lines and a last line, each with a line break before it. -/
def lines : (count : Nat) → List Char → List Char
  | 0, digits => '\n' :: digits
  | count + 1, digits =>
    if digits.length ≤ lineLength then '\n' :: digits
    else '\n' :: (digits.take lineLength ++ lines count (digits.drop lineLength))

/-- The PEM text of a byte string. -/
def encode (label : String) (bytes : Bytes) : String :=
  let digits := Base64.encodePadded Base64.standard bytes
  String.ofList (opening ++ label.toList ++ dashes ++ lines digits.length digits ++ ['\n'] ++
    closing label.toList ++ ['\n'])

/-! ## Reading -/

/-- What follows `front` in a text that starts so. -/
def after? (front text : List Char) : Option (List Char) :=
  if front.isPrefixOf text then some (text.drop front.length) else none

/-- What follows one line break, which is LF, CR LF or CR. -/
def afterLineBreak? : List Char → Option (List Char)
  | '\n' :: rest => some rest
  | '\r' :: '\n' :: rest => some rest
  | '\r' :: rest => some rest
  | _ => none

/-- What stands before one line break at the end of a text. -/
def beforeLineBreak? (text : List Char) : Option (List Char) :=
  match text.reverse with
  | '\n' :: '\r' :: rest => some rest.reverse
  | '\n' :: rest => some rest.reverse
  | '\r' :: rest => some rest.reverse
  | _ => none

/-- What follows the first opening that stands directly after a line feed; a null character
before it is refused. -/
def skipForeword : List Char → Option (List Char)
  | [] => none
  | c :: rest =>
    if c = '\x00' then none
    else if c = '\n' ∧ opening.isPrefixOf rest then some (rest.drop opening.length)
    else skipForeword rest

/-- A text without the line break at its end, if it has one. -/
def dropLineBreak (text : List Char) : List Char := (beforeLineBreak? text).getD text

/-- The bytes of a body of at most `count` full lines and a last line. Only the line with which the
body ends may be filled up with padding; a line break after a full line that is not the end opens
another line, even an empty one. -/
def decodeLines : (count : Nat) → List Char → Option Bytes
  | 0, body => Base64.decodePadded Base64.standard (dropLineBreak body)
  | count + 1, body =>
    let line := body.take lineLength
    let next := body.drop lineLength
    if next.isEmpty then Base64.decodePadded Base64.standard (dropLineBreak line)
    else do
      let rest ← afterLineBreak? next
      if rest.isEmpty then Base64.decodePadded Base64.standard line
      else do
        let bytes ← Base64.decode Base64.standard line
        let more ← decodeLines count rest
        some (bytes ++ more)

/-- The body between the boundary lines with the given label. -/
def body? (label : List Char) (text : List Char) : Option (List Char) := do
  let text := Text.trim text
  let rest ← match after? opening text with
    | some rest => some rest
    | none => skipForeword text
  let rest ← after? (label ++ dashes) rest
  let rest ← afterLineBreak? rest
  let final := closing label
  if rest.drop (rest.length - final.length) = final then
    let body ← beforeLineBreak? (rest.take (rest.length - final.length))
    if body.isEmpty then none else some body
  else none

/-- The bytes of a PEM text with the given label. -/
def decode (label text : String) : Option Bytes := do
  let body ← body? label.toList text.toList
  decodeLines body.length body

end Pem

end KeySharing
