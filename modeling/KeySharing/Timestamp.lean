import KeySharing.Calendar
import KeySharing.Text.Blank

/-!
# Timestamps

A timestamp is written `year-month-dayThour:minute:second` and means universal time. Its reader is
lenient in two ways: blanks may stand before each number, and all but a year without a sign may be
shorter than usual; a year with a sign may have any number of digits. Second 60 is a leap second.

- `Timestamp.parse`: a timestamp, or the first thing that is wrong with a text.
- `Timestamp.unixSeconds`, `Timestamp.unixMillis`: the instant. In seconds a leap second counts as
  the second before it, in milliseconds as the one after it.
-/

namespace KeySharing

/-- A date and a time of day; the second may be 60. -/
structure Timestamp where
  /-- The date. -/
  date : Date
  /-- The hour. -/
  hour : Nat
  /-- The minute. -/
  minute : Nat
  /-- The second. -/
  second : Nat
deriving DecidableEq

namespace Timestamp

/-- What is wrong with a text that is no timestamp. -/
inductive Fault where
  /-- Another character stands where a digit or a separator should. -/
  | invalidCharacters
  /-- A number is too large or too small, or the date does not exist. -/
  | outOfRange
  /-- The text ends before the timestamp does. -/
  | prematureEnd
  /-- The text goes on after the timestamp. -/
  | trailingInput
deriving DecidableEq

/-- The description of a fault. -/
def Fault.message : Fault → String
  | .invalidCharacters => "input contains invalid characters"
  | .outOfRange => "input is out of range"
  | .prematureEnd => "premature end of input"
  | .trailingInput => "trailing input"

/-! ## Reading -/

/-- A reader takes its value from the front of a text and gives the rest. -/
abbrev Reader (α : Type) := StateT (List Char) (Except Fault) α

/-- The number that a run of digits stands for. -/
def numberOfDigits (digits : List Char) : Nat :=
  digits.foldl (fun n c => 10 * n + (c.toNat - 48)) 0

/-- The first numbers that are out of range everywhere. -/
def numberBound : Nat := 1 <<< 63

/-- A number of at least one digit and at most `limit` digits, if there is a limit. -/
def number (limit : Option Nat) : Reader Nat := fun text =>
  let digits := (match limit with
    | some n => text.take n
    | none => text).takeWhile Char.isDigit
  if digits.isEmpty then .error (if text.isEmpty then .prematureEnd else .invalidCharacters)
  else if numberOfDigits digits < numberBound then
    .ok (numberOfDigits digits, text.drop digits.length)
  else .error .outOfRange

/-- The text from its first character that is not blank. -/
def skipBlanks : Reader Unit := fun text => .ok ((), Text.dropBlanks text)

/-- One given character. -/
def separator (c : Char) : Reader Unit := fun text =>
  match text with
  | [] => .error .prematureEnd
  | d :: rest => if d = c then .ok ((), rest) else .error .invalidCharacters

/-- A value that has to lie in a range. -/
def within (low high n : Int) : Reader Unit :=
  if low ≤ n ∧ n ≤ high then pure () else throw .outOfRange

/-- A number of one or two digits in a range, after blanks. -/
def component (low high : Nat) : Reader Nat := do
  skipBlanks
  let n ← number (some 2)
  within low high n
  pure n

/-- The sign that a text starts with, if there is one. -/
def sign? : Reader (Option Int) := fun text =>
  match text with
  | '-' :: rest => .ok (some (-1), rest)
  | '+' :: rest => .ok (some 1, rest)
  | _ => .ok (none, text)

/-- A year after blanks: at most four digits, or a sign and any number of digits. -/
def year : Reader Int := do
  skipBlanks
  let value ← match ← sign? with
    | some sign => do
      let n ← number none
      pure (sign * n)
    | none => do
      let n ← number (some 4)
      pure (n : Int)
  within Int32.minValue.toInt Int32.maxValue.toInt value
  pure value

/-- The end of the text. -/
def endOfText : Reader Unit := fun text =>
  if text.isEmpty then .ok ((), []) else .error .trailingInput

/-- The first and the last year of the calendar. -/
def yearRange : Int × Int := (-262143, 262142)

/-- The timestamp that makes up the whole text. -/
def reader : Reader Timestamp := do
  let y ← year
  separator '-'
  let month ← component 1 12
  separator '-'
  let day ← component 1 31
  separator 'T'
  let hour ← component 0 23
  separator ':'
  let minute ← component 0 59
  separator ':'
  let second ← component 0 60
  endOfText
  within yearRange.1 yearRange.2 y
  let date : Date := ⟨y, month, day⟩
  if date.isValid then pure ⟨date, hour, minute, second⟩ else throw .outOfRange

/-- The timestamp of a text. -/
def parse (text : String) : Except Fault Timestamp := reader.run' text.toList

/-! ## Instants -/

/-- The number of seconds from 1970 to the start of the second, a leap second not counted. -/
def unixSeconds (t : Timestamp) : Int :=
  t.date.dayNumber * 86400 + (t.hour * 3600 + t.minute * 60 + min t.second 59 : Nat)

/-- The number of milliseconds from 1970. -/
def unixMillis (t : Timestamp) : Int :=
  t.unixSeconds * 1000 + (if t.second = 60 then 1000 else 0)

end Timestamp

end KeySharing
