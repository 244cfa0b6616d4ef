import KeySharing.Json.Token

/-!
# Reading JSON values

Readers take a value from the front of a list of tokens. Values whose meaning is not needed are
skipped, however deeply they nest; only their grammar is checked.

- `Json.skipValue`: the tokens after one value.
- `Json.text`, `Json.choice`: a string, and one of several names, which may also stand as the only
  key of an object with the value null.
-/

namespace KeySharing

namespace Json

/-- A value that has begun and not ended. -/
inductive Frame where
  /-- An array. -/
  | array
  /-- An object. -/
  | object

/-- What may come next while a value is skipped. -/
inductive Expectation where
  /-- A value. -/
  | value
  /-- A value, or the end of an empty array. -/
  | valueOrEnd
  /-- A key. -/
  | key
  /-- A key, or the end of an empty object. -/
  | keyOrEnd
  /-- The colon after a key. -/
  | colon
  /-- A comma, or the end of the innermost value. -/
  | next

/-- How far a value has been skipped. -/
inductive Progress where
  /-- To its end. -/
  | finished
  /-- To a place where something is expected inside of some frames, the innermost first. -/
  | ongoing (expectation : Expectation) (frames : List Frame)

/-- The progress at the end of a value inside of some frames. -/
def Progress.afterValue : List Frame → Progress
  | [] => .finished
  | frames => .ongoing .next frames

/-- The progress at the end of the innermost frame. -/
def Progress.afterFrame : List Frame → Option Progress
  | [] => none
  | _ :: frames => some (afterValue frames)

/-- The progress that one token makes where a value is expected. -/
def Progress.atValue (frames : List Frame) : Token → Option Progress
  | .beginArray => some (.ongoing .valueOrEnd (.array :: frames))
  | .beginObject => some (.ongoing .keyOrEnd (.object :: frames))
  | .string _ | .number | .boolean | .null => some (afterValue frames)
  | _ => none

/-- The progress that one token makes. -/
def Progress.step (expectation : Expectation) (frames : List Frame) (token : Token) :
    Option Progress :=
  match expectation, frames, token with
  | .value, _, _ => atValue frames token
  | .valueOrEnd, _, .endArray => afterFrame frames
  | .valueOrEnd, _, _ => atValue frames token
  | .keyOrEnd, _, .endObject => afterFrame frames
  | .keyOrEnd, _, .string _ | .key, _, .string _ => some (.ongoing .colon frames)
  | .colon, _, .colon => some (.ongoing .value frames)
  | .next, .array :: _, .comma => some (.ongoing .value frames)
  | .next, .object :: _, .comma => some (.ongoing .key frames)
  | .next, .array :: _, .endArray | .next, .object :: _, .endObject => afterFrame frames
  | _, _, _ => none

/-- The tokens after the end of a value that has been skipped in part. -/
def skipFrom : Expectation → List Frame → List Token → Option (List Token)
  | _, _, [] => none
  | expectation, frames, token :: rest =>
    match Progress.step expectation frames token with
    | none => none
    | some .finished => some rest
    | some (.ongoing expectation frames) => skipFrom expectation frames rest

/-- The tokens after the value at the front. -/
def skipValue (tokens : List Token) : Option (List Token) := skipFrom .value [] tokens

/-- A reader takes a value from the front of a list of tokens. -/
abbrev Reader (α : Type) := StateT (List Token) Option α

/-- Any one value. -/
def skip : Reader Unit := fun tokens => (skipValue tokens).map ((), ·)

/-- One given token. -/
def expect (token : Token) : Reader Unit := fun tokens =>
  match tokens with
  | [] => none
  | found :: rest => if found = token then some ((), rest) else none

/-- Whether the next token is the given one; if it is, it is taken. -/
def accept (token : Token) : Reader Bool := fun tokens =>
  match tokens with
  | [] => some (false, [])
  | found :: rest => if found = token then some (true, rest) else some (false, found :: rest)

/-- A string that has a value. -/
def text : Reader String := fun tokens =>
  match tokens with
  | .string (some value) :: rest => some (value, rest)
  | _ => none

/-- One of several names. -/
def name {α : Type} (names : List (String × α)) : Reader α := do
  let found ← text
  StateT.lift (names.lookup found)

/-- One of several names as a string, or as the key of an object with the value null. -/
def choice {α : Type} (names : List (String × α)) : Reader α := do
  if ← accept .beginObject then
    let value ← name names
    expect .colon
    expect .null
    expect .endObject
    pure value
  else name names

/-- The value of a text that holds nothing else. -/
def read? {α : Type} (reader : Reader α) (source : String) : Option α := do
  let tokens ← tokens? source
  let (value, rest) ← reader tokens
  if rest.isEmpty then some value else none

end Json

end KeySharing
