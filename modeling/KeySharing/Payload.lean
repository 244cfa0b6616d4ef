import KeySharing.ProtocolError

/-!
# Payloads

What data a request is about: single records by their time in seconds, or a stretch of a stream by
its bounds in milliseconds.

- `Payload.ofTimestamps`: the records of written timestamps.
- `Payload.ofBounds`: the stretch between two written timestamps, the first not after the second.
-/

namespace KeySharing

/-- The data a request is about. -/
inductive Payload where
  /-- The records at these Unix seconds. -/
  | indices (seconds : List UInt64)
  /-- The stream between these Unix milliseconds. -/
  | range (start stop : UInt64)
deriving DecidableEq

/-- The byte that keeps the contexts of the two kinds of payload apart. -/
inductive PayloadTag where
  /-- Single records. -/
  | point
  /-- A stretch of a stream. -/
  | range
deriving DecidableEq

/-- The byte of a tag. -/
def PayloadTag.toByte : PayloadTag → UInt8
  | .point => 0
  | .range => 1

namespace Payload

/-- The tag of a payload. -/
def tag : Payload → PayloadTag
  | .indices _ => .point
  | .range .. => .range

/-- A written timestamp. -/
def readTimestamp (text : String) : Except ProtocolError Timestamp :=
  (Timestamp.parse text).mapError fun fault => .malformedInput (.timestamp text fault)

/-- An instant since 1970. -/
def sinceEpoch (instant : Int) : Except ProtocolError UInt64 :=
  if 0 ≤ instant then .ok (UInt64.ofNat instant.toNat)
  else .error (.malformedInput (.beforeEpoch instant))

/-- The Unix second of a written timestamp. -/
def secondOf (text : String) : Except ProtocolError UInt64 := do
  sinceEpoch (← readTimestamp text).unixSeconds

/-- The Unix millisecond of a written timestamp. -/
def milliOf (text : String) : Except ProtocolError UInt64 := do
  sinceEpoch (← readTimestamp text).unixMillis

/-- The Unix seconds of written timestamps, in order; the first fault counts. -/
def secondsOf : List String → Except ProtocolError (List UInt64)
  | [] => .ok []
  | text :: texts => do
    let second ← secondOf text
    let seconds ← secondsOf texts
    pure (second :: seconds)

/-- The records at written timestamps. -/
def ofTimestamps (texts : List String) : Except ProtocolError Payload := do
  pure (.indices (← secondsOf texts))

/-- The stream between two written timestamps. -/
def ofBounds (start stop : String) : Except ProtocolError Payload := do
  let first ← milliOf start
  let last ← milliOf stop
  if last < first then throw (.malformedInput (.reversedRange first.toNat last.toNat))
  else pure (.range first last)

end Payload

end KeySharing
