import KeySharing.Aes.KeySchedule
import KeySharing.ProtocolError

/-!
# Algorithms and sharing modes

- `Algorithm`: the symmetric scheme a device key belongs to, with its identifier.
- `SharingMode`: what is shared, the key or its key schedule; it fixes the length of a share.
-/

namespace KeySharing

/-- A symmetric scheme. -/
inductive Algorithm where
  /-- AES with a key of 128 bits in Galois/counter mode. -/
  | aesGcm128
deriving DecidableEq

namespace Algorithm

/-- The identifier of an algorithm, which also stands in request contexts. -/
def identifier : Algorithm → String
  | .aesGcm128 => "AES-GCM-128"

/-- The length of a device key in bytes. -/
def keyLength : Algorithm → Nat
  | .aesGcm128 => Aes.keyLength

/-- The algorithm with an identifier. -/
def ofIdentifier (text : String) : Except ProtocolError Algorithm :=
  if text = aesGcm128.identifier then .ok .aesGcm128 else .error (.unsupportedAlgorithm text)

end Algorithm

/-- What is shared of a device key. -/
inductive SharingMode where
  /-- The key. -/
  | rawKey
  /-- The key schedule. -/
  | keySchedule
deriving DecidableEq

namespace SharingMode

/-- The name of a mode. -/
def name : SharingMode → String
  | .rawKey => "raw-key"
  | .keySchedule => "key-schedule"

/-- The length of a share in bytes. -/
def shareLength : SharingMode → Nat
  | .rawKey => Aes.keyLength
  | .keySchedule => Aes.scheduleLength

end SharingMode

end KeySharing
