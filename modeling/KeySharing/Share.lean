import KeySharing.Algorithm
import KeySharing.PerParty
import KeySharing.Random

/-!
# Shares

A secret is split into two random shares and a third that makes their exclusive or the secret.

- `sharedSecret`: what is shared of a device key in a mode.
- `Share.split`: two draws, each as long as the secret, and the third share.
- `Share.combine`: the secret of three shares of one length.
-/

namespace KeySharing

variable {σ : Type}

/-- One share of a secret. -/
structure Share where
  /-- The bytes. -/
  bytes : Bytes
deriving DecidableEq

/-- What is shared of a device key: the key or its key schedule. -/
def sharedSecret (deviceKey : Bytes) (algorithm : Algorithm) (mode : SharingMode) :
    Except ProtocolError Bytes :=
  if h : deviceKey.length = algorithm.keyLength then
    match mode with
    | .rawKey => .ok deviceKey
    | .keySchedule =>
      have hlen : deviceKey.length = Aes.keyLength := by cases algorithm; exact h
      .ok (Aes.expand ⟨deviceKey, hlen⟩).toBytes
  else .error (.invalidKeyLength algorithm.keyLength deviceKey.length)

namespace Share

/-- The number of bytes. -/
def length (share : Share) : Nat := share.bytes.length

/-- Whether there are no bytes. -/
def isEmpty (share : Share) : Bool := share.bytes.isEmpty

/-- The description of a share, which keeps its bytes to itself. -/
def describe (share : Share) : String :=
  "Share \x7b len: " ++ toString share.length ++ " \x7d"

/-- Three shares of a secret. -/
def split (random : RandomSource σ) (secret : Bytes) : Action σ CryptoError (PerParty Share) := do
  let first ← random.draw secret.length
  let second ← random.draw secret.length
  pure ⟨⟨first.val⟩, ⟨second.val⟩, ⟨(secret.xor first.val).xor second.val⟩⟩

/-- Three shares of a device key. -/
def splitKey (random : RandomSource σ) (deviceKey : Bytes) (algorithm : Algorithm)
    (mode : SharingMode) : Action σ ProtocolError (PerParty Share) := do
  let secret ← Action.ofExcept (sharedSecret deviceKey algorithm mode)
  (split random secret).mapError .ofCrypto

/-- The exclusive or of three shares. All have to be as long as the first. -/
def combine (shares : PerParty Share) : Except ProtocolError Bytes :=
  match shares.toList.find? fun share => share.length ≠ shares.first.length with
  | some share => .error (.invalidShareLength shares.first.length share.length)
  | none => .ok ((shares.first.bytes.xor shares.second.bytes).xor shares.third.bytes)

end Share

end KeySharing
