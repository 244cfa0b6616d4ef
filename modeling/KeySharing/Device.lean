import KeySharing.Action
import KeySharing.Algorithm
import KeySharing.Gcm

/-!
# Devices

A device protects its data before the upload. Every blob has a nonce of its own: the device counts
nonces upwards, modulo 2^96, and stops before it comes round to the first one again. A blob is the
nonce, the masked data and the tag; the associated data are the user and the nonce.

- `Device`: the number of nonces used, the last nonce and the key.
- `Device.protect`: takes the next nonce and encrypts; once all are used, it fails and leaves the
  device as it is.
- `unprotect`: the data of a blob, for whoever holds the key.
-/

namespace KeySharing

/-! ## Nonces as numbers -/

/-- The number of a nonce, least significant byte first. -/
def Nonce.toNat (nonce : Nonce) : Nat := Bytes.ofLittleEndian nonce.val

/-- The nonce of a number modulo 2^96. -/
def Nonce.ofNat (n : Nat) : Nonce :=
  ⟨Bytes.littleEndian nonceLength n, Bytes.length_littleEndian nonceLength n⟩

/-- The nonce after a nonce. -/
def Nonce.next (nonce : Nonce) : Nonce := Nonce.ofNat (Nonce.toNat nonce + 1)

/-- The number of nonces. -/
def nonceCount : Nat := 1 <<< 96

/-! ## Devices -/

/-- The state of a device. -/
structure Device where
  /-- The number of nonces used so far. -/
  usedNonces : Nat
  /-- The nonce used last, or the start nonce. -/
  nonce : Nonce
  /-- The key. -/
  key : Aes.Key

/-- The bytes that a blob has on top of its data. -/
def blobOverhead : Nat := nonceLength + tagLength

/-- The associated data of a blob. -/
def blobAad (userId : String) (nonce : Nonce) : Bytes := Bytes.ofText userId ++ nonce.val

namespace Device

/-- A new device. The start nonce itself is never used before all others are. -/
def start (nonce : Nonce) (key : Aes.Key) : Device := ⟨0, nonce, key⟩

/-- The device after it has taken its next nonce. -/
def advance (device : Device) : Device :=
  ⟨device.usedNonces + 1, Nonce.next device.nonce, device.key⟩

/-- The next nonce of a device, while there is one. -/
def freshNonce : Action Device ProtocolError Nonce :=
  Action.ofRun fun device =>
    if device.usedNonces < nonceCount then (.ok device.advance.nonce, device.advance)
    else (.error .rekeyRequired, device)

/-- The blob of some data of a user. The nonce is used up even if the data turn out too long. -/
def protect (userId : String) (algorithm : Algorithm) (data : Bytes) :
    Action Device ProtocolError Bytes :=
  match algorithm with
  | .aesGcm128 => do
    let nonce ← freshNonce
    let device ← get
    let sealed ← Action.ofExcept
      ((Gcm.encrypt device.key nonce (blobAad userId nonce) data).mapError .ofCrypto)
    pure (nonce.val ++ sealed)

/-- The description of a device, which keeps its key to itself. -/
def describe (device : Device) : String :=
  let bytes := ", ".intercalate (device.nonce.val.map fun b => toString b.toNat)
  "DeviceState \x7b used_nonces: " ++ toString device.usedNonces ++ ", nonce: [" ++ bytes ++
    "], .. \x7d"

end Device

/-- The data of a blob of a user. -/
def unprotect (userId : String) (key blob : Bytes) : Except ProtocolError Bytes :=
  if h : blob.length < blobOverhead then
    .error (.malformedInput (.blobTooShort blob.length blobOverhead))
  else
    have hlen : nonceLength ≤ blob.length :=
      Nat.le_trans (Nat.le_add_right nonceLength tagLength) (Nat.le_of_not_lt h)
    let nonce : Nonce := ⟨blob.take nonceLength, List.length_take_of_le hlen⟩
    Except.mapError .ofCrypto do
      let key ← Aes.Key.ofBytes key
      Gcm.decrypt key nonce (blobAad userId nonce) (blob.drop nonceLength)

end KeySharing
