import KeySharing.Random
import KeySharing.Rsa.Blinding
import KeySharing.Sha256

/-!
# RSA encryption with optimal asymmetric padding

The padding binds a message to a label: the padded block holds the digest of the label, and both
halves of the block mask each other.

- `Oaep.mask`: masking with the generator over SHA-256, one digest at a time.
- `Oaep.pad`, `Oaep.unpad`: the padded block of a message and a seed, and back. Unpadding goes
  through all of the padding with flags (`Oaep.Scan`), whatever it finds.
- `Oaep.encrypt`: checks the lengths, then draws the seed, then encrypts.
- `Oaep.decrypt`: the inversion under any blinding, then unpadding; every failure is the same error.
-/

namespace KeySharing

namespace Oaep

open Rsa (Blinding PublicKey PrivateKey)

/-- The bytes that the padding takes up: two digests and two bytes. -/
def overhead : Nat := 2 * digestLength + 2

/-- The longest message under a modulus of the given length. -/
def maxMessageLength (modulusLength : Nat) : Nat := modulusLength - overhead

/-! ## The padded block -/

/-- One piece of the mask of a seed. -/
def maskPiece (seed : Bytes) (counter : Nat) : Bytes :=
  (sha256 (seed ++ Bytes.bigEndian 4 counter)).val

/-- The text masked under a seed, one piece after the other from the given counter on. -/
def maskFrom (seed : Bytes) : (counter : Nat) → (pieces : List Bytes) → Bytes
  | _, [] => []
  | counter, piece :: pieces =>
    piece.xor (maskPiece seed counter) ++ maskFrom seed (counter + 1) pieces

/-- The text masked under a seed. -/
def mask (seed text : Bytes) : Bytes := maskFrom seed 0 (text.pieces digestLength)

/-- The data block of a message: the digest of the label, zeros, a one and the message. -/
def dataBlock (length : Nat) (label message : Bytes) : Bytes :=
  (sha256 label).val ++ List.replicate (length - digestLength - 1 - message.length) 0 ++
    1 :: message

/-- The padded block of `k` bytes. -/
def pad (k : Nat) (label message : Bytes) (seed : SizedBytes digestLength) : Bytes :=
  let maskedData := mask seed.val (dataBlock (k - digestLength - 1) label message)
  0 :: (mask maskedData seed.val ++ maskedData)

/-! ## The scan for the separator -/

/-- The one error of decryption. -/
def decodingError : CryptoError := .decryptionFailed "OAEP decoding error"

/-- What the scan of a data block behind its digest remembers. -/
structure Scan where
  /-- Whether the separator is still to come. -/
  looking : Bool
  /-- The position of the separator in a word of 32 bits, once it was met. -/
  separator : UInt32
  /-- Whether a byte that is neither zero nor one came before the separator. -/
  badPadding : Bool
  deriving DecidableEq, Repr

namespace Scan

/-- Nothing met yet. -/
def start : Scan := ⟨true, 0, false⟩

/-- What one byte changes. The byte is met as padding only if it is not the separator itself. -/
def step (scan : Scan) (position : Nat) (b : UInt8) : Scan :=
  let looking := scan.looking && b != 1
  { looking := looking
    separator := if scan.looking && b == 1 then UInt32.ofNat position else scan.separator
    badPadding := scan.badPadding || (looking && b != 0) }

/-- The scan of bytes that stand at a position and behind it. -/
def run (scan : Scan) (position : Nat) : Bytes → Scan
  | [] => scan
  | b :: rest => (scan.step position b).run (position + 1) rest

/-- What unpadding asks of the scan: the separator came, behind nothing but zeros. -/
def accepted (scan : Scan) : Bool := !scan.looking && !scan.badPadding

end Scan

/-- The message of a padded block, if it was padded under the label. All of the block is unmasked
and scanned before anything is decided. -/
def unpad (block label : Bytes) : Except CryptoError Bytes :=
  match block with
  | [] => .error decodingError
  | first :: rest =>
    let maskedSeed := rest.take digestLength
    let maskedData := rest.drop digestLength
    let data := mask (mask maskedData maskedSeed) maskedData
    let scan := Scan.start.run 0 (data.drop digestLength)
    if first = 0 ∧ data.take digestLength = (sha256 label).val ∧ scan.accepted then
      .ok (data.drop (digestLength + scan.separator.toNat + 1))
    else .error decodingError

/-! ## Encryption -/

/-- The ciphertext of a padded block: its number under the public permutation, as long as the
modulus. -/
def encryptBlock (key : PublicKey) (block : Bytes) : Bytes :=
  Bytes.bigEndian key.length (key.apply (Bytes.ofBigEndian block))

/-- The ciphertext of a message under a label. -/
def encrypt {σ : Type} (random : RandomSource σ) (key : PublicKey) (label message : Bytes) :
    Action σ CryptoError Bytes :=
  if key.length < overhead then throw (.modulusTooSmall key.length)
  else if maxMessageLength key.length < message.length then
    throw (.messageTooLong (maxMessageLength key.length) message.length)
  else do
    let seed ← random.draw digestLength
    pure (encryptBlock key (pad key.length label message seed))

/-! ## Decryption -/

/-- The padded block of a ciphertext, found under a blinding. -/
def decryptBlock? (key : PrivateKey) (blinding : Blinding key.publicKey.modulus)
    (ciphertext : Bytes) : Option Bytes :=
  let k := key.publicKey.length
  let c := Bytes.ofBigEndian ciphertext
  if ciphertext.length = k ∧ overhead ≤ k ∧ c < key.publicKey.modulus then
    (key.invert? blinding c).map (Bytes.bigEndian k)
  else none

/-- The message of a ciphertext under a label. The blinding is drawn by the caller; without one the
factor is two. -/
def decrypt (key : PrivateKey) (label ciphertext : Bytes)
    (blinding : Blinding key.publicKey.modulus := .two key.publicKey.modulus_odd) :
    Except CryptoError Bytes :=
  match decryptBlock? key blinding ciphertext with
  | some block => unpad block label
  | none => .error decodingError

end Oaep

end KeySharing
