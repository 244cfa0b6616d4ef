import KeySharing.Action
import KeySharing.CryptoError
import KeySharing.Gcm
import KeySharing.Sha256

/-!
# Providers of cryptography

The protocol never calls a primitive directly. It works with a provider, whose keys are opaque
to it and whose operations may act on a state and may fail.
-/

namespace KeySharing

/-- The primitives the protocol needs, over states of type `σ` and the provider's own key types. -/
structure Provider (σ PublicKey PrivateKey SecretKey : Type) where
  /-- The exported form of a public key; the same key always has the same form. -/
  exportKey : PublicKey → Action σ CryptoError Bytes
  /-- A symmetric key from its bytes. -/
  importKey : Bytes → Action σ CryptoError SecretKey
  /-- Public-key encryption of a message bound to a label. -/
  encrypt : PublicKey → (label message : Bytes) → Action σ CryptoError Bytes
  /-- Decryption; it fails unless the label is the one the message was bound to. -/
  decrypt : PrivateKey → (label ciphertext : Bytes) → Action σ CryptoError Bytes
  /-- The SHA-256 digest. -/
  digest : Bytes → Action σ CryptoError Digest
  /-- Authenticated encryption of a text; the result ends with its tag. -/
  sealText : SecretKey → Nonce → (aad text : Bytes) → Action σ CryptoError Bytes
  /-- Authenticated decryption; a wrong tag is the error `authenticationFailed`. -/
  openText : SecretKey → Nonce → (aad blob : Bytes) → Action σ CryptoError Bytes

end KeySharing
