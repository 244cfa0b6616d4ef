import KeySharing.Action
import KeySharing.Fhe.Format
import KeySharing.Provider.Recorded

/-!
# Backends for homomorphic encryption

Decryption of encrypted results is the work of a library outside of this one, which keeps a global
state: it has to be told to release its parameters after every use.

- `Fhe.Backend`: the operations, over the backend's own handles and state.
- `Fhe.Backend.recordedWith`: the backend that notes every call and fails as a plan says.
-/

namespace KeySharing

namespace Fhe

variable {σ CryptoContext Ciphertext SecretKey : Type}

/-- An error of a backend. -/
structure BackendError where
  /-- Its text. -/
  message : String

/-- The operations of a backend. -/
structure Backend (σ CryptoContext Ciphertext SecretKey : Type) where
  /-- The parameters of the scheme from their bytes. -/
  readCryptoContext : Bytes → Format → Action σ BackendError CryptoContext
  /-- An encrypted result from its bytes. -/
  readCiphertext : Bytes → Format → Action σ BackendError Ciphertext
  /-- A key from its bytes. -/
  readSecretKey : Bytes → Format → Action σ BackendError SecretKey
  /-- The coefficients of an encrypted result, at least the given number of them. -/
  decrypt : CryptoContext → SecretKey → Ciphertext → (length : Nat) →
    Action σ BackendError (List Float)
  /-- The state after the parameters have been released. -/
  release : σ → σ

/-- One use of a backend. -/
inductive BackendCall (CryptoContext Ciphertext SecretKey : Type) where
  /-- The parameters are read. -/
  | readCryptoContext (bytes : Bytes) (format : Format)
  /-- The encrypted result is read. -/
  | readCiphertext (bytes : Bytes) (format : Format)
  /-- The key is read. -/
  | readSecretKey (bytes : Bytes) (format : Format)
  /-- The result is decrypted. -/
  | decrypt (context : CryptoContext) (key : SecretKey) (ciphertext : Ciphertext) (length : Nat)
  /-- The parameters are released. -/
  | release

/-- The backend that notes every call in the log and fails as the plan says. -/
def Backend.recordedWith
    (plan : List (BackendCall CryptoContext Ciphertext SecretKey) →
      BackendCall CryptoContext Ciphertext SecretKey → Option BackendError)
    (backend : Backend σ CryptoContext Ciphertext SecretKey) :
    Backend (Recorded σ (BackendCall CryptoContext Ciphertext SecretKey))
      CryptoContext Ciphertext SecretKey where
  readCryptoContext bytes format :=
    (backend.readCryptoContext bytes format).recordedWith plan (.readCryptoContext bytes format)
  readCiphertext bytes format :=
    (backend.readCiphertext bytes format).recordedWith plan (.readCiphertext bytes format)
  readSecretKey bytes format :=
    (backend.readSecretKey bytes format).recordedWith plan (.readSecretKey bytes format)
  decrypt context key ciphertext length :=
    (backend.decrypt context key ciphertext length).recordedWith plan
      (.decrypt context key ciphertext length)
  release record := ⟨backend.release record.state, record.events ++ [.release]⟩

/-- The backend that notes every call in the log. -/
def Backend.recorded (backend : Backend σ CryptoContext Ciphertext SecretKey) :
    Backend (Recorded σ (BackendCall CryptoContext Ciphertext SecretKey))
      CryptoContext Ciphertext SecretKey :=
  backend.recordedWith noFailures

end Fhe

end KeySharing
