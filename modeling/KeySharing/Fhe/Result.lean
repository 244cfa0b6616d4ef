import KeySharing.Base64
import KeySharing.Fhe.Backend
import KeySharing.ProtocolError

/-!
# Encrypted results

An encrypted result comes as three texts. Its coefficients are decrypted by a backend, and the
softmax of the first five is the answer.

- `Fhe.softmax`: exponentials of the distances to the largest value, scaled to sum one.
- `Fhe.SerializedResult.coefficients`: decodes the texts, then calls the backend.
- `Fhe.SerializedResult.decode`: the same and the softmax. Whatever happens, the last call is the
  release of the backend, and it is the only one.
-/

namespace KeySharing

namespace Fhe

variable {σ CryptoContext Ciphertext SecretKey : Type}

/-- The number of coefficients of a result. -/
def outputLength : Nat := 5

/-! ## Softmax -/

/-- The larger of two values; a value that is no number counts for nothing. -/
def larger (x y : Float) : Float := if y.isNaN then x else if x < y then y else x

/-- The softmax of some values. -/
def softmax (values : List Float) : List Float :=
  let greatest := values.foldl larger (-1.0 / 0.0)
  let exponentials := values.map fun v => (v - greatest).exp
  let sum := exponentials.foldl (· + ·) 0.0
  exponentials.map (· / sum)

/-! ## Decoding -/

/-- The bytes that the text of a part stands for. -/
def decodePart (part : ResultPart) (format : Format) (text : String) :
    Except ProtocolError Bytes :=
  match format with
  | .json => .ok (Bytes.ofText text)
  | .binary => (Base64.readUrl text).mapError fun _ => .malformedInput (.undecodable part)

/-- The coefficients of a result among those decrypted. -/
def selectCoefficients (values : List Float) : Except ProtocolError (List Float) :=
  if values.length < outputLength then
    .error (.malformedInput (.tooFewCoefficients values.length outputLength))
  else if (values.take outputLength).all Float.isFinite then .ok (values.take outputLength)
  else .error (.malformedInput .notFinite)

/-- The texts of an encrypted result. -/
structure SerializedResult where
  /-- The parameters of the scheme. -/
  cryptoContext : String
  /-- The encrypted coefficients. -/
  ciphertext : String
  /-- The key. -/
  secretKey : String

namespace SerializedResult

/-- The protocol's error for an error of the backend. -/
def backendError (error : BackendError) : ProtocolError := .backend error.message

/-- The coefficients of an encrypted result. -/
def coefficients (backend : Backend σ CryptoContext Ciphertext SecretKey)
    (texts : SerializedResult) (format : Format) : Action σ ProtocolError (List Float) := do
  let contextBytes ← Action.ofExcept (decodePart .cryptoContext format texts.cryptoContext)
  let ciphertextBytes ← Action.ofExcept (decodePart .ciphertext format texts.ciphertext)
  let keyBytes ← Action.ofExcept (decodePart .secretKey format texts.secretKey)
  let context ← (backend.readCryptoContext contextBytes format).mapError backendError
  let ciphertext ← (backend.readCiphertext ciphertextBytes format).mapError backendError
  let key ← (backend.readSecretKey keyBytes format).mapError backendError
  let values ← (backend.decrypt context key ciphertext outputLength).mapError backendError
  Action.ofExcept (selectCoefficients values)

/-- The softmax of the coefficients of an encrypted result. -/
def decode (backend : Backend σ CryptoContext Ciphertext SecretKey)
    (texts : SerializedResult) (format : Format) : Action σ ProtocolError (List Float) :=
  Action.ofRun fun state =>
    let (outcome, state) := (texts.coefficients backend format).run state
    (outcome.map softmax, backend.release state)

end SerializedResult

end Fhe

end KeySharing
