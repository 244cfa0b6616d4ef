/-!
# Errors of the cryptographic primitives

- `KeyDefect`: what is wrong with a key text.
- `CryptoError`: one constructor per cause; `CryptoError.message` holds all the wording.
-/

namespace KeySharing

/-- What is wrong with the text of a key. -/
inductive KeyDefect where
  /-- No PEM text with the expected label. -/
  | notPem
  /-- The content is not the expected DER structure. -/
  | notDer
  /-- The modulus is longer than the reader admits. -/
  | modulusTooLarge
  /-- The modulus is even, or the exponent even, too small, too large or not below the modulus. -/
  | unusableNumbers
  /-- The factors are trivial or their product is not the modulus. -/
  | wrongFactors
  /-- The private exponent does not invert the public one. -/
  | wrongExponent

/-- The description of a key defect. -/
def KeyDefect.message : KeyDefect → String
  | .notPem => "not a PEM text of the expected kind"
  | .notDer => "not the DER form of an RSA key"
  | .modulusTooLarge => "modulus too large"
  | .unusableNumbers => "unusable modulus or exponent"
  | .wrongFactors => "factors do not match the modulus"
  | .wrongExponent => "private exponent does not match the public exponent"

/-- A failure of a cryptographic operation. -/
inductive CryptoError where
  /-- A symmetric key of the wrong length. -/
  | invalidKeyLength (expected got : Nat)
  /-- A sealed text shorter than its tag. -/
  | dataTooShort
  /-- A message that the padding leaves no room for. -/
  | messageTooLong (max got : Nat)
  /-- A text that is no usable public key. -/
  | malformedPublicKey (defect : KeyDefect)
  /-- A public key whose modulus leaves no room for the padding. -/
  | modulusTooSmall (bytes : Nat)
  /-- A text that is no usable private key. -/
  | malformedPrivateKey (defect : KeyDefect)
  /-- A public key could not be exported. -/
  | keyExportFailed (reason : String)
  /-- Encryption failed. -/
  | encryptionFailed (reason : String)
  /-- Decryption failed. -/
  | decryptionFailed (reason : String)
  /-- The tag does not belong to the text. -/
  | authenticationFailed
  /-- The random source gave no bytes. -/
  | randomFailed (reason : String)
  /-- A text that is not Base64. -/
  | invalidBase64

/-- The text of an error. -/
def CryptoError.message : CryptoError → String
  | .invalidKeyLength expected got =>
    s!"Invalid key length: expected {expected} bytes, got {got}"
  | .dataTooShort => "Encrypted data too short"
  | .messageTooLong max got =>
    s!"Message too long for RSA-OAEP: at most {max} bytes, got {got}"
  | .malformedPublicKey defect => "Invalid public key: " ++ defect.message
  | .modulusTooSmall bytes =>
    s!"Invalid public key: modulus of {bytes} bytes is too small for OAEP"
  | .malformedPrivateKey defect => "Invalid private key: " ++ defect.message
  | .keyExportFailed reason => "Public key export failed: " ++ reason
  | .encryptionFailed reason => "Encryption failed: " ++ reason
  | .decryptionFailed reason => "Decryption failed: " ++ reason
  | .authenticationFailed => "Authentication tag mismatch"
  | .randomFailed reason => "Random number generation failed: " ++ reason
  | .invalidBase64 => "Base64 decode error: invalid Base64 encoding"

end KeySharing
