import KeySharing.CryptoError
import KeySharing.Text.Quoted
import KeySharing.Timestamp

/-!
# Errors of the protocol

- `MalformedInput`, `ConfigurationDefect`: the causes of the two errors that have many.
- `ProtocolError`: one constructor per kind; `ProtocolError.message` holds the wording.
- `ProtocolError.ofCrypto`: how a failed primitive shows. A wrong tag is an error of its own and
  never an error of the primitives.
-/

namespace KeySharing

/-- The serialized parts of an encrypted result. -/
inductive ResultPart where
  /-- The parameters of the scheme. -/
  | cryptoContext
  /-- The encrypted coefficients. -/
  | ciphertext
  /-- The key. -/
  | secretKey
deriving DecidableEq

/-- The name of a part. -/
def ResultPart.name : ResultPart → String
  | .cryptoContext => "crypto context"
  | .ciphertext => "ciphertext"
  | .secretKey => "secret key"

/-- Why an input is malformed. -/
inductive MalformedInput where
  /-- A text that is no timestamp. -/
  | timestamp (text : String) (fault : Timestamp.Fault)
  /-- An instant before 1970. -/
  | beforeEpoch (instant : Int)
  /-- A range that ends before it starts. -/
  | reversedRange (start stop : Nat)
  /-- An encrypted result shorter than its tag. -/
  | resultTooShort (length tagLength : Nat)
  /-- A protected blob shorter than its nonce and tag. -/
  | blobTooShort (length minimum : Nat)
  /-- A part of an encrypted result that is not Base64. -/
  | undecodable (part : ResultPart)
  /-- Fewer decrypted coefficients than a result has. -/
  | tooFewCoefficients (count needed : Nat)
  /-- A decrypted coefficient that is infinite or no number. -/
  | notFinite

/-- The description of a malformed input. -/
def MalformedInput.message : MalformedInput → String
  | .timestamp text fault => "invalid timestamp " ++ Text.quoted text ++ ": " ++ fault.message
  | .beforeEpoch instant => s!"timestamp before 1970: {instant}"
  | .reversedRange start stop => s!"streaming range ends before it starts ({stop} < {start})"
  | .resultTooShort length tagLength =>
    s!"encrypted result of {length} bytes is shorter than the {tagLength}-byte tag"
  | .blobTooShort length minimum =>
    s!"protected blob of {length} bytes is shorter than {minimum}"
  | .undecodable part => part.name ++ ": " ++ CryptoError.invalidBase64.message
  | .tooFewCoefficients count needed => s!"decrypted {count} coefficients, need {needed}"
  | .notFinite => "decrypted coefficients are not finite"

/-- Why a configuration cannot be used. -/
inductive ConfigurationDefect where
  /-- There is no party with this index. -/
  | noSuchParty (index count : Nat)
  /-- The public key of a party is not the one listed for it. -/
  | foreignKey (index : Nat)

/-- The description of a configuration defect. -/
def ConfigurationDefect.message : ConfigurationDefect → String
  | .noSuchParty index count => s!"party index {index} out of range 0..{count}"
  | .foreignKey index => s!"own public key does not match party key {index}"

/-- A failure of a protocol step. -/
inductive ProtocolError where
  /-- A device key of the wrong length. -/
  | invalidKeyLength (expected got : Nat)
  /-- A share of the wrong length. -/
  | invalidShareLength (expected got : Nat)
  /-- A malformed input. -/
  | malformedInput (cause : MalformedInput)
  /-- An algorithm that is not supported. -/
  | unsupportedAlgorithm (name : String)
  /-- A primitive failed. -/
  | crypto (error : CryptoError)
  /-- A wrong tag. -/
  | authenticationFailed
  /-- An unusable configuration. -/
  | configuration (defect : ConfigurationDefect)
  /-- A text that is not the expected JSON. -/
  | json
  /-- A file that is missing or not text. -/
  | unreadableFile
  /-- All nonces of a device key are used up. -/
  | rekeyRequired
  /-- The backend for homomorphic encryption failed. -/
  | backend (message : String)

namespace ProtocolError

/-- The text of an error. -/
def message : ProtocolError → String
  | .invalidKeyLength expected got =>
    s!"Invalid key length: expected {expected} bytes, got {got}"
  | .invalidShareLength expected got =>
    s!"Invalid share length: expected {expected} bytes, got {got}"
  | .malformedInput cause => "Malformed input: " ++ cause.message
  | .unsupportedAlgorithm name => "Unsupported algorithm: " ++ name
  | .crypto error => "Crypto error: " ++ error.message
  | .authenticationFailed => "Authentication failed: ciphertext or context was modified"
  | .configuration defect => "Invalid configuration: " ++ defect.message
  | .json => "JSON error"
  | .unreadableFile => "I/O error"
  | .rekeyRequired => "Nonce space exhausted: a fresh device key is required"
  | .backend message => "FHE backend error: " ++ message

/-- The protocol's error for a failed primitive. -/
def ofCrypto : CryptoError → ProtocolError
  | .authenticationFailed => .authenticationFailed
  | error => .crypto error

end ProtocolError

end KeySharing
