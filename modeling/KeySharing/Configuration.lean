import KeySharing.Fhe.Format
import KeySharing.Json.Value
import KeySharing.Json.Written
import KeySharing.Provider.Standard
import KeySharing.Request

/-!
# Configurations

A configuration is a JSON object with the algorithm, the sharing mode, the PEM texts of the
recipients and the format of encrypted results. Only the recipients are required. Fields that are
not known are skipped; a known one that is given twice or has a value of another form is an error.
An array stands for the four values in order, and the last may be left out.

- `Configuration.ofJson`, `Configuration.ofFile`: the readers.
- `Configuration.toJson`: the compact written form.
- `Configuration.recipientKeys`, `Configuration.partyKeys`: the keys it describes.
-/

namespace KeySharing

/-- The settings of a client. -/
structure Configuration where
  /-- The identifier of the algorithm of device keys. -/
  algorithm : String
  /-- What is shared of a device key. -/
  mode : SharingMode
  /-- The public keys of the parties as PEM texts. -/
  recipients : PerParty String
  /-- The format of encrypted results. -/
  format : Fhe.Format
deriving DecidableEq

/-- The sharing modes by their names. -/
def SharingMode.names : List (String × SharingMode) :=
  [SharingMode.rawKey, .keySchedule].map fun mode => (mode.name, mode)

/-- The formats by their names. -/
def Fhe.Format.names : List (String × Fhe.Format) :=
  [Fhe.Format.binary, .json].map fun format => (format.name, format)

/-- The sharing mode of a JSON text. -/
def SharingMode.ofJson (source : String) : Except ProtocolError SharingMode :=
  match Json.read? (Json.choice SharingMode.names) source with
  | some mode => .ok mode
  | none => .error .json

/-- The format of a JSON text. -/
def Fhe.Format.ofJson (source : String) : Except ProtocolError Fhe.Format :=
  match Json.read? (Json.choice Fhe.Format.names) source with
  | some format => .ok format
  | none => .error .json

namespace Configuration

/-! ## Reading -/

/-- The algorithm of a configuration that names none. -/
def defaultAlgorithm : String := Algorithm.aesGcm128.identifier

/-- The sharing mode of a configuration that names none. -/
def defaultMode : SharingMode := .keySchedule

/-- The format of a configuration that names none. -/
def defaultFormat : Fhe.Format := .json

/-- The fields read so far. -/
structure Fields where
  /-- The algorithm. -/
  algorithm : Option String := none
  /-- The sharing mode. -/
  mode : Option SharingMode := none
  /-- The recipients. -/
  recipients : Option (PerParty String) := none
  /-- The format. -/
  format : Option Fhe.Format := none

/-- The configuration of the fields read. -/
def ofFields? (fields : Fields) : Option Configuration := do
  let recipients ← fields.recipients
  some {
    algorithm := fields.algorithm.getD defaultAlgorithm
    mode := fields.mode.getD defaultMode
    recipients
    format := fields.format.getD defaultFormat }

/-- An array of three texts. -/
def recipientTexts : Json.Reader (PerParty String) := do
  Json.expect .beginArray
  let first ← Json.text
  Json.expect .comma
  let second ← Json.text
  Json.expect .comma
  let third ← Json.text
  Json.expect .endArray
  pure ⟨first, second, third⟩

/-- A field that has not been read before. -/
def once {α : Type} (previous : Option α) (reader : Json.Reader α) : Json.Reader (Option α) :=
  if previous.isSome then failure else some <$> reader

/-- A field and the colon after its name, given those read before. -/
def field (fields : Fields) : Json.Reader Fields := do
  let name ← Json.text
  Json.expect .colon
  if name = "algorithm" then
    let algorithm ← once fields.algorithm Json.text
    pure { fields with algorithm }
  else if name = "sharing_mode" then
    let mode ← once fields.mode (Json.choice SharingMode.names)
    pure { fields with mode }
  else if name = "recipients" then
    let recipients ← once fields.recipients recipientTexts
    pure { fields with recipients }
  else if name = "fhe_format" then
    let format ← once fields.format (Json.choice Fhe.Format.names)
    pure { fields with format }
  else
    Json.skip
    pure fields

/-- At most `count` fields with commas between them, and the end of the object. -/
def moreFields : (count : Nat) → Fields → Json.Reader Fields
  | 0, _ => failure
  | count + 1, fields => do
    let fields ← field fields
    if ← Json.accept .comma then moreFields count fields
    else
      Json.expect .endObject
      pure fields

/-- The fields of an object after its opening brace. -/
def objectFields : Json.Reader Fields := do
  if ← Json.accept .endObject then pure {}
  else
    let tokens ← get
    moreFields tokens.length {}

/-- The values of an array after its opening bracket, of which the last may be missing. -/
def arrayFields : Json.Reader Fields := do
  let algorithm ← Json.text
  Json.expect .comma
  let mode ← Json.choice SharingMode.names
  Json.expect .comma
  let recipients ← recipientTexts
  let format ←
    if ← Json.accept .comma then some <$> Json.choice Fhe.Format.names else pure none
  Json.expect .endArray
  pure { algorithm, mode, recipients, format }

/-- A configuration in either form. -/
def reader : Json.Reader Configuration := do
  if ← Json.accept .beginArray then StateT.lift (ofFields? (← arrayFields))
  else
    Json.expect .beginObject
    StateT.lift (ofFields? (← objectFields))

/-- The configuration of a JSON text. -/
def ofJson (source : String) : Except ProtocolError Configuration :=
  match Json.read? reader source with
  | some configuration => .ok configuration
  | none => .error .json

/-- The configuration in a file, given the bytes of the file if it could be read. -/
def ofFile (content : Option Bytes) : Except ProtocolError Configuration :=
  match content.bind fun bytes => String.fromUTF8? ⟨bytes.toArray⟩ with
  | some source => ofJson source
  | none => .error .unreadableFile

/-! ## Writing -/

/-- The compact JSON text of a configuration. -/
def toJson (configuration : Configuration) : String :=
  let recipients := ",".intercalate (configuration.recipients.toList.map Json.written)
  let fields := [
    ("algorithm", Json.written configuration.algorithm),
    ("sharing_mode", Json.written configuration.mode.name),
    ("recipients", "[" ++ recipients ++ "]"),
    ("fhe_format", Json.written configuration.format.name)]
  "\x7b" ++ ",".intercalate (fields.map fun f => Json.written f.1 ++ ":" ++ f.2) ++ "\x7d"

/-! ## Keys -/

/-- The public key of a PEM text. -/
def readPublicKey (text : String) : Except ProtocolError Rsa.PublicKey :=
  (Rsa.readPublicKey text).mapError .ofCrypto

/-- The public keys of the parties; the first that is malformed is the error. -/
def recipientKeys (configuration : Configuration) :
    Except ProtocolError (PerParty Rsa.PublicKey) :=
  PerParty.forEach fun party => readPublicKey (configuration.recipients.get party)

/-- The keys of the party with the given index and the PEM text of its private key. -/
def partyKeys {σ SecretKey : Type}
    (provider : Provider σ Rsa.PublicKey Rsa.PrivateKey SecretKey)
    (configuration : Configuration) (index : Nat) (privateText : String) :
    Action σ ProtocolError (PartyKeys Rsa.PrivateKey) := do
  let privateKey ← Action.ofExcept ((Rsa.readPrivateKey privateText).mapError .ofCrypto)
  let keys ← Action.ofExcept configuration.recipientKeys
  PartyKeys.assemble provider index privateKey privateKey.publicKey keys

end Configuration

end KeySharing
