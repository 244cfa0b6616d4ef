import KeySharing.Algorithm
import KeySharing.Payload
import KeySharing.PerParty
import KeySharing.Provider.Basic

/-!
# Contexts

A context is the byte string that a share or a result is bound to. It is the concatenation of its
fields in a fixed order, with nothing in between: texts in UTF-8, timestamps as eight bytes from
the least significant on, keys in exported form.

- `Recipients`: the exported keys of the three parties.
- `Context.Field`, `Context.ofFields`: fields and their concatenation.
- `Context.ofRequest`: tag, user, keys, payload, analysis, algorithm.
- `Context.ofCompletion`: user, keys, computation, analysis.
- `Context.label`: a context followed by the key of one party, the label of its ciphertext.
- `Context.deriveNonce`: the first bytes of the digest of a context.
-/

namespace KeySharing

variable {σ PublicKey PrivateKey SecretKey : Type}

/-- The exported keys of the three parties. -/
abbrev Recipients := PerParty Bytes

/-- The exported keys of three public keys; the first failure ends the export. -/
def Recipients.export (provider : Provider σ PublicKey PrivateKey SecretKey)
    (keys : PerParty PublicKey) : Action σ CryptoError Recipients :=
  PerParty.forEach fun party => provider.exportKey (keys.get party)

/-- The bytes a share or a result is bound to. -/
@[ext] structure Context where
  /-- The bytes. -/
  bytes : Bytes
deriving DecidableEq

namespace Context

/-- A timestamp as eight bytes. -/
def timestampBytes (time : UInt64) : Bytes := Bytes.littleEndian 8 time.toNat

/-- The timestamps of a payload. -/
def payloadBytes : Payload → Bytes
  | .indices seconds => seconds.flatMap timestampBytes
  | .range start stop => timestampBytes start ++ timestampBytes stop

/-- A field of a context. -/
inductive Field where
  /-- The tag of a payload. -/
  | tag (t : PayloadTag)
  /-- A text. -/
  | text (t : String)
  /-- Bytes as they are. -/
  | bytes (b : Bytes)
  /-- The keys of the three parties. -/
  | recipients (keys : Recipients)
  /-- A timestamp. -/
  | timestamp (time : UInt64)
  /-- The timestamps of a payload. -/
  | payload (p : Payload)

/-- The bytes of a field. -/
def Field.toBytes : Field → Bytes
  | .tag t => [t.toByte]
  | .text t => Bytes.ofText t
  | .bytes b => b
  | .recipients keys => keys.toList.flatten
  | .timestamp time => timestampBytes time
  | .payload p => payloadBytes p

/-- The context of fields in order. -/
def ofFields (fields : List Field) : Context := ⟨fields.flatMap Field.toBytes⟩

/-- The context of a request. -/
def ofRequest (userId : String) (recipients : Recipients) (payload : Payload)
    (analysisType : String) (algorithm : Algorithm) : Context :=
  ofFields [.tag payload.tag, .text userId, .recipients recipients, .payload payload,
    .text analysisType, .text algorithm.identifier]

/-- The context of a finished computation. -/
def ofCompletion (userId : String) (recipients : Recipients)
    (computationId analysisType : String) : Context :=
  ofFields [.text userId, .recipients recipients, .text computationId, .text analysisType]

/-- The number of bytes. -/
def length (context : Context) : Nat := context.bytes.length

/-- Whether there are no bytes. -/
def isEmpty (context : Context) : Bool := context.bytes.isEmpty

/-- The description of a context, which keeps its bytes to itself. -/
def describe (context : Context) : String :=
  "Context \x7b len: " ++ toString context.length ++ " \x7d"

/-- The label of the ciphertext for the party with the given key. -/
def label (context : Context) (key : Bytes) : Bytes := context.bytes ++ key

/-- The first bytes of a digest. -/
def nonceOfDigest (digest : Digest) : Nonce :=
  ⟨digest.val.take nonceLength, by rw [List.length_take, digest.property]; rfl⟩

/-- The nonce of a context. -/
def deriveNonce (provider : Provider σ PublicKey PrivateKey SecretKey) (context : Context) :
    Action σ CryptoError Nonce := do
  let digest ← provider.digest context.bytes
  pure (nonceOfDigest digest)

@[simp] theorem bytes_ofFields (fields : List Field) :
    (ofFields fields).bytes = fields.flatMap Field.toBytes := rfl

@[simp] theorem length_timestampBytes (time : UInt64) : (timestampBytes time).length = 8 := by
  simp [timestampBytes]

end Context

end KeySharing
