import KeySharing.Context

/-!
# Results of computations

A finished computation is described by its user, its identifier and its analysis. Both sides derive
the nonce and the associated data of the result from this description, so neither is sent.

- `Completion.parameters`: the nonce and the associated data.
- `ResultParameters.sealResult`, `Completion.openResult`: the two sides of the delivery of a result.
-/

namespace KeySharing

variable {σ PublicKey PrivateKey SecretKey : Type}

/-- The description of a finished computation. -/
structure Completion where
  /-- The user whose data it was about. -/
  userId : String
  /-- The computation. -/
  computationId : String
  /-- The analysis. -/
  analysisType : String
deriving DecidableEq

/-- The nonce and the associated data of a result. -/
structure ResultParameters where
  /-- The nonce. -/
  nonce : Nonce
  /-- The associated data. -/
  context : Context

/-- The result under a key and its parameters. -/
def ResultParameters.sealResult (provider : Provider σ PublicKey PrivateKey SecretKey)
    (parameters : ResultParameters) (key : SecretKey) (text : Bytes) :
    Action σ ProtocolError Bytes :=
  (provider.sealText key parameters.nonce parameters.context.bytes text).mapError .ofCrypto

namespace Completion

/-- The context of a finished computation. -/
def context (completion : Completion) (recipients : Recipients) : Context :=
  Context.ofCompletion completion.userId recipients completion.computationId
    completion.analysisType

/-- The nonce and the associated data of the result of a computation. -/
def parameters (provider : Provider σ PublicKey PrivateKey SecretKey) (completion : Completion)
    (recipients : Recipients) : Action σ ProtocolError ResultParameters := do
  let context := completion.context recipients
  let nonce ← (context.deriveNonce provider).mapError .ofCrypto
  pure ⟨nonce, context⟩

/-- The result of a computation in an encrypted form. -/
def openResult (provider : Provider σ PublicKey PrivateKey SecretKey) (completion : Completion)
    (deviceKey : Bytes) (keys : PerParty PublicKey) (blob : Bytes) :
    Action σ ProtocolError Bytes :=
  if blob.length < tagLength then
    throw (.malformedInput (.resultTooShort blob.length tagLength))
  else do
    let key ← (provider.importKey deviceKey).mapError .ofCrypto
    let recipients ← (Recipients.export provider keys).mapError .ofCrypto
    let parameters ← completion.parameters provider recipients
    (provider.openText key parameters.nonce parameters.context.bytes blob).mapError .ofCrypto

end Completion

end KeySharing
