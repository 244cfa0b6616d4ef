import KeySharing.Context
import KeySharing.Share

/-!
# Analysis requests

A request names its user, its analysis and its data. To make a request, a device shares its key
among the parties: each share is encrypted for one party under the label of the request.

- `Request.context`: the context of a request.
- `Request.encryptShares`: checks the algorithm and the key, exports the three keys, splits the
  secret, encrypts the shares in party order. The first failure ends it, and no ciphertext is left.
- `PartyKeys.assemble`, `PartyKeys.openShare`: the side of a party, which checks its place in the
  list of keys and opens its share.
-/

namespace KeySharing

variable {σ PublicKey PrivateKey SecretKey : Type}

/-- A request for an analysis. -/
structure Request where
  /-- The user whose data it is about. -/
  userId : String
  /-- The analysis. -/
  analysisType : String
  /-- The identifier of the algorithm of the device key. -/
  algorithm : String
  /-- The data. -/
  payload : Payload
  /-- What is shared of the device key. -/
  mode : SharingMode
deriving DecidableEq

namespace Request

/-- The context of a request, once its algorithm is known. -/
def context (request : Request) (algorithm : Algorithm) (recipients : Recipients) : Context :=
  Context.ofRequest request.userId recipients request.payload request.analysisType algorithm

/-- The ciphertexts of the shares of a device key, one for each party. -/
def encryptShares (provider : Provider σ PublicKey PrivateKey SecretKey)
    (random : RandomSource σ) (request : Request) (deviceKey : Bytes)
    (keys : PerParty PublicKey) : Action σ ProtocolError (PerParty Bytes) := do
  let algorithm ← Action.ofExcept (Algorithm.ofIdentifier request.algorithm)
  let secret ← Action.ofExcept (sharedSecret deviceKey algorithm request.mode)
  let exported ← (Recipients.export provider keys).mapError .ofCrypto
  let context := request.context algorithm exported
  let shares ← (Share.split random secret).mapError .ofCrypto
  PerParty.forEach fun party =>
    (provider.encrypt (keys.get party) (context.label (exported.get party))
      (shares.get party).bytes).mapError .ofCrypto

end Request

/-! ## The side of a party -/

/-- What a party needs to open its shares. -/
structure PartyKeys (PrivateKey : Type) where
  /-- Its position. -/
  party : Party
  /-- Its private key. -/
  privateKey : PrivateKey
  /-- The exported keys of all parties. -/
  recipients : Recipients

namespace PartyKeys

/-- The keys of the party with the given index. The public key that belongs to the private key has
to be the one listed for the party. -/
def assemble (provider : Provider σ PublicKey PrivateKey SecretKey) (index : Nat)
    (privateKey : PrivateKey) (ownKey : PublicKey) (keys : PerParty PublicKey) :
    Action σ ProtocolError (PartyKeys PrivateKey) :=
  if h : index < partyCount then do
    let recipients ← (Recipients.export provider keys).mapError .ofCrypto
    let own ← (provider.exportKey ownKey).mapError .ofCrypto
    if recipients.get ⟨index, h⟩ = own then pure ⟨⟨index, h⟩, privateKey, recipients⟩
    else throw (.configuration (.foreignKey index))
  else throw (.configuration (.noSuchParty index partyCount))

/-- The exported key of the party itself. -/
def ownKey (keys : PartyKeys PrivateKey) : Bytes := keys.recipients.get keys.party

/-- The share in a ciphertext that was made for this party and this request. -/
def openShare (provider : Provider σ PublicKey PrivateKey SecretKey) (keys : PartyKeys PrivateKey)
    (request : Request) (ciphertext : Bytes) : Action σ ProtocolError Share := do
  let algorithm ← Action.ofExcept (Algorithm.ofIdentifier request.algorithm)
  let context := request.context algorithm keys.recipients
  let bytes ← (provider.decrypt keys.privateKey (context.label keys.ownKey) ciphertext).mapError
    .ofCrypto
  if bytes.length = request.mode.shareLength then pure ⟨bytes⟩
  else throw (.invalidShareLength request.mode.shareLength bytes.length)

end PartyKeys

end KeySharing
