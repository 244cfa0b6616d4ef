import KeySharing.Provider.Basic
import KeySharing.Random

/-!
# Recorded providers

To say in which order a protocol step uses its provider and its random source, both are run on a
state that also keeps a log. Every call and every draw is noted, with its arguments, before it is
made; a plan may make a call fail in place of the provider.

- `Call`, `Event`: what is noted.
- `Recorded σ E`: a state with its log.
- `Provider.recorded`, `Provider.recordedWith`: the provider that keeps the log, without and with
  planned failures.
- `RandomSource.recorded`: the random source that keeps the log.
-/

namespace KeySharing

variable {σ ε α E PublicKey PrivateKey SecretKey : Type}

/-- One use of a provider. -/
inductive Call (PublicKey PrivateKey SecretKey : Type) where
  /-- Export of a public key. -/
  | exportKey (key : PublicKey)
  /-- Import of a symmetric key. -/
  | importKey (raw : Bytes)
  /-- Public-key encryption. -/
  | encrypt (key : PublicKey) (label message : Bytes)
  /-- Public-key decryption. -/
  | decrypt (key : PrivateKey) (label ciphertext : Bytes)
  /-- A digest. -/
  | digest (data : Bytes)
  /-- Authenticated encryption. -/
  | sealText (key : SecretKey) (nonce : Nonce) (aad text : Bytes)
  /-- Authenticated decryption. -/
  | openText (key : SecretKey) (nonce : Nonce) (aad blob : Bytes)

/-- The kinds of calls. -/
inductive Call.Kind where
  | exportKey
  | importKey
  | encrypt
  | decrypt
  | digest
  | sealText
  | openText
deriving DecidableEq

/-- The kind of a call. -/
def Call.kind : Call PublicKey PrivateKey SecretKey → Call.Kind
  | .exportKey .. => .exportKey
  | .importKey .. => .importKey
  | .encrypt .. => .encrypt
  | .decrypt .. => .decrypt
  | .digest .. => .digest
  | .sealText .. => .sealText
  | .openText .. => .openText

/-- An entry of the log of a protocol step. -/
inductive Event (PublicKey PrivateKey SecretKey : Type) where
  /-- The provider was called. -/
  | call (c : Call PublicKey PrivateKey SecretKey)
  /-- Random bytes were drawn. -/
  | draw (count : Nat)

/-- The call of an entry, if it is one. -/
def Event.call? : Event PublicKey PrivateKey SecretKey → Option (Call PublicKey PrivateKey SecretKey)
  | .call c => some c
  | .draw _ => none

/-- A state with a log of events, oldest first. -/
structure Recorded (σ E : Type) where
  /-- The state proper. -/
  state : σ
  /-- The events so far. -/
  events : List E

/-- The action preceded by a note in the log. If the plan has a failure for the event after the
events so far, the action is not run and fails so. -/
def Action.recordedWith (plan : List E → E → Option ε) (event : E) (action : Action σ ε α) :
    Action (Recorded σ E) ε α :=
  Action.ofRun fun record =>
    let events := record.events ++ [event]
    match plan record.events event with
    | some failure => (.error failure, ⟨record.state, events⟩)
    | none =>
      let (outcome, state) := action.run record.state
      (outcome, ⟨state, events⟩)

/-- The plan without failures. -/
def noFailures (_ : List E) (_ : E) : Option ε := none

/-- The provider that notes every call in the log and fails as the plan says. -/
def Provider.recordedWith
    (plan : List (Event PublicKey PrivateKey SecretKey) → Event PublicKey PrivateKey SecretKey →
      Option CryptoError)
    (provider : Provider σ PublicKey PrivateKey SecretKey) :
    Provider (Recorded σ (Event PublicKey PrivateKey SecretKey)) PublicKey PrivateKey SecretKey where
  exportKey key := (provider.exportKey key).recordedWith plan (.call (.exportKey key))
  importKey raw := (provider.importKey raw).recordedWith plan (.call (.importKey raw))
  encrypt key label message :=
    (provider.encrypt key label message).recordedWith plan (.call (.encrypt key label message))
  decrypt key label ciphertext :=
    (provider.decrypt key label ciphertext).recordedWith plan
      (.call (.decrypt key label ciphertext))
  digest data := (provider.digest data).recordedWith plan (.call (.digest data))
  sealText key nonce aad text :=
    (provider.sealText key nonce aad text).recordedWith plan (.call (.sealText key nonce aad text))
  openText key nonce aad blob :=
    (provider.openText key nonce aad blob).recordedWith plan (.call (.openText key nonce aad blob))

/-- The provider that notes every call in the log. -/
def Provider.recorded (provider : Provider σ PublicKey PrivateKey SecretKey) :
    Provider (Recorded σ (Event PublicKey PrivateKey SecretKey)) PublicKey PrivateKey SecretKey :=
  provider.recordedWith noFailures

/-- The random source that notes every draw in the log. -/
def RandomSource.recorded (random : RandomSource σ) :
    RandomSource (Recorded σ (Event PublicKey PrivateKey SecretKey)) where
  draw count := (random.draw count).recordedWith noFailures (.draw count)

end KeySharing
