import KeySharing.Proofs.Dialogue
import KeySharing.Proofs.Rsa.Primality
import KeySharing.Proofs.ShareCiphertexts

/-!
# What a device asks for

A device that makes a request has three things done for it: exports of keys, draws of random bytes
and encryptions. Each of them can fail, and its provider and its random source may answer whatever
they like. All of this is in the dialogue of the request: the exports, then the draws, then the
encryptions, in party order. A run goes through it until something fails, so nothing is asked for
after a failure and no ciphertext is left.

- `Request.dialogue`, `Request.encryptShares_eq_hold`: the dialogue, and that the device holds it.
- `Request.exchange`: the eight replies of a complete exchange.
- `Request.encryptShares_fails_closed`: what every run does, and what its first calls depend on.
-/

namespace KeySharing

open Dialogue (Asks Reaches recorded)
open ProviderDialogue (call draw)

variable {σ PublicKey PrivateKey SecretKey : Type}

/-! ## Exports -/

namespace Recipients

/-- The dialogue of the export of the three keys. -/
def dialogue (keys : PerParty PublicKey) :
    ProviderDialogue PublicKey PrivateKey SecretKey Recipients :=
  PerParty.forEach fun party => call (.exportKey (keys.get party))

/-- The replies of the export of the three keys. -/
def exchange (keys : PerParty PublicKey) (exported : Recipients) :
    List (ProviderReply PublicKey PrivateKey SecretKey) :=
  (PerParty.ofParty fun party =>
    ProviderReply.call (.exportKey (keys.get party)) (exported.get party)).toList

theorem asks_dialogue_iff {keys : PerParty PublicKey} {exported : Recipients}
    {replies : List (ProviderReply PublicKey PrivateKey SecretKey)} :
    Asks (dialogue keys) replies exported ↔ replies = exchange keys exported := by
  refine Dialogue.asks_forEach_iff (fun party (bytes : Bytes) =>
    ProviderReply.call (.exportKey (keys.get party)) bytes) ?_
  intro party replies bytes
  exact Dialogue.asks_single_iff

theorem answerable_dialogue (keys : PerParty PublicKey) :
    (dialogue keys : ProviderDialogue PublicKey PrivateKey SecretKey Recipients).Answerable :=
  Dialogue.answerable_forEach fun _ => Dialogue.answerable_single ⟨([] : Bytes)⟩

/-- The export comes to the key of a party after the replies about the keys before it. -/
theorem reaches_dialogue_iff {keys : PerParty PublicKey}
    {before : List (ProviderReply PublicKey PrivateKey SecretKey)}
    {last : Event PublicKey PrivateKey SecretKey} :
    Reaches (dialogue keys) before last ↔ ∃ (party : Party) (exported : Recipients),
      before = (exchange keys exported).take party ∧
        last = .call (.exportKey (keys.get party)) := by
  have : Nonempty Bytes := ⟨[]⟩
  refine Dialogue.reaches_forEach_iff (fun party (bytes : Bytes) =>
    ProviderReply.call (.exportKey (keys.get party)) bytes) _ ?_ ?_
  · intro party replies bytes
    exact Dialogue.asks_single_iff
  · intro party before last
    exact Dialogue.reaches_single_iff

theorem export_eq_hold (provider : Provider σ PublicKey PrivateKey SecretKey)
    (random : RandomSource σ) (keys : PerParty PublicKey) :
    (Recipients.export provider keys).mapError ProtocolError.ofCrypto =
      (dialogue keys).hold (Event.perform provider random) ProtocolError.ofCrypto := by
  rw [dialogue, Dialogue.hold_forEach]
  simp only [Dialogue.hold_single]
  simp only [Recipients.export, PerParty.forEach, Action.mapError_bind]
  rfl

end Recipients

/-- A random source that never fails. -/
def RandomSource.Total (random : RandomSource σ) : Prop :=
  ∀ count s, ∃ bytes s', (random.draw count).run s = (.ok bytes, s')

theorem RandomSource.Total.run_draw_ne_error {random : RandomSource σ} (h : random.Total)
    {count : Nat} {s s' : σ} {e : CryptoError} : (random.draw count).run s ≠ (.error e, s') := by
  obtain ⟨bytes, s'', hdraw⟩ := h count s
  rw [hdraw]
  rintro ⟨⟩

/-- The shares that two draws make of a secret. -/
def Share.ofDraws (secret : Bytes) (first second : SizedBytes secret.length) : PerParty Share :=
  ⟨⟨first.val⟩, ⟨second.val⟩, ⟨(secret.xor first.val).xor second.val⟩⟩

namespace Request

/-! ## Draws and encryptions -/

section
variable (request : Request) (keys : PerParty PublicKey) (exported : Recipients)

/-- The call that encrypts the share of a party. Its label is the context followed by the key of
the party. -/
abbrev encryption (shares : PerParty Share) (party : Party) :
    Call PublicKey PrivateKey SecretKey :=
  .encrypt (keys.get party) ((request.context .aesGcm128 exported).bytes ++ exported.get party)
    (shares.get party).bytes

/-- The dialogue of the encryption of shares. -/
def encryptDialogue (shares : PerParty Share) :
    ProviderDialogue PublicKey PrivateKey SecretKey (PerParty Bytes) :=
  PerParty.forEach fun party => call (request.encryption keys exported shares party)

/-- The replies of the encryption of shares. -/
def encryptExchange (shares : PerParty Share) (ciphertexts : PerParty Bytes) :
    List (ProviderReply PublicKey PrivateKey SecretKey) :=
  (PerParty.ofParty fun party => ProviderReply.call (request.encryption keys exported shares party)
    (ciphertexts.get party)).toList

/-- The dialogue of a request after the exports. -/
def shareDialogue (secret : Bytes) :
    ProviderDialogue PublicKey PrivateKey SecretKey (PerParty Bytes) := do
  let first ← draw secret.length
  let second ← draw secret.length
  request.encryptDialogue keys exported (Share.ofDraws secret first second)

/-- The replies of a request after the exports. -/
def shareExchange (secret : Bytes) (first second : SizedBytes secret.length)
    (ciphertexts : PerParty Bytes) : List (ProviderReply PublicKey PrivateKey SecretKey) :=
  .draw first :: .draw second ::
    request.encryptExchange keys exported (Share.ofDraws secret first second) ciphertexts

end

section
variable {request : Request} {keys : PerParty PublicKey} {exported : Recipients}
  {shares : PerParty Share} {secret : Bytes} {ciphertexts : PerParty Bytes}
  {replies : List (ProviderReply PublicKey PrivateKey SecretKey)}

theorem asks_encryptDialogue_iff :
    Asks (request.encryptDialogue keys exported shares) replies ciphertexts ↔
      replies = request.encryptExchange keys exported shares ciphertexts := by
  refine Dialogue.asks_forEach_iff (fun party (bytes : Bytes) =>
    ProviderReply.call (request.encryption keys exported shares party) bytes) ?_
  intro party replies bytes
  exact Dialogue.asks_single_iff

theorem asks_shareDialogue_iff :
    Asks (request.shareDialogue keys exported secret) replies ciphertexts ↔
      ∃ first second,
        replies = request.shareExchange keys exported secret first second ciphertexts := by
  constructor
  · intro hasks
    rw [shareDialogue, Dialogue.asks_bind_iff] at hasks
    obtain ⟨first, _, _, rfl, hfirst, hasks⟩ := hasks
    obtain ⟨second, _, _, rfl, hsecond, hasks⟩ := Dialogue.asks_bind_iff.mp hasks
    rw [Dialogue.asks_single_iff.mp hfirst, Dialogue.asks_single_iff.mp hsecond,
      asks_encryptDialogue_iff.mp hasks]
    exact ⟨first, second, rfl⟩
  · rintro ⟨first, second, rfl⟩
    refine Dialogue.asks_bind_iff.mpr ⟨first, [_], _, rfl, Dialogue.asks_single_iff.mpr rfl, ?_⟩
    refine Dialogue.asks_bind_iff.mpr ⟨second, [_], _, rfl, Dialogue.asks_single_iff.mpr rfl, ?_⟩
    exact asks_encryptDialogue_iff.mpr rfl

theorem answerable_shareDialogue :
    (request.shareDialogue keys exported secret :
      ProviderDialogue PublicKey PrivateKey SecretKey (PerParty Bytes)).Answerable := by
  have hdraw : ∀ count,
      (draw count : ProviderDialogue PublicKey PrivateKey SecretKey _).Answerable :=
    fun count => Dialogue.answerable_single ⟨List.replicate count 0, List.length_replicate⟩
  refine Dialogue.answerable_bind (hdraw _) fun first => ?_
  refine Dialogue.answerable_bind (hdraw _) fun second => ?_
  exact Dialogue.answerable_forEach fun _ => Dialogue.answerable_single ⟨([] : Bytes)⟩

end

/-- After the exports the device holds the dialogue of the draws and the encryptions. -/
theorem share_eq_hold (provider : Provider σ PublicKey PrivateKey SecretKey)
    (random : RandomSource σ) (request : Request) (keys : PerParty PublicKey)
    (exported : Recipients) (secret : Bytes) :
    ((Share.split random secret).mapError ProtocolError.ofCrypto >>= fun shares =>
      PerParty.forEach fun party =>
        (provider.encrypt (keys.get party)
          ((request.context .aesGcm128 exported).label (exported.get party))
          (shares.get party).bytes).mapError .ofCrypto) =
      (request.shareDialogue keys exported secret).hold (Event.perform provider random)
        .ofCrypto := by
  simp only [shareDialogue, encryptDialogue, Dialogue.hold_bind, Dialogue.hold_forEach,
    Dialogue.hold_single]
  simp only [Share.split, Action.mapError_bind, bind_assoc]
  rfl

/-! ## The whole request -/

/-- The dialogue of a request. -/
def dialogue (request : Request) (keys : PerParty PublicKey) (secret : Bytes) :
    ProviderDialogue PublicKey PrivateKey SecretKey (PerParty Bytes) := do
  let exported ← Recipients.dialogue keys
  request.shareDialogue keys exported secret

/-- The replies of a request: three exports, two draws, three encryptions. An encryption is asked
for with the key of its party, the context followed by what this key was exported to, and the
share. -/
def exchange (request : Request) (keys : PerParty PublicKey) (exported : Recipients)
    (secret : Bytes) (first second : SizedBytes secret.length) (ciphertexts : PerParty Bytes) :
    List (ProviderReply PublicKey PrivateKey SecretKey) :=
  let context := (request.context .aesGcm128 exported).bytes
  let third := (secret.xor first.val).xor second.val
  [.call (.exportKey keys.first) exported.first, .call (.exportKey keys.second) exported.second,
    .call (.exportKey keys.third) exported.third, .draw first, .draw second,
    .call (.encrypt keys.first (context ++ exported.first) first.val) ciphertexts.first,
    .call (.encrypt keys.second (context ++ exported.second) second.val) ciphertexts.second,
    .call (.encrypt keys.third (context ++ exported.third) third) ciphertexts.third]

theorem asks_dialogue_iff {request : Request} {keys : PerParty PublicKey} {secret : Bytes}
    {ciphertexts : PerParty Bytes}
    {replies : List (ProviderReply PublicKey PrivateKey SecretKey)} :
    Asks (request.dialogue keys secret) replies ciphertexts ↔ ∃ exported first second,
      replies = request.exchange keys exported secret first second ciphertexts := by
  rw [dialogue, Dialogue.asks_bind_iff]
  constructor
  · rintro ⟨exported, _, _, rfl, hexports, hshares⟩
    rw [Recipients.asks_dialogue_iff] at hexports
    obtain ⟨first, second, rfl⟩ := asks_shareDialogue_iff.mp hshares
    exact ⟨exported, first, second, hexports ▸ rfl⟩
  · rintro ⟨exported, first, second, rfl⟩
    exact ⟨exported, _, _, rfl, Recipients.asks_dialogue_iff.mpr rfl,
      asks_shareDialogue_iff.mpr ⟨first, second, rfl⟩⟩

theorem answerable_dialogue {request : Request} {keys : PerParty PublicKey} {secret : Bytes} :
    (request.dialogue keys secret :
      ProviderDialogue PublicKey PrivateKey SecretKey (PerParty Bytes)).Answerable :=
  Dialogue.answerable_bind (Recipients.answerable_dialogue keys) fun _ => answerable_shareDialogue

/-- An unsupported algorithm is found before anything else. -/
theorem run_encryptShares_of_unsupported {provider : Provider σ PublicKey PrivateKey SecretKey}
    {random : RandomSource σ} {request : Request} {deviceKey : Bytes} {keys : PerParty PublicKey}
    {s : σ} (h : request.algorithm ≠ Algorithm.aesGcm128.identifier) :
    (request.encryptShares provider random deviceKey keys).run s =
      (.error (.unsupportedAlgorithm request.algorithm), s) := by
  have hidentifier : Algorithm.ofIdentifier request.algorithm =
      .error (.unsupportedAlgorithm request.algorithm) := if_neg h
  rw [encryptShares, hidentifier]
  exact Action.run_bind_of_error (Action.run_ofExcept _ s)

/-- A key of the wrong length is found right after the algorithm. -/
theorem run_encryptShares_of_length_ne {provider : Provider σ PublicKey PrivateKey SecretKey}
    {random : RandomSource σ} {request : Request} {deviceKey : Bytes} {keys : PerParty PublicKey}
    {s : σ} (halgorithm : Algorithm.ofIdentifier request.algorithm = .ok .aesGcm128)
    (h : deviceKey.length ≠ Algorithm.aesGcm128.keyLength) :
    (request.encryptShares provider random deviceKey keys).run s =
      (.error (.invalidKeyLength Algorithm.aesGcm128.keyLength deviceKey.length), s) := by
  have hsecret : sharedSecret deviceKey .aesGcm128 request.mode =
      .error (.invalidKeyLength Algorithm.aesGcm128.keyLength deviceKey.length) := dif_neg h
  rw [encryptShares, halgorithm, Action.run_bind_of_ok (Action.run_ofExcept _ s), hsecret]
  exact Action.run_bind_of_error (Action.run_ofExcept _ s)

section
variable (request : Request) {deviceKey secret : Bytes}
  (halgorithm : Algorithm.ofIdentifier request.algorithm = .ok .aesGcm128)
  (hsecret : sharedSecret deviceKey .aesGcm128 request.mode = .ok secret)
include halgorithm hsecret

/-- With the algorithm and the secret known, the device exports the keys and goes on from there. -/
theorem encryptShares_eq_bind (provider : Provider σ PublicKey PrivateKey SecretKey)
    (random : RandomSource σ) (keys : PerParty PublicKey) :
    request.encryptShares provider random deviceKey keys =
      (Recipients.export provider keys).mapError ProtocolError.ofCrypto >>= fun exported =>
        (request.shareDialogue keys exported secret).hold (Event.perform provider random)
          .ofCrypto := by
  have hpure : ∀ {α : Type} (a : α),
      (Action.ofExcept (.ok a) : Action σ ProtocolError α) = pure a := fun _ => rfl
  rw [encryptShares, halgorithm, hpure, pure_bind, hsecret, hpure, pure_bind]
  refine congrArg _ (funext fun exported => ?_)
  exact share_eq_hold provider random request keys exported secret

theorem encryptShares_eq_hold (provider : Provider σ PublicKey PrivateKey SecretKey)
    (random : RandomSource σ) (keys : PerParty PublicKey) :
    request.encryptShares provider random deviceKey keys =
      (request.dialogue keys secret).hold (Event.perform provider random) .ofCrypto := by
  rw [encryptShares_eq_bind request halgorithm hsecret,
    Recipients.export_eq_hold provider random, dialogue, Dialogue.hold_bind]

theorem encryptShares_recorded_eq_hold (provider : Provider σ PublicKey PrivateKey SecretKey)
    (random : RandomSource σ) (keys : PerParty PublicKey) :
    request.encryptShares provider.recorded random.recorded deviceKey keys =
      (request.dialogue keys secret).hold (recorded (Event.perform provider random))
        .ofCrypto := by
  rw [← Event.perform_recorded, ← encryptShares_eq_hold request halgorithm hsecret]

end

/-- The log changes nothing about a request. -/
theorem run_encryptShares_eq (provider : Provider σ PublicKey PrivateKey SecretKey)
    (random : RandomSource σ) (request : Request) (deviceKey : Bytes) (keys : PerParty PublicKey)
    (state : σ) :
    let run := (request.encryptShares provider.recorded random.recorded deviceKey keys).run
      ⟨state, []⟩
    (request.encryptShares provider random deviceKey keys).run state = (run.1, run.2.state) := by
  intro run
  by_cases halgorithm : request.algorithm = Algorithm.aesGcm128.identifier
  · have hidentifier : Algorithm.ofIdentifier request.algorithm = .ok .aesGcm128 :=
      if_pos halgorithm
    by_cases hlength : deviceKey.length = Algorithm.aesGcm128.keyLength
    · obtain ⟨secret, hsecret⟩ := exists_sharedSecret hlength request.mode
      have hrun : run = ((request.dialogue keys secret).hold
          (recorded (Event.perform provider random)) .ofCrypto).run ⟨state, []⟩ := by
        rw [← encryptShares_recorded_eq_hold request hidentifier hsecret]
      rw [hrun, encryptShares_eq_hold request hidentifier hsecret]
      exact Dialogue.run_hold_recorded _ state []
    · have hrun : run = _ := run_encryptShares_of_length_ne hidentifier hlength
      rw [hrun, run_encryptShares_of_length_ne hidentifier hlength]
  · have hrun : run = _ := run_encryptShares_of_unsupported halgorithm
    rw [hrun, run_encryptShares_of_unsupported halgorithm]

/-! ## The first calls -/

/-- A call without the message of an encryption. -/
def withoutMessage : Call PublicKey PrivateKey SecretKey → Call PublicKey PrivateKey SecretKey
  | .encrypt key label _ => .encrypt key label []
  | c => c

/-- The calls of a log up to the first encryption: the first four calls, without messages. -/
def firstCalls (log : List (Event PublicKey PrivateKey SecretKey)) :
    List (Call PublicKey PrivateKey SecretKey) :=
  ((log.filterMap Event.call?).take 4).map withoutMessage

/-- The four calls up to the first encryption, for exported keys. -/
def expectedCalls (request : Request) (keys : PerParty PublicKey) (exported : Recipients) :
    List (Call PublicKey PrivateKey SecretKey) :=
  [.exportKey keys.first, .exportKey keys.second, .exportKey keys.third,
    .encrypt keys.first ((request.context .aesGcm128 exported).bytes ++ exported.first) []]

theorem firstCalls_of_run_share {provider : Provider σ PublicKey PrivateKey SecretKey}
    {random : RandomSource σ} {request : Request} {keys : PerParty PublicKey}
    {exported : Recipients} {secret : Bytes} {s : σ}
    {log : List (Event PublicKey PrivateKey SecretKey)}
    (hlog : log = (Recipients.exchange keys exported).map Reply.event) :
    let run := ((request.shareDialogue keys exported secret).hold
      (recorded (Event.perform provider random)) ProtocolError.ofCrypto).run ⟨s, log⟩
    let expected := expectedCalls request keys exported
    (firstCalls run.2.events = expected ∨ firstCalls run.2.events = expected.take 3) ∧
      (random.Total → firstCalls run.2.events = expected) := by
  intro run expected
  subst hlog
  rcases hrun : run with ⟨outcome, record⟩
  cases outcome with
  | ok ciphertexts =>
    obtain ⟨replies, last, hasks, -, rfl⟩ := Dialogue.run_hold_eq_ok_iff.mp hrun
    obtain ⟨first, second, rfl⟩ := asks_shareDialogue_iff.mp hasks
    exact ⟨.inl rfl, fun _ => rfl⟩
  | error e =>
    obtain ⟨before, reply, later, ciphertexts, s', cause, last, hasks, -, hfails, -, rfl⟩ :=
      (Dialogue.run_hold_eq_error_iff answerable_shareDialogue).mp hrun
    obtain ⟨first, second, hreplies⟩ := asks_shareDialogue_iff.mp hasks
    -- a draw that fails, or else the first encryption is among the events
    rcases before with _ | ⟨b₀, _ | ⟨b₁, _ | ⟨b₂, rest⟩⟩⟩
    · cases hreplies
      exact ⟨.inr rfl, fun htotal => absurd hfails htotal.run_draw_ne_error⟩
    · cases hreplies
      exact ⟨.inr rfl, fun htotal => absurd hfails htotal.run_draw_ne_error⟩
    · cases hreplies
      exact ⟨.inl rfl, fun _ => rfl⟩
    · injection hreplies with h₀ hreplies
      injection hreplies with h₁ hreplies
      injection hreplies with h₂ hreplies
      subst h₀ h₁ h₂
      exact ⟨.inl rfl, fun _ => rfl⟩

/-- The first calls come from the provider, the keys and the named parts of the request: neither the
mode nor the device key nor the random source has a say in them, except that a failing draw cuts
them off before the first encryption. -/
theorem exists_expectedCalls (provider : Provider σ PublicKey PrivateKey SecretKey)
    {request : Request} (halgorithm : Algorithm.ofIdentifier request.algorithm = .ok .aesGcm128)
    (keys : PerParty PublicKey) (state : σ) :
    ∃ expected, ∀ (mode : SharingMode) (deviceKey : SizedBytes 16) (random : RandomSource σ),
      let first := firstCalls ((encryptShares provider.recorded random.recorded
        { request with mode := mode } deviceKey.val keys).run ⟨state, []⟩).2.events
      (first = expected ∨ first = expected.take 3) ∧ (random.Total → first = expected) := by
  -- the mode and the device key only matter after the exports
  have hshared : ∀ (mode : SharingMode) (deviceKey : SizedBytes 16), ∃ secret,
      ∀ random : RandomSource σ,
        encryptShares provider.recorded random.recorded { request with mode := mode } deviceKey.val
          keys = (Recipients.export provider.recorded keys).mapError ProtocolError.ofCrypto >>=
            fun exported => (request.shareDialogue keys exported secret).hold
              (recorded (Event.perform provider random)) .ofCrypto := by
    intro mode deviceKey
    have hlength : deviceKey.val.length = Algorithm.aesGcm128.keyLength := deviceKey.property
    obtain ⟨secret, hsecret⟩ := exists_sharedSecret hlength mode
    refine ⟨secret, fun random => ?_⟩
    rw [← Event.perform_recorded]
    exact encryptShares_eq_bind { request with mode := mode } halgorithm hsecret _ _ keys
  rcases hexport : ((Recipients.export provider.recorded keys).mapError ProtocolError.ofCrypto).run
    ⟨state, []⟩ with ⟨outcome, record⟩
  cases outcome with
  | error e =>
    refine ⟨firstCalls record.events, fun mode deviceKey random => ?_⟩
    obtain ⟨secret, hrun⟩ := hshared mode deviceKey
    rw [hrun random, Action.run_bind_of_error hexport]
    exact ⟨.inl rfl, fun _ => rfl⟩
  | ok exported =>
    refine ⟨expectedCalls request keys exported, fun mode deviceKey random => ?_⟩
    obtain ⟨secret, hrun⟩ := hshared mode deviceKey
    rw [hrun random, Action.run_bind_of_ok hexport]
    rw [Recipients.export_eq_hold _ random.recorded, Event.perform_recorded,
      Dialogue.run_hold_eq_ok_iff] at hexport
    obtain ⟨replies, last, hasks, -, rfl⟩ := hexport
    obtain rfl := Recipients.asks_dialogue_iff.mp hasks
    exact firstCalls_of_run_share rfl

/-! ## What every run does -/

/-- **A request fails closed.** An unsupported algorithm and then a key of the wrong length are
found before anything is asked for. Otherwise the device goes through the exports, the two draws and
the encryptions, each under the bytes of the context followed by the exported key. If all eight are
answered, the ciphertexts are the answers to the encryptions; the first one that fails is the last
one asked for, and its error is the outcome. Up to the first encryption the calls do not depend on
the mode, the device key or the random source, but for the message of that encryption. -/
theorem encryptShares_fails_closed (provider : Provider σ PublicKey PrivateKey SecretKey)
    (random : RandomSource σ) (request : Request) (deviceKey : Bytes) (keys : PerParty PublicKey)
    (state : σ) :
    let run := (request.encryptShares provider.recorded random.recorded deviceKey keys).run
      ⟨state, []⟩
    (request.encryptShares provider random deviceKey keys).run state = (run.1, run.2.state) ∧
    (request.algorithm ≠ "AES-GCM-128" →
      run = (.error (.unsupportedAlgorithm request.algorithm), ⟨state, []⟩)) ∧
    (request.algorithm = "AES-GCM-128" → deviceKey.length ≠ 16 →
      run = (.error (.invalidKeyLength 16 deviceKey.length), ⟨state, []⟩)) ∧
    (request.algorithm = "AES-GCM-128" → deviceKey.length = 16 →
      ∃ secret, sharedSecret deviceKey .aesGcm128 request.mode = .ok secret ∧
        secret.length = request.mode.shareLength ∧
        (∀ ciphertexts record, run = (.ok ciphertexts, record) ↔
          ∃ exported first second last,
            Performed (Event.perform provider random)
              (request.exchange keys exported secret first second ciphertexts) state last ∧
            record = ⟨last, (request.exchange keys exported secret first second ciphertexts).map
              Reply.event⟩) ∧
        (∀ e record, run = (.error e, record) ↔
          ∃ exported first second ciphertexts before reply later s cause last,
            request.exchange keys exported secret first second ciphertexts =
              before ++ reply :: later ∧
            Performed (Event.perform provider random) before state s ∧
            (reply.event.perform provider random).run s = (.error cause, last) ∧
            e = .ofCrypto cause ∧ record = ⟨last, (before ++ [reply]).map Reply.event⟩)) ∧
    (request.algorithm = "AES-GCM-128" →
      ∃ expected, ∀ (mode : SharingMode) (anyKey : SizedBytes 16) (source : RandomSource σ),
        let first := firstCalls ((encryptShares provider.recorded source.recorded
          { request with mode := mode } anyKey.val keys).run ⟨state, []⟩).2.events
        (first = expected ∨ first = expected.take 3) ∧ (source.Total → first = expected)) := by
  intro run
  have hidentifier : request.algorithm = "AES-GCM-128" →
      Algorithm.ofIdentifier request.algorithm = .ok .aesGcm128 := fun h => if_pos h
  refine ⟨run_encryptShares_eq provider random request deviceKey keys state,
    run_encryptShares_of_unsupported, fun h => run_encryptShares_of_length_ne (hidentifier h), ?_,
    fun h => exists_expectedCalls provider (hidentifier h) keys state⟩
  intro halgorithm hlength
  have hkey : deviceKey.length = Algorithm.aesGcm128.keyLength := hlength
  obtain ⟨secret, hsecret⟩ := exists_sharedSecret hkey request.mode
  have hrun : run = ((request.dialogue keys secret).hold
      (recorded (Event.perform provider random)) .ofCrypto).run ⟨state, []⟩ := by
    rw [← encryptShares_recorded_eq_hold request (hidentifier halgorithm) hsecret]
  refine ⟨secret, hsecret, length_of_sharedSecret hsecret, ?_, ?_⟩
  -- all eight are answered
  · intro ciphertexts record
    rw [hrun, Dialogue.run_hold_eq_ok_iff]
    constructor
    · rintro ⟨replies, last, hasks, hperformed, rfl⟩
      obtain ⟨exported, first, second, rfl⟩ := asks_dialogue_iff.mp hasks
      exact ⟨exported, first, second, last, hperformed, rfl⟩
    · rintro ⟨exported, first, second, last, hperformed, rfl⟩
      exact ⟨_, last, asks_dialogue_iff.mpr ⟨exported, first, second, rfl⟩, hperformed, rfl⟩
  -- one of them fails
  · intro e record
    rw [hrun, Dialogue.run_hold_eq_error_iff answerable_dialogue]
    constructor
    · rintro ⟨before, reply, later, ciphertexts, s, cause, last, hasks, hrest⟩
      obtain ⟨exported, first, second, hreplies⟩ := asks_dialogue_iff.mp hasks
      exact ⟨exported, first, second, ciphertexts, before, reply, later, s, cause, last,
        hreplies.symm, hrest⟩
    · rintro ⟨exported, first, second, ciphertexts, before, reply, later, s, cause, last, hreplies,
        hrest⟩
      exact ⟨before, reply, later, ciphertexts, s, cause, last,
        asks_dialogue_iff.mpr ⟨exported, first, second, hreplies.symm⟩, hrest⟩

/-- A tape that ends in the second draw leaves five events and no encryption. One that has room for
both shares and three seeds leaves eight, and three ciphertexts. -/
theorem encryptShares_fails_closed_certified :
    let key := Rsa.PrivateKey.certified.publicKey
    let keys := PerParty.ofParty fun _ => key
    let request : Request := ⟨"user", "Heartbeat", "AES-GCM-128", .indices [0, 60], .rawKey⟩
    let label := (request.context .aesGcm128 (PerParty.ofParty fun _ => key.toDer)).bytes ++
      key.toDer
    let run script := (request.encryptShares (Provider.standard Tape.source).recorded
      Tape.source.recorded (List.replicate 16 7) keys).run ⟨⟨script⟩, []⟩
    run (List.replicate 31 0) =
      (.error (.crypto (.randomFailed "scripted source exhausted")), ⟨⟨List.replicate 15 0⟩,
        [.call (.exportKey key), .call (.exportKey key), .call (.exportKey key), .draw 16,
          .draw 16]⟩) ∧
    ∃ ciphertexts,
      run (List.replicate 16 1 ++ (List.replicate 16 2 ++ List.replicate 96 0)) =
        (.ok ciphertexts, ⟨⟨[]⟩,
          [.call (.exportKey key), .call (.exportKey key), .call (.exportKey key), .draw 16,
            .draw 16, .call (.encrypt key label (List.replicate 16 1)),
            .call (.encrypt key label (List.replicate 16 2)),
            .call (.encrypt key label (List.replicate 16 4))]⟩) := by
  intro key keys request label run
  have hlength : key.length = 96 := Rsa.PrivateKey.length_certified
  -- the length is all that matters about the key
  clear_value key
  have hholds (script : Bytes) := encryptShares_fails_closed (.standard Tape.source) Tape.source
    request (List.replicate 16 7) keys ⟨script⟩
  constructor
  · obtain ⟨secret, hsecret, -, -, herror⟩ := (hholds (List.replicate 31 0)).2.2.2.1 rfl rfl
    cases hsecret
    refine (herror _ _).mpr ⟨PerParty.ofParty fun _ => key.toDer, ⟨List.replicate 16 0, rfl⟩,
      ⟨List.replicate 16 0, rfl⟩, PerParty.ofParty fun _ => [],
      List.replicate 3 (ProviderReply.call (.exportKey key) key.toDer) ++
        [ProviderReply.draw ⟨List.replicate 16 0, rfl⟩],
      ProviderReply.draw ⟨List.replicate 16 0, rfl⟩, _, ⟨List.replicate 15 0⟩, _, _, rfl, ?_, rfl,
      rfl, rfl⟩
    exact .cons rfl (.cons rfl (.cons rfl (.cons rfl (.nil _))))
  · obtain ⟨secret, hsecret, -, hok, -⟩ := (hholds
      (List.replicate 16 1 ++ (List.replicate 16 2 ++ List.replicate 96 0))).2.2.2.1 rfl rfl
    cases hsecret
    -- every encryption takes the next seed of zeros
    have hencrypt (message : Bytes) (hmessage : message.length = 16) (count : Nat) :
        ∃ ciphertext, (Oaep.encrypt Tape.source key label message).run
          ⟨List.replicate (32 + count) 0⟩ = (.ok ciphertext, ⟨List.replicate count 0⟩) := by
      rw [List.replicate_add]
      refine ⟨_, Oaep.run_encrypt_of_fits ?_
        (Tape.run_draw_append ⟨List.replicate 32 0, rfl⟩ _) label⟩
      rw [hmessage, hlength]
      decide
    obtain ⟨first, hfirst⟩ := hencrypt (List.replicate 16 1) rfl 64
    obtain ⟨second, hsecond⟩ := hencrypt (List.replicate 16 2) rfl 32
    obtain ⟨third, hthird⟩ := hencrypt (List.replicate 16 4) rfl 0
    refine ⟨⟨first, second, third⟩, (hok _ _).mpr ⟨PerParty.ofParty fun _ => key.toDer,
      ⟨List.replicate 16 1, rfl⟩, ⟨List.replicate 16 2, rfl⟩, ⟨[]⟩, ?_, rfl⟩⟩
    refine .cons rfl (.cons rfl (.cons rfl ?_))
    refine .cons (Tape.run_draw_append ⟨List.replicate 16 1, rfl⟩ _) ?_
    refine .cons (Tape.run_draw_append ⟨List.replicate 16 2, rfl⟩ _) ?_
    exact .cons hfirst (.cons hsecond (.cons hthird (.nil _)))

end Request

end KeySharing
