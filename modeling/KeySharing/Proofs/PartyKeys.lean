import KeySharing.Configuration
import KeySharing.Proofs.KeyDelivery
import KeySharing.Proofs.RequestExchange

/-!
# The place of a party

A party gets its keys from a configuration, its index and its private key as a text. Its place is
checked by comparing exported keys. That comparison is as good as comparing moduli and exponents,
wherever the two keys were read from, so the keys of a party always stand in its place. Its own key
is then there to be found by the index, and the label it opens its ciphertexts with is the one that
the device makes for the same place.

- `Configuration.Reads`: the keys in the texts of a configuration.
- `Configuration.run_partyKeys_eq_ok_iff`, `Configuration.run_partyKeys_eq_error_iff`: when a party
  gets its keys, and which error it gets otherwise.
- `PartyKeys.openShareAt`: opening a share with the own key looked up by its index.
- `Request.encryptions_of_run`: the keys and the labels that the device encrypts with.
- `Configuration.partyKeys_belong`: all of this together.
-/

namespace KeySharing

open Dialogue (recorded)

variable {σ ε α PublicKey PrivateKey SecretKey : Type}

/-! ## Outcomes for each party -/

namespace PerParty

variable {outcome : Party → Except ε α}

theorem forEach_of_ok {values : PerParty α} (h : ∀ p, outcome p = .ok (values.get p)) :
    forEach outcome = .ok values := by
  rw [forEach, h 0, h 1, h 2]
  rfl

theorem forEach_of_error {p : Party} {e : ε} (hbefore : ∀ q < p, ∃ a, outcome q = .ok a)
    (h : outcome p = .error e) : forEach outcome = .error e := by
  match p, hbefore, h with
  | 0, _, h =>
    rw [forEach, h]
    rfl
  | 1, hbefore, h =>
    obtain ⟨first, hfirst⟩ := hbefore 0 (by decide)
    rw [forEach, hfirst, h]
    rfl
  | 2, hbefore, h =>
    obtain ⟨first, hfirst⟩ := hbefore 0 (by decide)
    obtain ⟨second, hsecond⟩ := hbefore 1 (by decide)
    rw [forEach, hfirst, hsecond, h]
    rfl

/-- Either there is a value for every party, or there is a first party with an error. -/
theorem exists_values_or_error (outcome : Party → Except ε α) :
    (∃ values : PerParty α, ∀ p, outcome p = .ok (values.get p)) ∨
      ∃ p e, (∀ q < p, ∃ a, outcome q = .ok a) ∧ outcome p = .error e := by
  rcases forall_or_exists_first fun p => ∃ a, outcome p = .ok a with h | ⟨p, hbefore, hp⟩
  · choose value hvalue using h
    exact .inl ⟨ofParty value, fun p => by rw [get_ofParty, hvalue]⟩
  · cases hout : outcome p with
    | ok a => exact absurd ⟨a, hout⟩ hp
    | error e => exact .inr ⟨p, e, hbefore, hout⟩

theorem forEach_eq_ok_iff {values : PerParty α} :
    forEach outcome = .ok values ↔ ∀ p, outcome p = .ok (values.get p) := by
  refine ⟨fun h => ?_, forEach_of_ok⟩
  obtain ⟨values', hvalues⟩ | ⟨p, e, hbefore, hp⟩ := exists_values_or_error outcome
  · rw [forEach_of_ok hvalues] at h
    cases h
    exact hvalues
  · rw [forEach_of_error hbefore hp] at h
    cases h

/-- The error is that of the first party that has one. -/
theorem forEach_eq_error_iff {e : ε} :
    forEach outcome = .error e ↔
      ∃ p, (∀ q < p, ∃ a, outcome q = .ok a) ∧ outcome p = .error e := by
  refine ⟨fun h => ?_, fun ⟨p, hbefore, hp⟩ => forEach_of_error hbefore hp⟩
  obtain ⟨values, hvalues⟩ | ⟨p, e', hbefore, hp⟩ := exists_values_or_error outcome
  · rw [forEach_of_ok hvalues] at h
    cases h
  · rw [forEach_of_error hbefore hp] at h
    cases h
    exact ⟨p, hbefore, hp⟩

end PerParty

/-! ## Putting the keys of a party together -/

namespace Configuration

variable {configuration : Configuration} {index : Nat} {privateText : String}
  {random : RandomSource σ} {blindings : Rsa.Blindings} {state : σ}

/-- The texts of a configuration hold these keys. -/
def Reads (configuration : Configuration) (keys : PerParty Rsa.PublicKey) : Prop :=
  ∀ p, Rsa.PublicKey.ofPem (configuration.recipients.get p) = .ok (keys.get p)

/-- The text of a party holds no key, and those of the parties before it hold one. -/
def Misreads (configuration : Configuration) (p : Party) (defect : KeyDefect) : Prop :=
  (∀ q < p, ∃ key, Rsa.PublicKey.ofPem (configuration.recipients.get q) = .ok key) ∧
    Rsa.PublicKey.ofPem (configuration.recipients.get p) = .error defect

theorem readPublicKey_eq_ok_iff {text : String} {key : Rsa.PublicKey} :
    readPublicKey text = .ok key ↔ Rsa.PublicKey.ofPem text = .ok key := by
  rw [readPublicKey, mapError_eq_ok_iff, Rsa.readPublicKey, mapError_eq_ok_iff]

theorem readPublicKey_eq_error_iff {text : String} {e : ProtocolError} :
    readPublicKey text = .error e ↔ ∃ defect, Rsa.PublicKey.ofPem text = .error defect ∧
      e = .crypto (.malformedPublicKey defect) := by
  rw [readPublicKey, mapError_eq_error_iff]
  constructor
  · rintro ⟨cause, hread, rfl⟩
    obtain ⟨defect, hdefect, rfl⟩ := mapError_eq_error_iff.mp hread
    exact ⟨defect, hdefect, rfl⟩
  · rintro ⟨defect, hdefect, rfl⟩
    exact ⟨_, mapError_eq_error_iff.mpr ⟨defect, hdefect, rfl⟩, rfl⟩

theorem recipientKeys_eq_ok_iff {keys : PerParty Rsa.PublicKey} :
    configuration.recipientKeys = .ok keys ↔ configuration.Reads keys := by
  rw [recipientKeys, PerParty.forEach_eq_ok_iff]
  exact forall_congr' fun _ => readPublicKey_eq_ok_iff

theorem recipientKeys_eq_error_iff {e : ProtocolError} :
    configuration.recipientKeys = .error e ↔ ∃ p defect, configuration.Misreads p defect ∧
      e = .crypto (.malformedPublicKey defect) := by
  rw [recipientKeys, PerParty.forEach_eq_error_iff]
  simp only [readPublicKey_eq_ok_iff, readPublicKey_eq_error_iff, Misreads]
  constructor
  · rintro ⟨p, hbefore, defect, hdefect, rfl⟩
    exact ⟨p, defect, ⟨hbefore, hdefect⟩, rfl⟩
  · rintro ⟨p, defect, ⟨hbefore, hdefect⟩, rfl⟩
    exact ⟨p, hbefore, defect, hdefect, rfl⟩

/-- With both texts read, the place of the party decides. -/
theorem partyKeys_eq_assemble {privateKey : Rsa.PrivateKey} {keys : PerParty Rsa.PublicKey}
    (hprivate : Rsa.PrivateKey.ofPem privateText = .ok privateKey)
    (hkeys : configuration.Reads keys) :
    (configuration.partyKeys (.standard random blindings) index privateText).run state =
      (PartyKeys.assemble (.standard random blindings) index privateKey privateKey.publicKey
        keys).run state := by
  rw [partyKeys, Rsa.readPrivateKey, hprivate, recipientKeys_eq_ok_iff.mpr hkeys]
  refine (Action.run_bind_of_ok (Action.run_ofExcept (.ok privateKey) _)).trans ?_
  exact Action.run_bind_of_ok (Action.run_ofExcept _ _)

theorem run_partyKeys_of_le {privateKey : Rsa.PrivateKey} {keys : PerParty Rsa.PublicKey}
    (hprivate : Rsa.PrivateKey.ofPem privateText = .ok privateKey)
    (hkeys : configuration.Reads keys) (hindex : 3 ≤ index) :
    (configuration.partyKeys (.standard random blindings) index privateText).run state =
      (.error (.configuration (.noSuchParty index 3)), state) := by
  rw [partyKeys_eq_assemble hprivate hkeys, PartyKeys.assemble,
    dif_neg (Nat.not_lt.mpr hindex : ¬ index < partyCount), Action.run_throw]
  rfl

/-- The keys of a party are put together exactly if the key listed for it has the numbers of its
private key. -/
theorem run_partyKeys_of_lt {privateKey : Rsa.PrivateKey} {keys : PerParty Rsa.PublicKey}
    (hprivate : Rsa.PrivateKey.ofPem privateText = .ok privateKey)
    (hkeys : configuration.Reads keys) (hindex : index < 3) :
    (configuration.partyKeys (.standard random blindings) index privateText).run state =
      (if (keys.get ⟨index, hindex⟩).modulus = privateKey.publicKey.modulus ∧
          (keys.get ⟨index, hindex⟩).exponent = privateKey.publicKey.exponent then
        .ok ⟨⟨index, hindex⟩, privateKey, keys.map Rsa.PublicKey.toDer⟩
      else .error (.configuration (.foreignKey index)), state) := by
  have hassemble := PartyKeys.run_assemble_standard random blindings ⟨index, hindex⟩ privateKey
    privateKey.publicKey keys state
  rw [partyKeys_eq_assemble hprivate hkeys, hassemble]
  simp only [Rsa.PublicKey.toDer_inj]

theorem run_partyKeys_of_private_error {defect : KeyDefect}
    (hprivate : Rsa.PrivateKey.ofPem privateText = .error defect) :
    (configuration.partyKeys (.standard random blindings) index privateText).run state =
      (.error (.crypto (.malformedPrivateKey defect)), state) := by
  rw [partyKeys, Rsa.readPrivateKey, hprivate]
  exact Action.run_bind_of_error (Action.run_ofExcept _ _)

theorem run_partyKeys_of_recipients_error {privateKey : Rsa.PrivateKey} {p : Party}
    {defect : KeyDefect} (hprivate : Rsa.PrivateKey.ofPem privateText = .ok privateKey)
    (hkeys : configuration.Misreads p defect) :
    (configuration.partyKeys (.standard random blindings) index privateText).run state =
      (.error (.crypto (.malformedPublicKey defect)), state) := by
  rw [partyKeys, Rsa.readPrivateKey, hprivate,
    recipientKeys_eq_error_iff.mpr ⟨p, defect, hkeys, rfl⟩]
  refine (Action.run_bind_of_ok (Action.run_ofExcept (.ok privateKey) _)).trans ?_
  exact Action.run_bind_of_error (Action.run_ofExcept _ _)

/-- The texts either hold all keys, or there is a first one that does not. -/
theorem exists_reading (configuration : Configuration) :
    (∃ keys, configuration.Reads keys) ∨ ∃ p defect, configuration.Misreads p defect := by
  obtain ⟨keys, hkeys⟩ | ⟨p, defect, hbefore, hp⟩ := PerParty.exists_values_or_error
    fun p => Rsa.PublicKey.ofPem (configuration.recipients.get p)
  · exact .inl ⟨keys, hkeys⟩
  · exact .inr ⟨p, defect, hbefore, hp⟩

theorem Reads.unique {keys keys' : PerParty Rsa.PublicKey} (h : configuration.Reads keys)
    (h' : configuration.Reads keys') : keys = keys' := by
  refine PerParty.get_inj.mp fun p => ?_
  exact Except.ok.inj ((h p).symm.trans (h' p))

/-- The texts, the index and the numbers of the keys, in the order in which they are looked at. -/
theorem exists_situation (configuration : Configuration) (index : Nat) (privateText : String) :
    (∃ defect, Rsa.PrivateKey.ofPem privateText = .error defect) ∨
      ∃ privateKey, Rsa.PrivateKey.ofPem privateText = .ok privateKey ∧
        ((∃ p defect, configuration.Misreads p defect) ∨
          ∃ keys, configuration.Reads keys ∧ (3 ≤ index ∨ ∃ h : index < 3,
            ((keys.get ⟨index, h⟩).modulus = privateKey.publicKey.modulus ∧
              (keys.get ⟨index, h⟩).exponent = privateKey.publicKey.exponent) ∨
            ¬ ((keys.get ⟨index, h⟩).modulus = privateKey.publicKey.modulus ∧
              (keys.get ⟨index, h⟩).exponent = privateKey.publicKey.exponent))) := by
  cases hprivate : Rsa.PrivateKey.ofPem privateText with
  | error defect => exact .inl ⟨defect, rfl⟩
  | ok privateKey =>
    refine .inr ⟨privateKey, rfl, ?_⟩
    obtain ⟨keys, hkeys⟩ | hmisread := configuration.exists_reading
    · refine .inr ⟨keys, hkeys, ?_⟩
      rcases Nat.lt_or_ge index 3 with hindex | hindex
      · exact .inr ⟨hindex, Decidable.em _⟩
      · exact .inl hindex
    · exact .inl hmisread

theorem run_partyKeys_eq_ok_iff {party : PartyKeys Rsa.PrivateKey} {after : σ} :
    (configuration.partyKeys (.standard random blindings) index privateText).run state =
        (.ok party, after) ↔
      after = state ∧ ∃ privateKey keys, ∃ h : index < 3,
        Rsa.PrivateKey.ofPem privateText = .ok privateKey ∧ configuration.Reads keys ∧
        ((keys.get ⟨index, h⟩).modulus = privateKey.publicKey.modulus ∧
          (keys.get ⟨index, h⟩).exponent = privateKey.publicKey.exponent) ∧
        party = ⟨⟨index, h⟩, privateKey, keys.map Rsa.PublicKey.toDer⟩ := by
  constructor
  · intro hrun
    obtain ⟨defect, hprivate⟩ | ⟨privateKey, hprivate, ⟨p, defect, hkeys⟩ |
      ⟨keys, hkeys, hindex | ⟨hindex, hnumbers | hnumbers⟩⟩⟩ :=
      configuration.exists_situation index privateText
    · rw [run_partyKeys_of_private_error hprivate] at hrun
      cases hrun
    · rw [run_partyKeys_of_recipients_error hprivate hkeys] at hrun
      cases hrun
    · rw [run_partyKeys_of_le hprivate hkeys hindex] at hrun
      cases hrun
    · rw [run_partyKeys_of_lt hprivate hkeys hindex, if_pos hnumbers] at hrun
      cases hrun
      exact ⟨rfl, privateKey, keys, hindex, hprivate, hkeys, hnumbers, rfl⟩
    · rw [run_partyKeys_of_lt hprivate hkeys hindex, if_neg hnumbers] at hrun
      cases hrun
  · rintro ⟨rfl, privateKey, keys, hindex, hprivate, hkeys, hnumbers, rfl⟩
    rw [run_partyKeys_of_lt hprivate hkeys hindex, if_pos hnumbers]

theorem run_partyKeys_eq_error_iff {e : ProtocolError} {after : σ} :
    (configuration.partyKeys (.standard random blindings) index privateText).run state =
        (.error e, after) ↔
      after = state ∧
        ((∃ defect, Rsa.PrivateKey.ofPem privateText = .error defect ∧
            e = .crypto (.malformedPrivateKey defect)) ∨
          ∃ privateKey, Rsa.PrivateKey.ofPem privateText = .ok privateKey ∧
            ((∃ p defect, configuration.Misreads p defect ∧
                e = .crypto (.malformedPublicKey defect)) ∨
              ∃ keys, configuration.Reads keys ∧
                (3 ≤ index ∧ e = .configuration (.noSuchParty index 3) ∨
                  ∃ h : index < 3,
                    ¬ ((keys.get ⟨index, h⟩).modulus = privateKey.publicKey.modulus ∧
                      (keys.get ⟨index, h⟩).exponent = privateKey.publicKey.exponent) ∧
                    e = .configuration (.foreignKey index)))) := by
  constructor
  · intro hrun
    obtain ⟨defect, hprivate⟩ | ⟨privateKey, hprivate, ⟨p, defect, hkeys⟩ |
      ⟨keys, hkeys, hindex | ⟨hindex, hnumbers | hnumbers⟩⟩⟩ :=
      configuration.exists_situation index privateText
    · rw [run_partyKeys_of_private_error hprivate] at hrun
      cases hrun
      exact ⟨rfl, .inl ⟨defect, hprivate, rfl⟩⟩
    · rw [run_partyKeys_of_recipients_error hprivate hkeys] at hrun
      cases hrun
      exact ⟨rfl, .inr ⟨privateKey, hprivate, .inl ⟨p, defect, hkeys, rfl⟩⟩⟩
    · rw [run_partyKeys_of_le hprivate hkeys hindex] at hrun
      cases hrun
      exact ⟨rfl, .inr ⟨privateKey, hprivate, .inr ⟨keys, hkeys, .inl ⟨hindex, rfl⟩⟩⟩⟩
    · rw [run_partyKeys_of_lt hprivate hkeys hindex, if_pos hnumbers] at hrun
      cases hrun
    · rw [run_partyKeys_of_lt hprivate hkeys hindex, if_neg hnumbers] at hrun
      cases hrun
      exact ⟨rfl, .inr ⟨privateKey, hprivate,
        .inr ⟨keys, hkeys, .inr ⟨hindex, hnumbers, rfl⟩⟩⟩⟩
  · rintro ⟨rfl, ⟨defect, hprivate, rfl⟩ | ⟨privateKey, hprivate, ⟨p, defect, hkeys, rfl⟩ |
      ⟨keys, hkeys, ⟨hindex, rfl⟩ | ⟨hindex, hnumbers, rfl⟩⟩⟩⟩
    · exact run_partyKeys_of_private_error hprivate
    · exact run_partyKeys_of_recipients_error hprivate hkeys
    · exact run_partyKeys_of_le hprivate hkeys hindex
    · rw [run_partyKeys_of_lt hprivate hkeys hindex, if_neg hnumbers]

end Configuration

/-! ## The own key of a party -/

theorem ProtocolError.ofCrypto_ne_configuration {cause : CryptoError}
    {defect : ConfigurationDefect} : ofCrypto cause ≠ .configuration defect := by
  cases cause <;> rintro ⟨⟩

namespace PartyKeys

/-- The share in a ciphertext, with the own key looked up by its index among the exported ones. A
key that is missing is the given error. -/
def openShareAt (provider : Provider σ PublicKey PrivateKey SecretKey) (missing : ProtocolError)
    (index : Nat) (privateKey : PrivateKey) (recipients : Recipients) (request : Request)
    (ciphertext : Bytes) : Action σ ProtocolError Share := do
  let algorithm ← Action.ofExcept (Algorithm.ofIdentifier request.algorithm)
  let context := request.context algorithm recipients
  match recipients.get? index with
  | none => throw missing
  | some own =>
    let bytes ← (provider.decrypt privateKey (context.label own) ciphertext).mapError .ofCrypto
    if bytes.length = request.mode.shareLength then pure ⟨bytes⟩
    else throw (.invalidShareLength request.mode.shareLength bytes.length)

/-- A party always finds its own key. -/
theorem openShareAt_eq (provider : Provider σ PublicKey PrivateKey SecretKey)
    (missing : ProtocolError) (party : PartyKeys PrivateKey) (request : Request)
    (ciphertext : Bytes) :
    openShareAt provider missing party.party party.privateKey party.recipients request ciphertext =
      party.openShare provider request ciphertext := by
  simp only [openShareAt, PerParty.get?_val]
  rfl

/-- Opening a share never finds fault with the configuration. -/
theorem run_openShare_ne_configuration {provider : Provider σ PublicKey PrivateKey SecretKey}
    {party : PartyKeys PrivateKey} {request : Request} {ciphertext : Bytes} {state after : σ}
    {defect : ConfigurationDefect} :
    (party.openShare provider request ciphertext).run state ≠
      (.error (.configuration defect), after) := by
  intro h
  rw [openShare, Action.run_bind_eq_error_iff] at h
  obtain h | ⟨algorithm, s, -, h⟩ := h
  · rw [Action.run_ofExcept, Algorithm.ofIdentifier] at h
    split at h
    · cases h
    · cases h
  rw [Action.run_bind_eq_error_iff] at h
  obtain h | ⟨bytes, s', -, h⟩ := h
  · rw [Action.run_mapError, Prod.mk.injEq, mapError_eq_error_iff] at h
    obtain ⟨⟨cause, -, hcause⟩, -⟩ := h
    exact ProtocolError.ofCrypto_ne_configuration hcause.symm
  · split at h
    · cases h
    · cases h

/-- The one call of a party that opens a share: the decryption under its label. -/
theorem run_openShare_recorded (provider : Provider σ Rsa.PublicKey Rsa.PrivateKey SecretKey)
    (party : PartyKeys Rsa.PrivateKey) {request : Request} {algorithm : Algorithm}
    (halgorithm : Algorithm.ofIdentifier request.algorithm = .ok algorithm) (ciphertext : Bytes)
    (state : σ) :
    ((party.openShare provider.recorded request ciphertext).run ⟨state, []⟩).2.events =
      [.call (.decrypt party.privateKey (party.openLabel request algorithm) ciphertext)] := by
  rw [openLabel]
  generalize hlabel : (request.context algorithm party.recipients).label party.ownKey = label
  have hrecorded : ((provider.recorded.decrypt party.privateKey label ciphertext).mapError
      ProtocolError.ofCrypto).run ⟨state, []⟩ =
        (((provider.decrypt party.privateKey label ciphertext).run state).1.mapError .ofCrypto,
          ⟨((provider.decrypt party.privateKey label ciphertext).run state).2,
            [.call (.decrypt party.privateKey label ciphertext)]⟩) := rfl
  simp only [openShare, halgorithm, Action.run_bind, Action.run_ofExcept, hlabel, hrecorded]
  -- what comes of the answer leaves the log alone
  cases ((provider.decrypt party.privateKey label ciphertext).run state).1 with
  | error cause => rfl
  | ok bytes =>
    simp only [Except.mapError]
    split
    · rfl
    · rfl

end PartyKeys

/-! ## The labels of the device -/

/-- The key and the label of an event, if it is an encryption. -/
def Event.encryption? : Event PublicKey PrivateKey SecretKey → Option (PublicKey × Bytes)
  | .call (.encrypt key label _) => some (key, label)
  | _ => none

namespace Request

/-- The keys and the labels of the encryptions in a log. -/
def encryptions (log : List (Event PublicKey PrivateKey SecretKey)) : List (PublicKey × Bytes) :=
  log.filterMap Event.encryption?

/-- The keys and the labels of the ciphertexts of a request. -/
def shareLabels (request : Request) (keys : PerParty Rsa.PublicKey) :
    PerParty (Rsa.PublicKey × Bytes) :=
  PerParty.ofParty fun party => (keys.get party, request.shareLabel keys party)

section
variable {random : RandomSource σ} {blindings : Rsa.Blindings} {request : Request}
  {keys : PerParty Rsa.PublicKey} {state : σ}

/-- After the exports, the encryptions are the first ones of those for all parties, and all of them
in case of a success. -/
theorem encryptions_of_run_share {secret : Bytes}
    {log : List (Event Rsa.PublicKey Rsa.PrivateKey Aes.Key)} (hlog : encryptions log = []) :
    let run := ((request.shareDialogue keys (keys.map Rsa.PublicKey.toDer) secret).hold
      (recorded (Event.perform (.standard random blindings) random)) ProtocolError.ofCrypto).run
        ⟨state, log⟩
    encryptions run.2.events <+: (request.shareLabels keys).toList ∧
      ∀ ciphertexts, run.1 = .ok ciphertexts →
        encryptions run.2.events = (request.shareLabels keys).toList := by
  intro run
  have hafter (events : List (Event Rsa.PublicKey Rsa.PrivateKey Aes.Key)) :
      encryptions (log ++ events) = encryptions events := by
    rw [encryptions, List.filterMap_append, ← encryptions, hlog, List.nil_append, encryptions]
  have hexchange (first second : SizedBytes secret.length) (ciphertexts : PerParty Bytes) :
      encryptions ((request.shareExchange keys (keys.map Rsa.PublicKey.toDer) secret first second
        ciphertexts : List (ProviderReply Rsa.PublicKey Rsa.PrivateKey Aes.Key)).map Reply.event) =
          (request.shareLabels keys).toList := rfl
  rcases hrun : run with ⟨outcome, record⟩
  cases outcome with
  | ok ciphertexts =>
    obtain ⟨replies, last, hasks, -, rfl⟩ := Dialogue.run_hold_eq_ok_iff.mp hrun
    obtain ⟨first, second, rfl⟩ := asks_shareDialogue_iff.mp hasks
    rw [hafter, hexchange]
    exact ⟨List.prefix_rfl, fun _ _ => rfl⟩
  | error e =>
    obtain ⟨before, reply, later, ciphertexts, s', cause, last, hasks, -, -, -, rfl⟩ :=
      (Dialogue.run_hold_eq_error_iff answerable_shareDialogue).mp hrun
    obtain ⟨first, second, hreplies⟩ := asks_shareDialogue_iff.mp hasks
    have hfront : before ++ [reply] <+: request.shareExchange keys
        (keys.map Rsa.PublicKey.toDer) secret first second ciphertexts :=
      ⟨later, by rw [← hreplies, List.append_assoc, List.singleton_append]⟩
    rw [hafter, ← hexchange first second ciphertexts]
    exact ⟨(hfront.map Reply.event).filterMap Event.encryption?, fun _ hok => nomatch hok⟩

/-- **What the device encrypts with.** Every run encrypts for the parties in order, each under its
label, and a success says that it got to the last one. -/
theorem encryptions_of_run (random : RandomSource σ) (blindings : Rsa.Blindings)
    (request : Request) (deviceKey : Bytes) (keys : PerParty Rsa.PublicKey) (state : σ) :
    let run := (request.encryptShares (Provider.standard random blindings).recorded
      random.recorded deviceKey keys).run ⟨state, []⟩
    encryptions run.2.events <+: (request.shareLabels keys).toList ∧
      ∀ ciphertexts, run.1 = .ok ciphertexts →
        encryptions run.2.events = (request.shareLabels keys).toList := by
  intro run
  by_cases halgorithm : request.algorithm = Algorithm.aesGcm128.identifier
  · by_cases hlength : deviceKey.length = Algorithm.aesGcm128.keyLength
    · obtain ⟨secret, hsecret⟩ := exists_sharedSecret hlength request.mode
      have hexport : ((Recipients.export (Provider.standard random blindings).recorded
          keys).mapError ProtocolError.ofCrypto).run ⟨state, []⟩ =
            (.ok (keys.map Rsa.PublicKey.toDer), ⟨state, [.call (.exportKey keys.first),
              .call (.exportKey keys.second), .call (.exportKey keys.third)]⟩) := rfl
      have hrun : run = ((request.shareDialogue keys (keys.map Rsa.PublicKey.toDer) secret).hold
          (recorded (Event.perform (.standard random blindings) random)) ProtocolError.ofCrypto).run
            ⟨state, [.call (.exportKey keys.first), .call (.exportKey keys.second),
              .call (.exportKey keys.third)]⟩ := by
        rw [← Event.perform_recorded]
        exact (congrArg (Action.run · _) (encryptShares_eq_bind request (if_pos halgorithm) hsecret
          _ _ keys)).trans (Action.run_bind_of_ok hexport)
      rw [hrun]
      exact encryptions_of_run_share rfl
    · have hrun : run = _ := run_encryptShares_of_length_ne (if_pos halgorithm) hlength
      rw [hrun]
      exact ⟨List.nil_prefix, fun _ hok => nomatch hok⟩
  · have hrun : run = _ := run_encryptShares_of_unsupported halgorithm
    rw [hrun]
    exact ⟨List.nil_prefix, fun _ hok => nomatch hok⟩

end

end Request

/-! ## The place of a party -/

namespace Request

/-- The encryption at the place of a party is made with its key and its label. -/
theorem encryption_at (random : RandomSource σ) (blindings : Rsa.Blindings) (request : Request)
    (deviceKey : Bytes) (keys : PerParty Rsa.PublicKey) (state : σ) (party : Party) :
    let run := (request.encryptShares (Provider.standard random blindings).recorded
      random.recorded deviceKey keys).run ⟨state, []⟩
    (∀ found, (encryptions run.2.events)[party.val]? = some found →
        found = (keys.get party, request.shareLabel keys party)) ∧
      ∀ ciphertexts, run.1 = .ok ciphertexts →
        (encryptions run.2.events)[party.val]? =
          some (keys.get party, request.shareLabel keys party) := by
  intro run
  obtain ⟨hfront, hall⟩ := encryptions_of_run random blindings request deviceKey keys state
  have hplace : (request.shareLabels keys).toList[party.val]? =
      some (keys.get party, request.shareLabel keys party) := by
    rw [← PerParty.get?, PerParty.get?_val, shareLabels, PerParty.get_ofParty]
  constructor
  · intro found hfound
    obtain ⟨hlt, hget⟩ := List.getElem?_eq_some_iff.mp hfound
    have hlisted := List.prefix_iff_getElem?.mp hfront party.val hlt
    rw [hplace] at hlisted
    rw [← hget, Option.some.inj hlisted]
  · intro ciphertexts hok
    rw [hall ciphertexts hok, hplace]

end Request

/-- **The keys of a party belong to its place.** A party gets its keys exactly if its private key
and all listed keys can be read, there is such a party, and the key listed for it has the modulus
and the exponent of its private key; otherwise the first of these that fails is the error. Its own
key is then always found, so opening a share never finds fault with the configuration, and it
decrypts under the label that the device encrypts with at the same place. -/
theorem Configuration.partyKeys_belong (configuration : Configuration) (index : Nat)
    (privateText : String) (random : RandomSource σ) (blindings : Rsa.Blindings) (state : σ) :
    let run := (configuration.partyKeys (.standard random blindings) index privateText).run state
    (∀ party after, run = (.ok party, after) ↔
      after = state ∧ ∃ privateKey keys, ∃ h : index < 3,
        Rsa.PrivateKey.ofPem privateText = .ok privateKey ∧ configuration.Reads keys ∧
        ((keys.get ⟨index, h⟩).modulus = privateKey.publicKey.modulus ∧
          (keys.get ⟨index, h⟩).exponent = privateKey.publicKey.exponent) ∧
        party = ⟨⟨index, h⟩, privateKey, keys.map Rsa.PublicKey.toDer⟩) ∧
    (∀ e after, run = (.error e, after) ↔
      after = state ∧
        ((∃ defect, Rsa.PrivateKey.ofPem privateText = .error defect ∧
            e = .crypto (.malformedPrivateKey defect)) ∨
          ∃ privateKey, Rsa.PrivateKey.ofPem privateText = .ok privateKey ∧
            ((∃ p defect, configuration.Misreads p defect ∧
                e = .crypto (.malformedPublicKey defect)) ∨
              ∃ keys, configuration.Reads keys ∧
                (3 ≤ index ∧ e = .configuration (.noSuchParty index 3) ∨
                  ∃ h : index < 3,
                    ¬ ((keys.get ⟨index, h⟩).modulus = privateKey.publicKey.modulus ∧
                      (keys.get ⟨index, h⟩).exponent = privateKey.publicKey.exponent) ∧
                    e = .configuration (.foreignKey index))))) ∧
    ∀ party after keys, run = (.ok party, after) → configuration.Reads keys →
      ∀ (request : Request) (ciphertext : Bytes),
        (∀ (τ SecretKey : Type) (provider : Provider τ Rsa.PublicKey Rsa.PrivateKey SecretKey),
          (∀ missing, PartyKeys.openShareAt provider missing index party.privateKey
              party.recipients request ciphertext = party.openShare provider request ciphertext) ∧
            ∀ s defect s', (party.openShare provider request ciphertext).run s ≠
              (.error (.configuration defect), s')) ∧
        (request.algorithm = "AES-GCM-128" → ∃ label,
          (∀ (τ SecretKey : Type) (provider : Provider τ Rsa.PublicKey Rsa.PrivateKey SecretKey)
              (s : τ),
            ((party.openShare provider.recorded request ciphertext).run ⟨s, []⟩).2.events =
              [.call (.decrypt party.privateKey label ciphertext)]) ∧
          ∀ (τ : Type) (source : RandomSource τ) (blindings' : Rsa.Blindings) (deviceKey : Bytes)
              (s : τ),
            let made := (request.encryptShares (Provider.standard source blindings').recorded
              source.recorded deviceKey keys).run ⟨s, []⟩
            (∀ found, (Request.encryptions made.2.events)[index]? = some found →
                found = (keys.get party.party, label)) ∧
              ∀ ciphertexts, made.1 = .ok ciphertexts →
                (Request.encryptions made.2.events)[index]? =
                  some (keys.get party.party, label)) := by
  intro run
  refine ⟨fun party after => run_partyKeys_eq_ok_iff, fun e after => run_partyKeys_eq_error_iff, ?_⟩
  intro party after keys hrun hkeys request ciphertext
  obtain ⟨-, privateKey, keys', hindex, -, hkeys', -, rfl⟩ := run_partyKeys_eq_ok_iff.mp hrun
  obtain rfl := hkeys'.unique hkeys
  refine ⟨fun τ SecretKey provider => ⟨fun missing => ?_, fun s defect s' => ?_⟩,
    fun halgorithm => ?_⟩
  · exact PartyKeys.openShareAt_eq provider missing _ request ciphertext
  · exact PartyKeys.run_openShare_ne_configuration
  · have hown : PartyKeys.ownKey
        ⟨⟨index, hindex⟩, privateKey, keys'.map Rsa.PublicKey.toDer⟩ =
          (keys'.get ⟨index, hindex⟩).toDer := PerParty.get_map _ _ _
    have hlabel := PartyKeys.openLabel_eq_shareLabel rfl hown request
    refine ⟨request.shareLabel keys' ⟨index, hindex⟩, fun τ SecretKey provider s => ?_,
      fun τ source blindings' deviceKey s => ?_⟩
    · rw [PartyKeys.run_openShare_recorded provider _ (if_pos halgorithm), hlabel]
    · exact Request.encryption_at source blindings' request deviceKey keys' s ⟨index, hindex⟩

/-- Three parties with one key: the second place is there and the fourth one is not, and what the
second party decrypts with is what the device encrypts with. -/
theorem Configuration.partyKeys_belong_certified :
    let key := Rsa.PrivateKey.certified
    let keys := PerParty.ofParty fun _ => key.publicKey
    let configuration : Configuration :=
      ⟨"AES-GCM-128", .rawKey, PerParty.ofParty fun _ => key.publicKey.toPem, .json⟩
    let request : Request := ⟨"user", "Heartbeat", "AES-GCM-128", .range 0 60, .rawKey⟩
    let party : PartyKeys Rsa.PrivateKey := ⟨1, key, keys.map Rsa.PublicKey.toDer⟩
    (configuration.partyKeys (.standard Tape.source) 1 key.toPem).run ⟨[]⟩ =
      (.ok party, ⟨[]⟩) ∧
    (configuration.partyKeys (.standard Tape.source) 3 key.toPem).run ⟨[]⟩ =
      (.error (.configuration (.noSuchParty 3 3)), ⟨[]⟩) ∧
    ∃ label,
      ((party.openShare (Provider.standard Tape.source).recorded request []).run
        ⟨⟨[]⟩, []⟩).2.events = [.call (.decrypt key label [])] ∧
      (Request.encryptions ((request.encryptShares (Provider.standard Tape.source).recorded
        Tape.source.recorded (List.replicate 16 7) keys).run
          ⟨⟨List.replicate 128 0⟩, []⟩).2.events)[1]? = some (key.publicKey, label) := by
  intro key keys configuration request party
  have hkeys : configuration.Reads keys := fun
    | 0 => Rsa.PrivateKey.ofPem_publicKey_certified
    | 1 => Rsa.PrivateKey.ofPem_publicKey_certified
    | 2 => Rsa.PrivateKey.ofPem_publicKey_certified
  have hprivate : Rsa.PrivateKey.ofPem key.toPem = .ok key := Rsa.PrivateKey.ofPem_certified
  obtain ⟨hok, -, hplace⟩ := partyKeys_belong configuration 1 key.toPem Tape.source .two ⟨[]⟩
  obtain ⟨-, herror, -⟩ := partyKeys_belong configuration 3 key.toPem Tape.source .two ⟨[]⟩
  have hparty : (configuration.partyKeys (.standard Tape.source) 1 key.toPem).run ⟨[]⟩ =
      (.ok party, ⟨[]⟩) :=
    (hok _ _).mpr ⟨rfl, key, keys, by decide, hprivate, hkeys, ⟨rfl, rfl⟩, rfl⟩
  obtain ⟨label, hopen, hdevice⟩ := (hplace _ _ _ hparty hkeys request []).2 rfl
  refine ⟨hparty, ?_, label, hopen _ _ _ _, ?_⟩
  · exact (herror _ _).mpr ⟨rfl, .inr ⟨key, hprivate, .inr ⟨keys, hkeys, .inl ⟨by decide, rfl⟩⟩⟩⟩
  · have hcreate : ∃ ciphertexts left, (request.encryptShares (.standard Tape.source) Tape.source
        (List.replicate 16 7) keys).run ⟨List.replicate 128 0⟩ = (.ok ciphertexts, left) :=
      Request.exists_run_encryptShares_certified rfl rfl
    obtain ⟨ciphertexts, left, hcreate⟩ := hcreate
    rw [Request.run_encryptShares_eq, Prod.mk.injEq] at hcreate
    have hlabel := (hdevice _ Tape.source .two (List.replicate 16 7) ⟨List.replicate 128 0⟩).2
      ciphertexts hcreate.1
    rwa [PerParty.get_ofParty] at hlabel

end KeySharing
