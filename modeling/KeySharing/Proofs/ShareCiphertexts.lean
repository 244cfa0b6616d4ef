import KeySharing.Proofs.ExportedKeys
import KeySharing.Proofs.Rsa.Encryption
import KeySharing.Request

/-!
# Ciphertexts of shares

What the two sides of the key delivery do, each seen from its run alone. On the side of the device a
success says what every ciphertext is: the padded block of a share, under the label of the request
for that party. On the side of a party the labels and the lengths say what comes of such a
ciphertext. The two sides build their labels on their own; nothing here assumes that they agree.

- `PerParty.forall_or_exists_first`: what does not hold of all parties does not hold of a first one.
- `PerParty.run_forEach_of_ok`, `PerParty.run_forEach_of_error`, `PerParty.exists_of_run_forEach`:
  actions in party order, followed from state to state.
- `length_of_sharedSecret`, `Share.length_of_run_split`: the lengths of secrets and shares.
- `Request.shareLabel`: the label of a party's ciphertext.
- `Request.exists_of_run_encryptShares`: what a success of the device says.
- `PartyKeys.run_openShare_encryptBlock`: what a party makes of the ciphertext of a padded block.
-/

namespace KeySharing

variable {σ τ ε α : Type}

/-! ## Values in party order -/

namespace PerParty

theorem mem_toList_iff {values : PerParty α} {a : α} :
    a ∈ values.toList ↔ ∃ p, values.get p = a := by
  constructor
  · intro h
    simp only [toList, List.mem_cons, List.not_mem_nil, or_false] at h
    rcases h with rfl | rfl | rfl
    · exact ⟨0, rfl⟩
    · exact ⟨1, rfl⟩
    · exact ⟨2, rfl⟩
  · rintro ⟨p, rfl⟩
    exact List.mem_of_getElem? (get?_val values p)

/-- What does not hold of all parties does not hold of a first one. -/
theorem forall_or_exists_first (P : Party → Prop) :
    (∀ p, P p) ∨ ∃ p, (∀ q < p, P q) ∧ ¬ P p := by
  by_cases h : ∀ p, P p
  · exact .inl h
  · obtain ⟨p, hp, hfirst⟩ := WellFounded.has_min (wellFounded_lt (α := Party)) {p | ¬ P p}
      (not_forall.mp h)
    exact .inr ⟨p, fun q hq => not_not.mp fun hnot => hfirst q hnot hq, hp⟩

end PerParty

/-! ## Actions in party order -/

namespace PerParty

variable {action : Party → Action σ ε α}

/-- If the action of each party leads on to the state of the next one, all of them succeed. -/
theorem run_forEach_of_ok {states : Nat → σ} {values : PerParty α}
    (h : ∀ i : Party, (action i).run (states i) = (.ok (values.get i), states (i + 1))) :
    (forEach action).run (states 0) = (.ok values, states 3) := by
  have hfirst : (action 0).run (states 0) = (.ok values.first, states 1) := h 0
  have hsecond : (action 1).run (states 1) = (.ok values.second, states 2) := h 1
  have hthird : (action 2).run (states 2) = (.ok values.third, states 3) := h 2
  rw [forEach, Action.run_bind_of_ok hfirst, Action.run_bind_of_ok hsecond,
    Action.run_bind_of_ok hthird, Action.run_pure]

/-- The first failure ends the actions, in the state it leaves. -/
theorem run_forEach_of_error {states : Nat → σ} {i : Party} {e : ε} {state : σ}
    (hbefore : ∀ j : Party, j < i → ∃ v, (action j).run (states j) = (.ok v, states (j + 1)))
    (hi : (action i).run (states i) = (.error e, state)) :
    (forEach action).run (states 0) = (.error e, state) := by
  rw [forEach]
  match i, hbefore, hi with
  | 0, _, hi => exact Action.run_bind_of_error hi
  | 1, hbefore, hi =>
    obtain ⟨first, hfirst⟩ := hbefore 0 (by decide)
    refine (Action.run_bind_of_ok hfirst).trans ?_
    exact Action.run_bind_of_error hi
  | 2, hbefore, hi =>
    obtain ⟨first, hfirst⟩ := hbefore 0 (by decide)
    obtain ⟨second, hsecond⟩ := hbefore 1 (by decide)
    refine (Action.run_bind_of_ok hfirst).trans ?_
    refine (Action.run_bind_of_ok hsecond).trans ?_
    exact Action.run_bind_of_error hi

/-- Where all actions succeed, each of them does. -/
theorem exists_of_run_forEach {values : PerParty α} {state state' : σ}
    (h : (forEach action).run state = (.ok values, state')) (i : Party) :
    ∃ before after, (action i).run before = (.ok (values.get i), after) := by
  obtain ⟨first, s₁, hfirst, h⟩ := Action.exists_of_run_bind h
  obtain ⟨second, s₂, hsecond, h⟩ := Action.exists_of_run_bind h
  obtain ⟨third, s₃, hthird, h⟩ := Action.exists_of_run_bind h
  rw [Action.run_pure, Prod.mk.injEq, Except.ok.injEq] at h
  rw [← h.1]
  match i with
  | 0 => exact ⟨state, s₁, hfirst⟩
  | 1 => exact ⟨s₁, s₂, hsecond⟩
  | 2 => exact ⟨s₂, s₃, hthird⟩

end PerParty

/-! ## Secrets and shares -/

/-- What is shared is as long as the mode says. -/
theorem length_of_sharedSecret {deviceKey secret : Bytes} {algorithm : Algorithm}
    {mode : SharingMode} (h : sharedSecret deviceKey algorithm mode = .ok secret) :
    secret.length = mode.shareLength := by
  rw [sharedSecret] at h
  split at h
  · rename_i hlength
    cases mode with
    | rawKey =>
      cases h
      cases algorithm
      exact hlength
    | keySchedule =>
      cases h
      exact Aes.KeySchedule.length_toBytes _
  · cases h

/-- There is something to share of every device key of the right length. -/
theorem exists_sharedSecret {deviceKey : Bytes} {algorithm : Algorithm}
    (h : deviceKey.length = algorithm.keyLength) (mode : SharingMode) :
    ∃ secret, sharedSecret deviceKey algorithm mode = .ok secret := by
  rw [sharedSecret, dif_pos h]
  cases mode with
  | rawKey => exact ⟨_, rfl⟩
  | keySchedule => exact ⟨_, rfl⟩

namespace Share

/-- All shares are as long as the secret. -/
theorem length_of_run_split {random : RandomSource σ} {secret : Bytes} {state state' : σ}
    {shares : PerParty Share} (h : (split random secret).run state = (.ok shares, state'))
    (i : Party) : (shares.get i).bytes.length = secret.length := by
  obtain ⟨first, s₁, _, h⟩ := Action.exists_of_run_bind h
  obtain ⟨second, s₂, _, h⟩ := Action.exists_of_run_bind h
  rw [Action.run_pure, Prod.mk.injEq, Except.ok.injEq] at h
  have hfirst := first.property
  have hsecond := second.property
  rw [← h.1]
  match i with
  | 0 => exact hfirst
  | 1 => exact hsecond
  | 2 =>
    show ((secret.xor first.val).xor second.val).length = secret.length
    rw [Bytes.length_xor, Bytes.length_xor, hfirst, hsecond, Nat.min_self, Nat.min_self]

theorem run_splitKey_of_split {random : RandomSource σ} {deviceKey secret : Bytes}
    {algorithm : Algorithm} {mode : SharingMode} {shares : PerParty Share} {state drawn : σ}
    (hsecret : sharedSecret deviceKey algorithm mode = .ok secret)
    (hsplit : (split random secret).run state = (.ok shares, drawn)) :
    (splitKey random deviceKey algorithm mode).run state = (.ok shares, drawn) := by
  rw [splitKey, hsecret, Action.run_bind_of_ok (Action.run_ofExcept _ _)]
  exact Action.run_mapError_eq_ok.mpr hsplit

end Share

/-! ## The side of the device -/

/-- There is one algorithm. -/
theorem Algorithm.eq_aesGcm128 : ∀ algorithm : Algorithm, algorithm = .aesGcm128
  | .aesGcm128 => rfl

/-- The error for a share that does not fit stays an error of the primitives. -/
theorem ProtocolError.ofCrypto_sizeError (modulusLength messageLength : Nat) :
    ofCrypto (Oaep.sizeError modulusLength messageLength) =
      .crypto (Oaep.sizeError modulusLength messageLength) := by
  rw [Oaep.sizeError]
  split <;> rfl

namespace Request

variable {random : RandomSource σ} {blindings : Rsa.Blindings} {request : Request}
  {deviceKey : Bytes} {keys : PerParty Rsa.PublicKey}

/-- The label of a party's ciphertext, as the device makes it. -/
def shareLabel (request : Request) (keys : PerParty Rsa.PublicKey) (party : Party) : Bytes :=
  (request.context .aesGcm128 (keys.map Rsa.PublicKey.toDer)).label (keys.get party).toDer

/-- The encryption of the share of a party. -/
def encryptShare (random : RandomSource σ) (request : Request) (keys : PerParty Rsa.PublicKey)
    (shares : PerParty Share) (party : Party) : Action σ ProtocolError Bytes :=
  (Oaep.encrypt random (keys.get party) (request.shareLabel keys party)
    (shares.get party).bytes).mapError .ofCrypto

/-- Once the algorithm is known, the secret is there and it is split, only the encryption of the
shares is left. -/
theorem run_encryptShares_of_split {secret : Bytes} {shares : PerParty Share} {state drawn : σ}
    (halgorithm : Algorithm.ofIdentifier request.algorithm = .ok .aesGcm128)
    (hsecret : sharedSecret deviceKey .aesGcm128 request.mode = .ok secret)
    (hsplit : (Share.split random secret).run state = (.ok shares, drawn)) :
    (request.encryptShares (.standard random blindings) random deviceKey keys).run state =
      (PerParty.forEach (request.encryptShare random keys shares)).run drawn := by
  have hexport := Recipients.run_export_standard random blindings keys state
  -- every step before the last is a success that is known
  simp only [encryptShares, Action.run_bind, Action.run_ofExcept, Action.run_mapError, halgorithm,
    hsecret, hexport, hsplit, Except.mapError, PerParty.get_map]
  rfl

/-- **What a success of the device says.** The device key was split, every share fits under its
modulus, and every ciphertext is that of a padded block of the share under the party's label. -/
theorem exists_of_run_encryptShares {ciphertexts : PerParty Bytes} {state state' : σ}
    (h : (request.encryptShares (.standard random blindings) random deviceKey keys).run state =
      (.ok ciphertexts, state')) :
    ∃ shares drawn,
      (Share.splitKey random deviceKey .aesGcm128 request.mode).run state = (.ok shares, drawn) ∧
      ∀ i : Party, (shares.get i).bytes.length = request.mode.shareLength ∧
        Oaep.Fits (keys.get i).length (shares.get i).bytes.length ∧
        ∃ seed, ciphertexts.get i = Oaep.encryptBlock (keys.get i)
          (Oaep.pad (keys.get i).length (request.shareLabel keys i) (shares.get i).bytes seed) := by
  have hrun := h
  -- one step of the device after the other
  obtain ⟨algorithm, s₁, halgorithm, h⟩ := Action.exists_of_run_bind h
  obtain ⟨secret, s₂, hsecret, h⟩ := Action.exists_of_run_bind h
  obtain ⟨exported, s₃, hexport, h⟩ := Action.exists_of_run_bind h
  obtain ⟨shares, drawn, hsplit, h⟩ := Action.exists_of_run_bind h
  rw [Action.run_ofExcept, Prod.mk.injEq] at halgorithm hsecret
  rw [Action.run_mapError_eq_ok, Recipients.run_export_standard, Prod.mk.injEq] at hexport
  rw [Action.run_mapError_eq_ok] at hsplit
  obtain ⟨hidentifier, rfl⟩ := halgorithm
  obtain ⟨hsecret, rfl⟩ := hsecret
  obtain rfl := hexport.2
  obtain rfl := algorithm.eq_aesGcm128
  rw [run_encryptShares_of_split hidentifier hsecret hsplit] at hrun
  refine ⟨shares, drawn, Share.run_splitKey_of_split hsecret hsplit, fun i => ?_⟩
  obtain ⟨before, after, hencrypt⟩ := PerParty.exists_of_run_forEach hrun i
  obtain ⟨hfits, seed, hciphertext⟩ :=
    Oaep.exists_of_run_encrypt (Action.run_mapError_eq_ok.mp hencrypt)
  refine ⟨?_, hfits, seed, hciphertext⟩
  rw [Share.length_of_run_split hsplit, length_of_sharedSecret hsecret]

/-- Where the device succeeds, every modulus has room for a share and its padding. -/
theorem fits_of_run_encryptShares {ciphertexts : PerParty Bytes} {state state' : σ}
    (h : (request.encryptShares (.standard random blindings) random deviceKey keys).run state =
      (.ok ciphertexts, state')) (i : Party) :
    Oaep.Fits (keys.get i).length request.mode.shareLength := by
  obtain ⟨shares, drawn, _, hciphertexts⟩ := exists_of_run_encryptShares h
  obtain ⟨hlength, hfits, _⟩ := hciphertexts i
  rwa [hlength] at hfits

end Request

/-! ## The side of a party -/

namespace PartyKeys

/-- The keys of a party can be put together exactly if its own key is the one listed for it. -/
theorem run_assemble_standard (random : RandomSource τ) (blindings : Rsa.Blindings) (i : Party)
    (privateKey : Rsa.PrivateKey) (ownKey : Rsa.PublicKey) (keys : PerParty Rsa.PublicKey)
    (state : τ) :
    (assemble (.standard random blindings) i privateKey ownKey keys).run state =
      (if (keys.get i).toDer = ownKey.toDer then
        .ok ⟨i, privateKey, keys.map Rsa.PublicKey.toDer⟩
      else .error (.configuration (.foreignKey i)), state) := by
  have hexport := Recipients.run_export_standard random blindings keys state
  have hown : ((Provider.standard random blindings).exportKey ownKey).run state =
      (.ok ownKey.toDer, state) := rfl
  have hindex : i.val < partyCount := i.isLt
  rw [assemble, dif_pos hindex, Action.run_bind_of_ok (Action.run_mapError_eq_ok.mpr hexport),
    Action.run_bind_of_ok (Action.run_mapError_eq_ok.mpr hown), PerParty.get_map]
  by_cases h : (keys.get i).toDer = ownKey.toDer
  · rw [if_pos h, if_pos h, Action.run_pure]
  · rw [if_neg h, if_neg h, Action.run_throw]

/-- The label under which a party opens a ciphertext. -/
def openLabel (party : PartyKeys Rsa.PrivateKey) (request : Request) (algorithm : Algorithm) :
    Bytes :=
  (request.context algorithm party.recipients).label party.ownKey

/-- The two sides make the same label if they list the same keys. -/
theorem openLabel_eq_shareLabel {party : PartyKeys Rsa.PrivateKey} {keys : PerParty Rsa.PublicKey}
    {i : Party} (hrecipients : party.recipients = keys.map Rsa.PublicKey.toDer)
    (hown : party.ownKey = (keys.get i).toDer) (request : Request) :
    party.openLabel request .aesGcm128 = request.shareLabel keys i := by
  rw [openLabel, Request.shareLabel, hrecipients, hown]

/-- What a party makes of any ciphertext: decryption under the blinding of the provider decides,
then the length. -/
theorem run_openShare_standard {party : PartyKeys Rsa.PrivateKey} {request : Request}
    {algorithm : Algorithm} (halgorithm : Algorithm.ofIdentifier request.algorithm = .ok algorithm)
    (random : RandomSource τ) (blindings : Rsa.Blindings) (ciphertext : Bytes) (state : τ) :
    (party.openShare (.standard random blindings) request ciphertext).run state =
      (match Oaep.decrypt party.privateKey (party.openLabel request algorithm) ciphertext
          (blindings party.privateKey ciphertext) with
        | .error e => .error (.ofCrypto e)
        | .ok bytes =>
          if bytes.length = request.mode.shareLength then .ok ⟨bytes⟩
          else .error (.invalidShareLength request.mode.shareLength bytes.length), state) := by
  have hdecrypt : ((((Provider.standard random blindings).decrypt party.privateKey
      (party.openLabel request algorithm) ciphertext).mapError .ofCrypto).run state :
        Except ProtocolError Bytes × τ) =
      ((Oaep.decrypt party.privateKey (party.openLabel request algorithm) ciphertext
        (blindings party.privateKey ciphertext)).mapError .ofCrypto, state) := rfl
  rw [openShare, halgorithm, Action.run_bind_of_ok (Action.run_ofExcept _ _)]
  cases h : Oaep.decrypt party.privateKey (party.openLabel request algorithm) ciphertext
      (blindings party.privateKey ciphertext) with
  | error e =>
    rw [h] at hdecrypt
    exact Action.run_bind_of_error hdecrypt
  | ok bytes =>
    rw [h] at hdecrypt
    refine (Action.run_bind_of_ok hdecrypt).trans ?_
    by_cases hlength : bytes.length = request.mode.shareLength
    · rw [if_pos hlength, Action.run_pure]
      simp only [if_pos hlength]
    · rw [if_neg hlength, Action.run_throw]
      simp only [if_neg hlength]

/-- **What a party makes of the ciphertext of a padded block**, by the label it was padded under and
the length of the message. -/
theorem run_openShare_encryptBlock {party : PartyKeys Rsa.PrivateKey} {request : Request}
    {algorithm : Algorithm} {message : Bytes} (hkey : party.privateKey.HasPrimeFactors)
    (halgorithm : Algorithm.ofIdentifier request.algorithm = .ok algorithm)
    (hfits : Oaep.Fits party.privateKey.publicKey.length message.length)
    (random : RandomSource τ) (blindings : Rsa.Blindings) (label : Bytes)
    (seed : SizedBytes digestLength) (state : τ) :
    (party.openShare (.standard random blindings) request
      (Oaep.encryptBlock party.privateKey.publicKey
        (Oaep.pad party.privateKey.publicKey.length label message seed))).run state =
      (if sha256 label ≠ sha256 (party.openLabel request algorithm) then
        .error (.crypto Oaep.decodingError)
      else if message.length ≠ request.mode.shareLength then
        .error (.invalidShareLength request.mode.shareLength message.length)
      else .ok ⟨message⟩, state) := by
  rw [run_openShare_standard halgorithm, Oaep.decrypt_encryptBlock_pad hkey hfits]
  by_cases hdigest : sha256 label = sha256 (party.openLabel request algorithm)
  · rw [if_pos hdigest.symm, if_neg (not_not.mpr hdigest), ite_not]
  · rw [if_neg fun h => hdigest h.symm, if_pos hdigest]
    rfl

end PartyKeys

end KeySharing
