import KeySharing.Proofs.Rsa.Primality
import KeySharing.Proofs.ShareCiphertexts

/-!
# Delivery of a device key

A device shares its key among three parties, and each party opens its share. The random bytes are
taken from a tape, so what is drawn is known down to the byte: twice the length of the secret for
the shares, then one seed for each party. Whether the device succeeds is decided by the lengths of
the moduli alone, and if it does, the parties hold exactly the shares that the tape gave, which make
up the secret again.

- `Share.ofTape`: the shares of a secret that a tape gives; they combine to the secret
  (`Share.combine_ofTape`).
- `Request.tapeBefore`, `Request.tapeSeed`: the tape before the share of a party is encrypted, and
  the seed that is drawn for it.
- `Request.exists_run_encryptShares_tape`, `Request.run_encryptShares_tape_of_not_fits`: how the
  device ends, and with which ciphertexts.
- `Request.run_assemble_openShare`: what a party finds.
- `Request.delivery`: the two sides together.
-/

namespace KeySharing

variable {σ : Type}

/-! ## Shares from a tape -/

namespace Share

/-- The shares of a secret that a tape gives: its first bytes, the ones after them, and what makes
up the secret. -/
def ofTape (secret script : Bytes) : PerParty Share :=
  let first := script.take secret.length
  let second := (script.drop secret.length).take secret.length
  ⟨⟨first⟩, ⟨second⟩, ⟨(secret.xor first).xor second⟩⟩

variable {secret script : Bytes}

theorem run_split_tape (h : 2 * secret.length ≤ script.length) :
    (split Tape.source secret).run ⟨script⟩ =
      (.ok (ofTape secret script), ⟨script.drop (2 * secret.length)⟩) := by
  have hfirst : secret.length ≤ script.length := by omega
  have hsecond : secret.length ≤ (script.drop secret.length).length := by
    rw [List.length_drop]
    omega
  rw [split, Action.run_bind_of_ok (Tape.run_draw_of_le hfirst),
    Action.run_bind_of_ok (Tape.run_draw_of_le hsecond), Action.run_pure, List.drop_drop,
    ← Nat.two_mul]
  rfl

theorem length_ofTape (h : 2 * secret.length ≤ script.length) (i : Party) :
    ((ofTape secret script).get i).bytes.length = secret.length :=
  length_of_run_split (run_split_tape h) i

/-- Shares of one length combine to their exclusive or. -/
theorem combine_of_equal {shares : PerParty Share}
    (h : ∀ p, (shares.get p).length = shares.first.length) :
    combine shares =
      .ok ((shares.first.bytes.xor shares.second.bytes).xor shares.third.bytes) := by
  have hequal : shares.toList.find? (fun share => share.length ≠ shares.first.length) = none := by
    rw [List.find?_eq_none]
    intro share hmem
    obtain ⟨p, rfl⟩ := PerParty.mem_toList_iff.mp hmem
    simpa using h p
  rw [combine, hequal]

/-- The shares combine to the secret: the two random ones cancel. -/
theorem combine_ofTape (h : 2 * secret.length ≤ script.length) :
    combine (ofTape secret script) = .ok secret := by
  have hlength : ∀ p, ((ofTape secret script).get p).length = secret.length := length_ofTape h
  generalize hshares : ofTape secret script = shares at hlength
  have hfirst : shares.first.length = secret.length := hlength 0
  have hsecond : shares.second.length = secret.length := hlength 1
  -- the third share is the secret under one mask, the exclusive or of the other two
  have hsum : shares.third.bytes = secret.xor (shares.first.bytes.xor shares.second.bytes) := by
    rw [← hshares, ← Bytes.xor_assoc]
    rfl
  have hmask : (shares.first.bytes.xor shares.second.bytes).length = secret.length := by
    rw [Bytes.length_xor]
    show min shares.first.length shares.second.length = secret.length
    rw [hfirst, hsecond, Nat.min_self]
  rw [combine_of_equal fun p => (hlength p).trans hfirst.symm, hsum, Bytes.xor_comm,
    Bytes.xor_xor_cancel_right (Nat.le_of_eq hmask.symm)]

end Share

/-! ## The device on a tape -/

namespace Request

variable {blindings : Rsa.Blindings} {request : Request} {deviceKey secret script : Bytes}
  {keys : PerParty Rsa.PublicKey}

/-- The tape before the share of the party at a position is encrypted: the shares and the seeds of
the parties before it are gone. -/
def tapeBefore (secret script : Bytes) (position : Nat) : Tape :=
  ⟨script.drop (2 * secret.length + digestLength * position)⟩

/-- The seed that the tape gives for the share of the party at a position. -/
def tapeSeed (secret script : Bytes) (position : Nat) : Bytes :=
  (tapeBefore secret script position).left.take digestLength

/-- A share that fits costs one seed, the next one on the tape. -/
theorem run_encryptShare_tape_of_fits {i : Party}
    (hscript : 2 * secret.length + 3 * digestLength ≤ script.length)
    (hfits : Oaep.Fits (keys.get i).length secret.length) :
    ∃ seed : SizedBytes digestLength, seed.val = tapeSeed secret script i ∧
      (request.encryptShare Tape.source keys (Share.ofTape secret script) i).run
        (tapeBefore secret script i) =
      (.ok (Oaep.encryptBlock (keys.get i) (Oaep.pad (keys.get i).length
        (request.shareLabel keys i) ((Share.ofTape secret script).get i).bytes seed)),
        tapeBefore secret script (i + 1)) := by
  have hposition : i.val < 3 := i.isLt
  have hleft : digestLength ≤ (script.drop (2 * secret.length + digestLength * i.val)).length := by
    rw [List.length_drop, digestLength]
    rw [digestLength] at hscript
    omega
  have hshares : 2 * secret.length ≤ script.length := by omega
  rw [← Share.length_ofTape hshares i] at hfits
  -- what is left after the seed is what comes before the next party
  have hdraw := Tape.run_draw_of_le hleft
  rw [List.drop_drop, Nat.add_assoc, ← Nat.mul_succ] at hdraw
  exact ⟨_, rfl, Action.run_mapError_eq_ok.mpr (Oaep.run_encrypt_of_fits hfits hdraw _)⟩

/-- A share that does not fit costs nothing. -/
theorem run_encryptShare_tape_of_not_fits {i : Party} (hscript : 2 * secret.length ≤ script.length)
    (hfits : ¬ Oaep.Fits (keys.get i).length secret.length) (tape : Tape) :
    (request.encryptShare Tape.source keys (Share.ofTape secret script) i).run tape =
      (.error (.crypto (Oaep.sizeError (keys.get i).length secret.length)), tape) := by
  rw [← Share.length_ofTape hscript i] at hfits
  rw [encryptShare, Action.run_mapError, Oaep.encrypt_of_not_fits hfits, Action.run_throw,
    Share.length_ofTape hscript]
  show (Except.error (ProtocolError.ofCrypto _), tape) = _
  rw [ProtocolError.ofCrypto_sizeError]

section
variable (halgorithm : Algorithm.ofIdentifier request.algorithm = .ok .aesGcm128)
  (hsecret : sharedSecret deviceKey .aesGcm128 request.mode = .ok secret)
  (hscript : 2 * secret.length + 3 * digestLength ≤ script.length)
include halgorithm hsecret hscript

/-- Splitting leaves the tape before the first party. -/
theorem run_encryptShares_tape :
    (request.encryptShares (.standard Tape.source blindings) Tape.source deviceKey keys).run
        ⟨script⟩ =
      (PerParty.forEach (request.encryptShare Tape.source keys (Share.ofTape secret script))).run
        (tapeBefore secret script 0) :=
  run_encryptShares_of_split halgorithm hsecret (Share.run_split_tape (by omega))

/-- If every share fits, the ciphertexts are those of the shares and the seeds on the tape. -/
theorem exists_run_encryptShares_tape
    (hfits : ∀ i : Party, Oaep.Fits (keys.get i).length secret.length) :
    ∃ ciphertexts,
      (request.encryptShares (.standard Tape.source blindings) Tape.source deviceKey keys).run
          ⟨script⟩ =
        (.ok ciphertexts, tapeBefore secret script 3) ∧
      ∀ i : Party, ∃ seed : SizedBytes digestLength, seed.val = tapeSeed secret script i ∧
        ciphertexts.get i = Oaep.encryptBlock (keys.get i) (Oaep.pad (keys.get i).length
          (request.shareLabel keys i) ((Share.ofTape secret script).get i).bytes seed) := by
  choose seed hseed hrun using fun i => run_encryptShare_tape_of_fits hscript (hfits i)
  refine ⟨PerParty.ofParty fun i => _, ?_, fun i => ⟨seed i, hseed i, PerParty.get_ofParty _ i⟩⟩
  rw [run_encryptShares_tape halgorithm hsecret hscript]
  refine PerParty.run_forEach_of_ok fun i => ?_
  rw [PerParty.get_ofParty]
  exact hrun i

/-- If every share fits, there are three ciphertexts, and three seeds are drawn. -/
theorem run_encryptShares_tape_of_fits
    (hfits : ∀ i : Party, Oaep.Fits (keys.get i).length secret.length) :
    ∃ ciphertexts,
      (request.encryptShares (.standard Tape.source blindings) Tape.source deviceKey keys).run
          ⟨script⟩ =
        (.ok ciphertexts, tapeBefore secret script 3) := by
  obtain ⟨ciphertexts, hrun, -⟩ :=
    exists_run_encryptShares_tape halgorithm hsecret hscript hfits
  exact ⟨ciphertexts, hrun⟩

/-- The first share that does not fit ends the delivery, and no later seed is drawn. -/
theorem run_encryptShares_tape_of_not_fits {i : Party}
    (hi : ¬ Oaep.Fits (keys.get i).length secret.length)
    (hbefore : ∀ j : Party, j < i → Oaep.Fits (keys.get j).length secret.length) :
    (request.encryptShares (.standard Tape.source blindings) Tape.source deviceKey keys).run
        ⟨script⟩ =
      (.error (.crypto (Oaep.sizeError (keys.get i).length secret.length)),
        tapeBefore secret script i) := by
  rw [run_encryptShares_tape halgorithm hsecret hscript]
  refine PerParty.run_forEach_of_error ?_ (run_encryptShare_tape_of_not_fits (by omega) hi _)
  intro j hj
  obtain ⟨seed, -, hrun⟩ := run_encryptShare_tape_of_fits hscript (hbefore j hj)
  exact ⟨_, hrun⟩

end

/-- Three certified moduli have room for the shares of a raw key, and a tape of 128 bytes is long
enough for the shares and the seeds. -/
theorem exists_run_encryptShares_certified
    (halgorithm : Algorithm.ofIdentifier request.algorithm = .ok .aesGcm128)
    (hmode : request.mode = .rawKey) :
    ∃ ciphertexts left,
      (request.encryptShares (.standard Tape.source) Tape.source (List.replicate 16 7)
        (PerParty.ofParty fun _ => Rsa.PrivateKey.certified.publicKey)).run
          ⟨List.replicate 128 0⟩ = (.ok ciphertexts, left) := by
  have hsecret : sharedSecret (List.replicate 16 7) .aesGcm128 request.mode =
      .ok (List.replicate 16 7) := by
    rw [hmode]
    rfl
  have hscript : 2 * (List.replicate 16 7 : Bytes).length + 3 * digestLength ≤
      (List.replicate 128 0 : Bytes).length := by
    rw [List.length_replicate, List.length_replicate]
    decide
  have hfits : ∀ i : Party,
      Oaep.Fits ((PerParty.ofParty fun _ => Rsa.PrivateKey.certified.publicKey).get i).length
        (List.replicate 16 7 : Bytes).length := by
    intro i
    rw [PerParty.get_ofParty, Rsa.PrivateKey.length_certified, List.length_replicate]
    decide
  obtain ⟨ciphertexts, hrun⟩ := run_encryptShares_tape_of_fits halgorithm hsecret hscript hfits
  exact ⟨ciphertexts, _, hrun⟩

/-! ## The party -/

/-- What a party finds. The keys of a party can be put together, and it opens its ciphertext to
the share that the device made for it, without touching its own state. -/
theorem run_assemble_openShare {random : RandomSource σ} {blindings : Rsa.Blindings}
    {pairs : PerParty Rsa.PrivateKey} {ciphertexts : PerParty Bytes} {state state' : σ}
    (hpairs : ∀ i : Party, (pairs.get i).HasPrimeFactors)
    (halgorithm : Algorithm.ofIdentifier request.algorithm = .ok .aesGcm128)
    (hcreate : (request.encryptShares (.standard random blindings) random deviceKey
      (pairs.map Rsa.PrivateKey.publicKey)).run state = (.ok ciphertexts, state')) :
    ∃ shares drawn,
      (Share.splitKey random deviceKey .aesGcm128 request.mode).run state = (.ok shares, drawn) ∧
      ∀ {τ : Type} (random' : RandomSource τ) (blindings' : Rsa.Blindings) (own : τ) (i : Party),
        ∃ party,
          (PartyKeys.assemble (.standard random' blindings') i (pairs.get i)
            (pairs.get i).publicKey (pairs.map Rsa.PrivateKey.publicKey)).run own =
              (.ok party, own) ∧
          (party.openShare (.standard random' blindings') request (ciphertexts.get i)).run own =
            (.ok (shares.get i), own) := by
  obtain ⟨shares, drawn, hsplit, hciphertexts⟩ := exists_of_run_encryptShares hcreate
  refine ⟨shares, drawn, hsplit, fun random' blindings' own i => ?_⟩
  obtain ⟨hlength, hfits, seed, hciphertext⟩ := hciphertexts i
  rw [PerParty.get_map] at hfits hciphertext
  generalize hparty : PartyKeys.mk i (pairs.get i)
    ((pairs.map Rsa.PrivateKey.publicKey).map Rsa.PublicKey.toDer) = party
  have hkey : party.privateKey = pairs.get i := by rw [← hparty]
  have hrecipients : party.recipients =
      (pairs.map Rsa.PrivateKey.publicKey).map Rsa.PublicKey.toDer := by
    rw [← hparty]
  have hown : party.ownKey = ((pairs.map Rsa.PrivateKey.publicKey).get i).toDer := by
    rw [← hparty, PartyKeys.ownKey, PerParty.get_map]
  -- the two sides have built the same label, so the digests agree
  refine ⟨party, ?_, ?_⟩
  · rw [PartyKeys.run_assemble_standard, PerParty.get_map, if_pos rfl, hparty]
  · rw [← hkey] at hfits hciphertext
    rw [hciphertext, PartyKeys.run_openShare_encryptBlock (hkey ▸ hpairs i) halgorithm hfits,
      PartyKeys.openLabel_eq_shareLabel hrecipients hown, if_neg (not_not.mpr rfl),
      if_neg (not_not.mpr hlength)]

/-! ## Both sides -/

/-- **Delivery of a device key.** The device succeeds exactly if every modulus has room for a share
and its padding; otherwise it fails as its first recipient without that room makes it fail. If it
succeeds, it has drawn the bytes of two shares and three seeds, every party opens its ciphertext to
its share under any blinding, and the three shares combine to the secret of the device key. -/
theorem delivery (blindings : Rsa.Blindings) (request : Request) (deviceKey : SizedBytes 16)
    (pairs : PerParty Rsa.PrivateKey) (script : Bytes)
    (halgorithm : request.algorithm = "AES-GCM-128")
    (hpairs : ∀ i : Party, (pairs.get i).HasPrimeFactors)
    (hscript : 2 * request.mode.shareLength + 96 ≤ script.length) :
    let length := request.mode.shareLength
    let keys := pairs.map Rsa.PrivateKey.publicKey
    let run := (request.encryptShares (.standard Tape.source blindings) Tape.source deviceKey.val
      keys).run ⟨script⟩
    ((∃ ciphertexts, run.1 = .ok ciphertexts) ↔
      ∀ i : Party, length + 66 ≤ (keys.get i).length) ∧
    (∀ i : Party, (keys.get i).length < length + 66 →
      (∀ j : Party, j < i → length + 66 ≤ (keys.get j).length) →
      run = (.error (.crypto (Oaep.sizeError (keys.get i).length length)),
        ⟨script.drop (2 * length + 32 * i)⟩)) ∧
    ∀ ciphertexts, run.1 = .ok ciphertexts →
      run.2 = ⟨script.drop (2 * length + 96)⟩ ∧
      ∃ secret shares, sharedSecret deviceKey.val .aesGcm128 request.mode = .ok secret ∧
        Share.combine shares = .ok secret ∧
        shares.first.bytes = script.take length ∧
        shares.second.bytes = (script.drop length).take length ∧
        shares.third.bytes = (secret.xor shares.first.bytes).xor shares.second.bytes ∧
        ∀ {τ : Type} (random : RandomSource τ) (blindings' : Rsa.Blindings) (state : τ)
          (i : Party), ∃ party,
            (PartyKeys.assemble (.standard random blindings') i (pairs.get i)
              (pairs.get i).publicKey keys).run state = (.ok party, state) ∧
            (party.openShare (.standard random blindings') request (ciphertexts.get i)).run state =
              (.ok (shares.get i), state) := by
  intro length keys run
  have hidentifier : Algorithm.ofIdentifier request.algorithm = .ok .aesGcm128 := by
    rw [halgorithm]
    rfl
  have hkeyLength : deviceKey.val.length = Algorithm.aesGcm128.keyLength := deviceKey.property
  obtain ⟨secret, hsecret⟩ := exists_sharedSecret hkeyLength request.mode
  have hlength : secret.length = length := length_of_sharedSecret hsecret
  have hleft : 2 * secret.length + 3 * digestLength ≤ script.length := by
    rw [hlength]
    exact hscript
  have hroom : ∀ ciphertexts, run.1 = .ok ciphertexts →
      ∀ i : Party, length + 66 ≤ (keys.get i).length := by
    intro ciphertexts hok i
    exact fits_of_run_encryptShares (Prod.ext hok rfl) i
  have hsucceeds : (∀ i : Party, length + 66 ≤ (keys.get i).length) →
      ∃ ciphertexts, run = (.ok ciphertexts, ⟨script.drop (2 * length + 96)⟩) := by
    intro hfits
    rw [← hlength] at hfits ⊢
    exact run_encryptShares_tape_of_fits hidentifier hsecret hleft hfits
  refine ⟨⟨?_, ?_⟩, ?_, ?_⟩
  -- success and room
  · rintro ⟨ciphertexts, hok⟩
    exact hroom ciphertexts hok
  · intro hfits
    obtain ⟨ciphertexts, hrun⟩ := hsucceeds hfits
    exact ⟨ciphertexts, congrArg Prod.fst hrun⟩
  -- the first recipient without room
  · intro i hi hbefore
    rw [← hlength] at hi hbefore ⊢
    exact run_encryptShares_tape_of_not_fits hidentifier hsecret hleft (Nat.not_le.mpr hi) hbefore
  -- what a success leaves
  · intro ciphertexts hok
    obtain ⟨_, hrun⟩ := hsucceeds (hroom ciphertexts hok)
    obtain ⟨shares, drawn, hsplit, hopen⟩ :=
      run_assemble_openShare hpairs hidentifier (Prod.ext hok rfl)
    -- the shares the parties find are those of the tape
    have htape : 2 * secret.length ≤ script.length := by omega
    rw [Share.run_splitKey_of_split hsecret (Share.run_split_tape htape), Prod.mk.injEq,
      Except.ok.injEq] at hsplit
    obtain ⟨rfl, -⟩ := hsplit
    have hfirst : (Share.ofTape secret script).first.bytes = script.take length := by
      rw [← hlength]
      rfl
    have hsecond :
        (Share.ofTape secret script).second.bytes = (script.drop length).take length := by
      rw [← hlength]
      rfl
    exact ⟨congrArg Prod.snd hrun, secret, Share.ofTape secret script, hsecret,
      Share.combine_ofTape htape, hfirst, hsecond, rfl, hopen⟩

/-- Three moduli of 96 bytes have room for the shares of a raw key. -/
theorem delivery_certified : ∃ ciphertexts,
    ((encryptShares (.standard Tape.source) Tape.source
      ⟨"user", "Heartbeat", "AES-GCM-128", .indices [0, 60], .rawKey⟩ (List.replicate 16 7)
      ((PerParty.ofParty fun _ => Rsa.PrivateKey.certified).map Rsa.PrivateKey.publicKey)).run
        ⟨List.replicate 128 0⟩).1 = .ok ciphertexts := by
  have hpairs : ∀ i : Party,
      ((PerParty.ofParty fun _ => Rsa.PrivateKey.certified).get i).HasPrimeFactors := by
    intro i
    rw [PerParty.get_ofParty]
    exact Rsa.PrivateKey.hasPrimeFactors_certified
  have hscript : 2 * SharingMode.rawKey.shareLength + 96 ≤
      (List.replicate 128 0 : Bytes).length := by
    rw [List.length_replicate]
    decide
  refine (delivery .two ⟨"user", "Heartbeat", "AES-GCM-128", .indices [0, 60], .rawKey⟩
    ⟨List.replicate 16 7, rfl⟩ _ (List.replicate 128 0) rfl hpairs hscript).1.mpr ?_
  intro i
  rw [PerParty.get_map, PerParty.get_ofParty, Rsa.PrivateKey.length_certified]
  decide

end Request

end KeySharing
