import KeySharing.Proofs.KeyDelivery

/-!
# What a share ciphertext is bound to

A device makes the ciphertexts of one request, and a party opens one of them under another request,
or with another list of keys. Everything that the two may disagree on goes into the two labels and
the two share lengths, and these alone decide what happens: the seeds, the share and the rest of the
ciphertext have no say in it. All that is asked of the party is the private key. It need not stand
at the position the ciphertext was made for, and the key it lists as its own is part of its label.

- `PartyKeys.label_binding`: the outcome for every pair of requests.
-/

namespace KeySharing

variable {σ τ : Type}

namespace PartyKeys

/-- **What a share ciphertext is bound to.** A party with the private key of position `i` opens the
ciphertext for `i` under any request. If the digests of the two labels differ, it finds the one
error of decryption; if they agree but the share lengths do not, it finds the two lengths; otherwise
it finds the share. The blinding has no say in it either. -/
theorem label_binding (random : RandomSource σ) (random' : RandomSource τ)
    (blindings blindings' : Rsa.Blindings) {request₁ : Request} {deviceKey : Bytes}
    {keys : PerParty Rsa.PublicKey} {ciphertexts : PerParty Bytes} {state state' : σ}
    (hcreate : (request₁.encryptShares (.standard random blindings) random deviceKey keys).run
      state = (.ok ciphertexts, state'))
    (i : Party) (party : PartyKeys Rsa.PrivateKey) (hkey : party.privateKey.HasPrimeFactors)
    (hpublic : party.privateKey.publicKey = keys.get i) (request₂ : Request) {algorithm : Algorithm}
    (halgorithm : Algorithm.ofIdentifier request₂.algorithm = .ok algorithm) (own : τ) :
    let label₁ := (request₁.context .aesGcm128 (keys.map Rsa.PublicKey.toDer)).bytes ++
      (keys.get i).toDer
    let label₂ := (request₂.context algorithm party.recipients).bytes ++
      party.recipients.get party.party
    ∃ shares drawn,
      (Share.splitKey random deviceKey .aesGcm128 request₁.mode).run state = (.ok shares, drawn) ∧
      (party.openShare (.standard random' blindings') request₂ (ciphertexts.get i)).run own =
        (if sha256 label₁ ≠ sha256 label₂ then
          .error (.crypto (.decryptionFailed "OAEP decoding error"))
        else if request₁.mode.shareLength ≠ request₂.mode.shareLength then
          .error (.invalidShareLength request₂.mode.shareLength request₁.mode.shareLength)
        else .ok (shares.get i), own) := by
  intro label₁ label₂
  obtain ⟨shares, drawn, hsplit, hciphertexts⟩ := Request.exists_of_run_encryptShares hcreate
  obtain ⟨hlength, hfits, seed, hciphertext⟩ := hciphertexts i
  refine ⟨shares, drawn, hsplit, ?_⟩
  rw [← hpublic] at hfits hciphertext
  rw [hciphertext, run_openShare_encryptBlock hkey halgorithm hfits, hlength]
  rfl

/-- A party at the third position with the key of the second opens the ciphertext of the second
under the request it was made for, under one that asks for longer shares, and under one for a longer
stretch of the stream. -/
theorem label_binding_certified :
    let keys := PerParty.ofParty fun _ => Rsa.PrivateKey.certified.publicKey
    let party : PartyKeys Rsa.PrivateKey :=
      ⟨2, Rsa.PrivateKey.certified, keys.map Rsa.PublicKey.toDer⟩
    let request (stop : UInt64) (mode : SharingMode) : Request :=
      ⟨"user", "Heartbeat", "AES-GCM-128", .range 0 stop, mode⟩
    ∃ ciphertexts left shares drawn,
      ((request 60 .rawKey).encryptShares (.standard Tape.source) Tape.source (List.replicate 16 7)
        keys).run ⟨List.replicate 128 0⟩ = (.ok ciphertexts, left) ∧
      (Share.splitKey Tape.source (List.replicate 16 7) .aesGcm128 .rawKey).run
        ⟨List.replicate 128 0⟩ = (.ok shares, drawn) ∧
      let opened request :=
        (party.openShare (.standard Tape.source) request (ciphertexts.get 1)).run ⟨[]⟩
      opened (request 60 .rawKey) = (.ok (shares.get 1), ⟨[]⟩) ∧
      opened (request 60 .keySchedule) = (.error (.invalidShareLength 176 16), ⟨[]⟩) ∧
      opened (request 120 .rawKey) =
        (.error (.crypto (.decryptionFailed "OAEP decoding error")), ⟨[]⟩) := by
  intro keys party request
  have hcreate : ∃ ciphertexts left, ((request 60 .rawKey).encryptShares (.standard Tape.source)
      Tape.source (List.replicate 16 7) keys).run ⟨List.replicate 128 0⟩ =
        (.ok ciphertexts, left) := Request.exists_run_encryptShares_certified rfl rfl
  obtain ⟨ciphertexts, left, hcreate⟩ := hcreate
  have hpublic : keys.get 1 = Rsa.PrivateKey.certified.publicKey := PerParty.get_ofParty _ _
  have hopen (request₂ : Request)
      (halgorithm : Algorithm.ofIdentifier request₂.algorithm = .ok .aesGcm128) :=
    label_binding Tape.source Tape.source .two .two hcreate 1 party
      Rsa.PrivateKey.hasPrimeFactors_certified hpublic.symm request₂ halgorithm ⟨[]⟩
  -- the party stands at another position, but the two keys are the same
  have hlabel (mode : SharingMode) :
      sha256 (((request 60 .rawKey).context .aesGcm128 (keys.map Rsa.PublicKey.toDer)).bytes ++
        (keys.get 1).toDer) =
      sha256 (((request 60 mode).context .aesGcm128 party.recipients).bytes ++
        party.recipients.get party.party) := by
    rw [PerParty.get_map]
    rfl
  have hdiffers :
      sha256 (((request 60 .rawKey).context .aesGcm128 (keys.map Rsa.PublicKey.toDer)).bytes ++
        (keys.get 1).toDer) ≠
      sha256 (((request 120 .rawKey).context .aesGcm128 party.recipients).bytes ++
        party.recipients.get party.party) := by
    decide +kernel
  obtain ⟨shares, drawn, hsplit, hsame⟩ := hopen (request 60 .rawKey) rfl
  obtain ⟨_, _, _, hlonger⟩ := hopen (request 60 .keySchedule) rfl
  obtain ⟨_, _, _, hother⟩ := hopen (request 120 .rawKey) rfl
  refine ⟨ciphertexts, left, shares, drawn, hcreate, hsplit, ?_, ?_, ?_⟩
  · rw [if_neg (not_not.mpr (hlabel .rawKey)), if_neg (not_not.mpr rfl)] at hsame
    exact hsame
  · rw [if_neg (not_not.mpr (hlabel .keySchedule)), if_pos (by decide)] at hlonger
    exact hlonger
  · rw [if_pos hdiffers] at hother
    exact hother

end PartyKeys

end KeySharing
