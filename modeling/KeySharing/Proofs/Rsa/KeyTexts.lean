import KeySharing.Proofs.Der.Canonical
import KeySharing.Proofs.ExportedKeys
import KeySharing.Proofs.Pem

/-!
# Texts of public keys

Many texts are read as the same key: other text may stand in front, blanks at both ends, and lines
may end in three ways. The bytes in the body are not free, though. They are the exported form of the
key, since neither Base64 nor DER has a second form for anything. So exporting a key that has been
read gives back the bytes of its text, and two texts hold the same key exactly if their bodies agree.

- `Rsa.PublicKey.ofDer_eq_ok_iff`: a key is read from its exported form and from no other bytes.
- `Rsa.PublicKey.ofPem_toPem`: the text of a key is read.
- `Rsa.export_canonical`: exported keys, bodies of texts and the numbers of keys.
-/

namespace KeySharing

namespace Rsa

/-! ## The DER form -/

theorem afterAlgorithm?_eq_some_iff {bytes rest : Bytes} :
    afterAlgorithm? bytes = some rest ↔ bytes = algorithmIdentifier ++ rest := by
  rw [afterAlgorithm?, Option.bind_eq_bind, Option.bind_eq_some_iff]
  constructor
  · rintro ⟨⟨content, after⟩, hread, h⟩
    rw [Option.ite_none_right_eq_some] at h
    obtain ⟨rfl, h⟩ := h
    cases h
    exact ((Der.expect_eq_some_iff (by decide)).mp hread).2
  · rintro rfl
    exact ⟨_, (Der.expect_eq_some_iff (by decide)).mpr ⟨by decide, rfl⟩, if_pos rfl⟩

namespace PublicKey

/-- What is read as the numbers of a key has been written for them. -/
theorem eq_element_of_numbers? {der : Bytes} {modulus exponent : Nat}
    (h : numbers? der = some (modulus, exponent)) :
    der = Der.element Der.sequenceTag (algorithmIdentifier ++ Der.bitString
      (Der.element Der.sequenceTag (Der.natural modulus ++ Der.natural exponent))) := by
  rw [numbers?] at h
  obtain ⟨content, hcontent, h⟩ := Option.bind_eq_some_iff.mp h
  obtain ⟨after, hafter, h⟩ := Option.bind_eq_some_iff.mp h
  obtain ⟨bits, hbits, h⟩ := Option.bind_eq_some_iff.mp h
  obtain ⟨inner, hinner, h⟩ := Option.bind_eq_some_iff.mp h
  obtain ⟨numbers, hnumbers, h⟩ := Option.bind_eq_some_iff.mp h
  obtain ⟨ns, hns, h⟩ := Option.bind_eq_some_iff.mp h
  -- from the inside out, each reader has found what its writer makes
  split at h
  · cases h
    obtain ⟨-, -, rfl⟩ := Der.naturals_eq_some_iff.mp hns
    obtain ⟨-, rfl⟩ := (Der.expectOnly_eq_some_iff (by decide)).mp hnumbers
    obtain rfl := Der.bits?_eq_some_iff.mp hinner
    obtain ⟨-, rfl⟩ := (Der.expectOnly_eq_some_iff (by decide)).mp hbits
    obtain rfl := afterAlgorithm?_eq_some_iff.mp hafter
    obtain ⟨-, rfl⟩ := (Der.expectOnly_eq_some_iff (by decide)).mp hcontent
    simp only [List.flatMap_cons, List.flatMap_nil, List.append_nil]
    rfl
  · cases h

/-- The numbers of a key are read from its exported form. -/
theorem numbers?_toDer (key : PublicKey) :
    numbers? key.toDer = some (key.modulus, key.exponent) := by
  have hnaturals : Der.naturals 2 (Der.natural key.modulus ++ Der.natural key.exponent) =
      some [key.modulus, key.exponent] := by
    refine Der.naturals_eq_some_iff.mpr ⟨rfl, ?_, ?_⟩
    · have hmodulus := Der.length_naturalContent_le key.modulus
      have hexponent := Der.length_naturalContent_le key.exponent
      simp only [List.forall_mem_cons, List.not_mem_nil, false_imp_iff, implies_true, and_true]
      exact ⟨Nat.le_trans hmodulus key.width_lt.1, Nat.le_trans hexponent key.width_lt.2⟩
    · simp only [List.flatMap_cons, List.flatMap_nil, List.append_nil]
  have hkey : Der.expectOnly Der.sequenceTag key.toDer =
      some (algorithmIdentifier ++ Der.bitString key.numbersDer) :=
    (Der.expectOnly_eq_some_iff (by decide)).mpr ⟨key.length_content_le, rfl⟩
  have hafter : afterAlgorithm? (algorithmIdentifier ++ Der.bitString key.numbersDer) =
      some (Der.bitString key.numbersDer) := afterAlgorithm?_eq_some_iff.mpr rfl
  have hstring : Der.expectOnly Der.bitStringTag (Der.bitString key.numbersDer) =
      some (0 :: key.numbersDer) :=
    (Der.expectOnly_eq_some_iff (by decide)).mpr ⟨key.length_bits_le, rfl⟩
  have hinner : Der.expectOnly Der.sequenceTag key.numbersDer =
      some (Der.natural key.modulus ++ Der.natural key.exponent) :=
    (Der.expectOnly_eq_some_iff (by decide)).mpr ⟨key.length_sequence_le, rfl⟩
  simp only [numbers?, hkey, hafter, hstring, Der.bits?, hinner, hnaturals, Option.bind_eq_bind,
    Option.bind_some]

theorem ofNumbers_eq_ok_iff {modulus exponent : Nat} {key : PublicKey} :
    ofNumbers modulus exponent = .ok key ↔ key.modulus = modulus ∧ key.exponent = exponent := by
  rw [ofNumbers]
  constructor
  · intro h
    split at h
    · split at h
      · cases h
        exact ⟨rfl, rfl⟩
      · cases h
    · cases h
  · rintro ⟨rfl, rfl⟩
    rw [dif_pos key.width_modulus_le, dif_pos ⟨key.modulus_odd, key.exponent_odd,
      key.three_le_exponent, key.exponent_lt_modulus, key.exponent_le⟩]

/-- **A public key is read from its exported form and from no other bytes**, if its modulus is not
too long for the reader. -/
theorem ofDer_eq_ok_iff {der : Bytes} {key : PublicKey} :
    ofDer der = .ok key ↔ key.modulus < 2 ^ maxModulusBits ∧ der = key.toDer := by
  constructor
  · intro h
    rw [ofDer] at h
    split at h
    · cases h
    · rename_i modulus exponent hnumbers
      split at h
      · rename_i hmodulus
        obtain ⟨rfl, rfl⟩ := ofNumbers_eq_ok_iff.mp h
        rw [Nat.one_shiftLeft] at hmodulus
        exact ⟨hmodulus, eq_element_of_numbers? hnumbers⟩
      · cases h
  · rintro ⟨hmodulus, rfl⟩
    rw [← Nat.one_shiftLeft] at hmodulus
    rw [ofDer, numbers?_toDer]
    exact (if_pos hmodulus).trans (ofNumbers_eq_ok_iff.mpr ⟨rfl, rfl⟩)

/-! ## The text form -/

theorem ofPem_eq_ok_iff {text : String} {key : PublicKey} :
    ofPem text = .ok key ↔
      key.modulus < 2 ^ maxModulusBits ∧ Pem.decode pemLabel text = some key.toDer := by
  rw [ofPem]
  cases Pem.decode pemLabel text with
  | none => simp
  | some der =>
    rw [Option.some.injEq]
    exact ofDer_eq_ok_iff

/-- **The text of a key is read**, if its modulus is not too long for the reader. -/
theorem ofPem_toPem {key : PublicKey} (h : key.modulus < 2 ^ maxModulusBits) :
    ofPem key.toPem = .ok key :=
  ofPem_eq_ok_iff.mpr ⟨h, Pem.decode_encode pemLabel (List.cons_ne_nil _ _)⟩

/-- The body of a text that is read is the Base64 text of the exported key. -/
theorem hasBody_of_ofPem {text : String} {key : PublicKey} (h : ofPem text = .ok key) :
    Pem.HasBody pemLabel text (Base64.encodePadded Base64.standard key.toDer) :=
  Pem.hasBody_of_decode (ofPem_eq_ok_iff.mp h).2

end PublicKey

theorem readPublicKey_eq_ok_iff {text : String} {key : PublicKey} :
    readPublicKey text = .ok key ↔ PublicKey.ofPem text = .ok key :=
  mapError_eq_ok_iff

/-- **Exporting a key is canonical.** The bytes in the body of a text that is read are what the key
is exported to. So for two texts that are read, the exported keys are equal exactly if the bodies
are, and the bodies are equal exactly if the moduli and the exponents are. Every key has a text that
is read, if its modulus is not too long for the reader. -/
theorem export_canonical {σ : Type} (random : RandomSource σ) (blindings : Blindings)
    (state : σ) :
    let exported (key : PublicKey) :=
      ((Provider.standard random blindings).exportKey key).run state
    (∀ text key, readPublicKey text = .ok key →
      ∃ body bytes, Pem.HasBody PublicKey.pemLabel text body ∧
        Base64.decodePadded Base64.standard body = some bytes ∧
        body = Base64.encodePadded Base64.standard bytes ∧ exported key = (.ok bytes, state)) ∧
    (∀ text text' key key' body body', readPublicKey text = .ok key →
      readPublicKey text' = .ok key' → Pem.HasBody PublicKey.pemLabel text body →
      Pem.HasBody PublicKey.pemLabel text' body' →
        (exported key = exported key' ↔ body = body') ∧
        (body = body' ↔ key.modulus = key'.modulus ∧ key.exponent = key'.exponent)) ∧
    ∀ key : PublicKey, key.modulus < 2 ^ PublicKey.maxModulusBits →
      readPublicKey key.toPem = .ok key := by
  intro exported
  have hexported (key : PublicKey) : exported key = (.ok key.toDer, state) := rfl
  refine ⟨?_, ?_, fun key hmodulus =>
    readPublicKey_eq_ok_iff.mpr (PublicKey.ofPem_toPem hmodulus)⟩
  · intro text key hread
    have hbody := PublicKey.hasBody_of_ofPem (readPublicKey_eq_ok_iff.mp hread)
    exact ⟨_, key.toDer, hbody,
      Base64.decodePadded_encodePadded Base64.Alphabet.lawful_standard key.toDer, rfl,
      hexported key⟩
  · intro text text' key key' body body' hread hread' hbody hbody'
    have hunique := hbody.unique (PublicKey.hasBody_of_ofPem (readPublicKey_eq_ok_iff.mp hread))
    have hunique' := hbody'.unique (PublicKey.hasBody_of_ofPem (readPublicKey_eq_ok_iff.mp hread'))
    rw [hunique, hunique', hexported, hexported, Prod.mk.injEq, Except.ok.injEq,
      Base64.encodePadded_inj Base64.Alphabet.lawful_standard, PublicKey.toDer_inj]
    exact ⟨and_iff_left rfl, Iff.rfl⟩

/-- A text with other line ends, text in front and blanks behind holds the same key as the text that
is written for it. -/
theorem export_canonical_foreword :
    let key : PublicKey := ⟨15, 3, rfl, rfl, by decide, by decide, by decide, by decide⟩
    let text := "fifteen\r\n-----BEGIN PUBLIC KEY-----\r\n" ++
      "MBowDQYJKoZIhvcNAQEBBQADCQAwBgIBDwIBAw==\r\n-----END PUBLIC KEY-----\r\n "
    readPublicKey key.toPem = .ok key ∧ readPublicKey text = .ok key ∧
      ∃ body, Pem.HasBody PublicKey.pemLabel key.toPem body ∧
        Pem.HasBody PublicKey.pemLabel text body ∧
        ∃ bytes, Base64.decodePadded Base64.standard body = some bytes ∧
          ((Provider.standard Tape.source).exportKey key).run ⟨[]⟩ = (.ok bytes, ⟨[]⟩) := by
  intro key text
  have hmodulus : key.modulus < 2 ^ PublicKey.maxModulusBits :=
    Nat.lt_of_lt_of_le (show 15 < 2 ^ 4 by decide) (Nat.pow_le_pow_right (by decide) (by decide))
  have htext : readPublicKey text = .ok key := by
    refine readPublicKey_eq_ok_iff.mpr (PublicKey.ofPem_eq_ok_iff.mpr ⟨hmodulus, ?_⟩)
    decide +kernel
  obtain ⟨hexport, hequal, hread⟩ := export_canonical Tape.source .two ⟨[]⟩
  have hkey : readPublicKey key.toPem = .ok key := hread key hmodulus
  obtain ⟨body, bytes, hbody, hbytes, -, hexported⟩ := hexport key.toPem key hkey
  obtain ⟨body', -, hbody', -⟩ := hexport text key htext
  obtain rfl := (hequal _ _ _ _ _ _ hkey htext hbody hbody').1.mp rfl
  exact ⟨hkey, htext, body, hbody, hbody', bytes, hbytes, hexported⟩

end Rsa

end KeySharing
