import KeySharing.Proofs.Rsa.Encryption
import KeySharing.Proofs.Rsa.Primality

/-!
# Decryption accepts exactly what encryption makes

A ciphertext that decrypts to a message is a ciphertext of this message under the same label, for a
seed that the ciphertext itself reveals. So nobody can make a second form of a ciphertext, by a
residue that is not reduced, by another length or by a padding that is almost right. This direction
needs nothing about the factors of the modulus or the blinding: the inversion checks its result
against the ciphertext, and the padding is exact. The other direction is the round trip and needs
prime factors.

- `Oaep.run_encrypt_tape_eq_ok_iff`: encryption with a seed that is known.
- `Oaep.exists_of_decryptBlock?`: a block that comes back from a ciphertext is encrypted to it.
- `Oaep.exists_of_decrypt`: what decrypts has been encrypted.
- `Oaep.decrypt_eq_ok_iff_exists_seed`: both directions, and the one error for everything else.
-/

namespace KeySharing

namespace Oaep

open Rsa (Blinding PublicKey PrivateKey)

/-- Encryption that finds one seed on its tape. -/
theorem run_encrypt_tape_eq_ok_iff {key : PublicKey} {label message ciphertext : Bytes}
    {seed : SizedBytes digestLength} :
    (encrypt Tape.source key label message).run ⟨seed.val⟩ = (.ok ciphertext, ⟨[]⟩) ↔
      Fits key.length message.length ∧
        ciphertext = encryptBlock key (pad key.length label message seed) := by
  have hdraw := Tape.run_draw_append seed []
  rw [List.append_nil] at hdraw
  by_cases hfits : Fits key.length message.length
  · rw [run_encrypt_of_fits hfits hdraw, Prod.mk.injEq, Except.ok.injEq, and_iff_left rfl,
      and_iff_right hfits, eq_comm]
  · rw [encrypt_of_not_fits hfits, Action.run_throw]
    constructor
    · rintro ⟨⟩
    · rintro ⟨h, -⟩
      exact absurd h hfits

variable {key : PrivateKey} {blinding : Blinding key.publicKey.modulus}
  {label message ciphertext block : Bytes}

/-- A block that comes back is as long as the modulus and is encrypted to the ciphertext: the
ciphertext has the same length and its number is reduced, so no other form of it is accepted. -/
theorem exists_of_decryptBlock? (h : decryptBlock? key blinding ciphertext = some block) :
    overhead ≤ key.publicKey.length ∧ block.length = key.publicKey.length ∧
      ciphertext = encryptBlock key.publicKey block := by
  rw [decryptBlock?, Option.ite_none_right_eq_some] at h
  obtain ⟨⟨hlength, hoverhead, -⟩, hblock⟩ := h
  obtain ⟨m, hinvert, rfl⟩ := Option.map_eq_some_iff.mp hblock
  refine ⟨hoverhead, Bytes.length_bigEndian _ _, ?_⟩
  have hm : Bytes.ofBigEndian (Bytes.bigEndian key.publicKey.length m) = m := by
    rw [Bytes.ofBigEndian_bigEndian]
    exact Nat.mod_eq_of_lt
      (Nat.lt_trans (PrivateKey.lt_of_invert? hinvert) (Bytes.lt_pow_width _))
  rw [encryptBlock, hm, PrivateKey.apply_of_invert? hinvert, ← hlength,
    Bytes.bigEndian_ofBigEndian]

/-- What decrypts has been encrypted, whatever the factors of the modulus and the blinding are. -/
theorem exists_of_decrypt (h : decrypt key label ciphertext blinding = .ok message) :
    Fits key.publicKey.length message.length ∧ ∃ seed, ciphertext =
      encryptBlock key.publicKey (pad key.publicKey.length label message seed) := by
  rw [decrypt] at h
  split at h
  · rename_i block hblock
    obtain ⟨hoverhead, hlength, hciphertext⟩ := exists_of_decryptBlock? hblock
    obtain ⟨hfits, seed, rfl⟩ :=
      (unpad_eq_ok_iff hoverhead (length_le key.publicKey) hlength).mp h
    exact ⟨hfits, seed, hciphertext⟩
  · cases h

/-- Where no message comes back, the one error does. -/
theorem decrypt_eq_error (h : ∀ message, decrypt key label ciphertext blinding ≠ .ok message) :
    decrypt key label ciphertext blinding = .error decodingError := by
  rw [decrypt] at h ⊢
  split
  · rename_i block hblock
    rw [hblock] at h
    exact unpad_eq_error h
  · rfl

/-- **Decryption accepts exactly what encryption makes.** For every blinding, what decrypts to a
message is what encryption makes of the message with some seed, and if the factors of the modulus
are distinct primes, all that encryption makes decrypts. Everything else gives one error, among it
what is not as long as the modulus or not below it. -/
theorem decrypt_eq_ok_iff_exists_seed (key : PrivateKey) (label ciphertext : Bytes)
    (blinding : Blinding key.publicKey.modulus) :
    let k := key.publicKey.length
    let made (message : Bytes) : Prop := 66 ≤ k ∧ message.length ≤ k - 66 ∧
      ∃ seed : SizedBytes 32,
        (encrypt Tape.source key.publicKey label message).run ⟨seed.val⟩ = (.ok ciphertext, ⟨[]⟩)
    (∀ message, decrypt key label ciphertext blinding = .ok message → made message) ∧
    (key.HasPrimeFactors →
      ∀ message, decrypt key label ciphertext blinding = .ok message ↔ made message) ∧
    ((∀ message, ¬ made message) →
      decrypt key label ciphertext blinding =
        .error (.decryptionFailed "OAEP decoding error")) ∧
    (ciphertext.length ≠ k ∨ key.publicKey.modulus ≤ Bytes.ofBigEndian ciphertext →
      decrypt key label ciphertext blinding =
        .error (.decryptionFailed "OAEP decoding error")) := by
  intro k made
  have hmade : ∀ message, decrypt key label ciphertext blinding = .ok message → made message := by
    intro message hok
    obtain ⟨hfits, seed, hciphertext⟩ := exists_of_decrypt hok
    have hroom : message.length + 66 ≤ k := hfits
    exact ⟨by omega, by omega, seed, run_encrypt_tape_eq_ok_iff.mpr ⟨hfits, hciphertext⟩⟩
  refine ⟨hmade, ?_, ?_, ?_⟩
  -- the round trip
  · intro hkey message
    refine ⟨hmade message, ?_⟩
    rintro ⟨-, -, seed, hencrypt⟩
    obtain ⟨hfits, rfl⟩ := run_encrypt_tape_eq_ok_iff.mp hencrypt
    exact (decrypt_encryptBlock_pad hkey hfits label label seed blinding).trans (if_pos rfl)
  -- what is refused
  · intro hnone
    exact decrypt_eq_error fun message hok => hnone message (hmade message hok)
  · intro hform
    refine decrypt_eq_error fun message hok => ?_
    obtain ⟨-, seed, rfl⟩ := exists_of_decrypt hok
    rcases hform with hlength | hlarge
    · exact hlength (length_encryptBlock _ _)
    · rw [ofBigEndian_encryptBlock] at hlarge
      exact absurd (key.publicKey.apply_lt _) (Nat.not_lt.mpr hlarge)

/-- A message comes back from its ciphertext under every blinding, and not from a ciphertext that
lost a byte. -/
theorem decrypt_eq_ok_iff_exists_seed_certified : ∃ ciphertext : Bytes, ciphertext.length = 96 ∧
    (∀ blinding, decrypt PrivateKey.certified [5] ciphertext blinding = .ok [1, 2, 3]) ∧
    decrypt PrivateKey.certified [5] (ciphertext.drop 1)
        (.two PrivateKey.certified.publicKey.modulus_odd) =
      .error (.decryptionFailed "OAEP decoding error") := by
  have hlength : PrivateKey.certified.publicKey.length = 96 := PrivateKey.length_certified
  have hfits : Fits PrivateKey.certified.publicKey.length [1, 2, 3].length := by
    rw [hlength]
    decide
  obtain ⟨seed⟩ : Nonempty (SizedBytes digestLength) :=
    ⟨⟨List.replicate 32 0, List.length_replicate⟩⟩
  generalize hciphertext : encryptBlock PrivateKey.certified.publicKey
    (pad PrivateKey.certified.publicKey.length [5] [1, 2, 3] seed) = ciphertext
  have hencrypt := run_encrypt_tape_eq_ok_iff.mpr ⟨hfits, hciphertext.symm⟩
  have hwhole : ciphertext.length = 96 := by
    rw [← hciphertext, length_encryptBlock, hlength]
  refine ⟨ciphertext, hwhole, fun blinding => ?_, ?_⟩
  · refine ((decrypt_eq_ok_iff_exists_seed _ [5] ciphertext blinding).2.1
      PrivateKey.hasPrimeFactors_certified [1, 2, 3]).mpr ⟨?_, ?_, _, hencrypt⟩
    · rw [hlength]
      decide
    · rw [hlength]
      decide
  · refine (decrypt_eq_ok_iff_exists_seed _ [5] (ciphertext.drop 1) _).2.2.2 (.inl ?_)
    rw [List.length_drop, hwhole, hlength]
    decide

end Oaep

end KeySharing
