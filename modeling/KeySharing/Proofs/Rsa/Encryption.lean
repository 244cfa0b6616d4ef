import KeySharing.Proofs.Rsa.Inversion
import KeySharing.Proofs.Rsa.Padding

/-!
# Encryption and decryption under labels

What encryption does is decided by two lengths before anything is drawn: either the message fits
with its padding and one seed is drawn, or nothing is drawn and the error names the lengths. What
decryption makes of a ciphertext is decided by the two labels: the private permutation gives the
padded block back under every blinding, all of its leading zeros included, and unpadding looks at
the digests alone.

- `Oaep.Fits`: the message and its padding are at most as long as the modulus.
- `Oaep.sizeError`: the error for a message that does not fit.
- `Oaep.encrypt_of_fits`, `Oaep.encrypt_of_not_fits`: what encryption does; a success can be read
  backwards (`Oaep.exists_of_run_encrypt`).
- `Oaep.decryptBlock?_encryptBlock`: the padded block comes back.
- `Oaep.decrypt_encryptBlock_pad`: decryption under any label, for every seed and blinding.
-/

namespace KeySharing

namespace Oaep

open Rsa (Blinding PublicKey PrivateKey)

variable {σ : Type}

/-! ## Encryption -/

/-- The message and its padding are at most as long as the modulus. -/
def Fits (modulusLength messageLength : Nat) : Prop := messageLength + overhead ≤ modulusLength

instance (modulusLength messageLength : Nat) : Decidable (Fits modulusLength messageLength) :=
  inferInstanceAs (Decidable (_ ≤ _))

/-- The error for a message that does not fit: the padding alone is too long already, or the message
is. -/
def sizeError (modulusLength messageLength : Nat) : CryptoError :=
  if modulusLength < overhead then .modulusTooSmall modulusLength
  else .messageTooLong (maxMessageLength modulusLength) messageLength

/-- A message that fits costs one seed. -/
theorem encrypt_of_fits {key : PublicKey} {message : Bytes} (h : Fits key.length message.length)
    (random : RandomSource σ) (label : Bytes) :
    encrypt random key label message = random.draw digestLength >>= fun seed =>
      pure (encryptBlock key (pad key.length label message seed)) := by
  rw [Fits] at h
  have hmodulus : ¬ key.length < overhead := by omega
  have hmessage : ¬ maxMessageLength key.length < message.length := by
    rw [maxMessageLength]
    omega
  rw [encrypt, if_neg hmodulus, if_neg hmessage]

theorem run_encrypt_of_fits {random : RandomSource σ} {key : PublicKey} {message : Bytes}
    {seed : SizedBytes digestLength} {state state' : σ} (h : Fits key.length message.length)
    (hdraw : (random.draw digestLength).run state = (.ok seed, state')) (label : Bytes) :
    (encrypt random key label message).run state =
      (.ok (encryptBlock key (pad key.length label message seed)), state') := by
  rw [encrypt_of_fits h, Action.run_bind_of_ok hdraw, Action.run_pure]

/-- A message that does not fit fails before a seed is drawn. -/
theorem encrypt_of_not_fits {key : PublicKey} {message : Bytes}
    (h : ¬ Fits key.length message.length) (random : RandomSource σ) (label : Bytes) :
    encrypt random key label message = throw (sizeError key.length message.length) := by
  rw [Fits] at h
  rw [encrypt, sizeError]
  by_cases hmodulus : key.length < overhead
  · rw [if_pos hmodulus, if_pos hmodulus]
  · have hmessage : maxMessageLength key.length < message.length := by
      rw [maxMessageLength]
      omega
    rw [if_neg hmodulus, if_neg hmodulus, if_pos hmessage]

/-- Where encryption succeeds, the message fits and the ciphertext is that of a padded block. -/
theorem exists_of_run_encrypt {random : RandomSource σ} {key : PublicKey}
    {label message ciphertext : Bytes} {state state' : σ}
    (h : (encrypt random key label message).run state = (.ok ciphertext, state')) :
    Fits key.length message.length ∧
      ∃ seed, ciphertext = encryptBlock key (pad key.length label message seed) := by
  by_cases hfits : Fits key.length message.length
  · rw [encrypt_of_fits hfits] at h
    obtain ⟨seed, drawn, _, hpure⟩ := Action.exists_of_run_bind h
    rw [Action.run_pure, Prod.mk.injEq, Except.ok.injEq] at hpure
    exact ⟨hfits, seed, hpure.1.symm⟩
  · rw [encrypt_of_not_fits hfits, Action.run_throw] at h
    cases h

/-! ## Decryption -/

@[simp] theorem length_encryptBlock (key : PublicKey) (block : Bytes) :
    (encryptBlock key block).length = key.length := Bytes.length_bigEndian _ _

/-- The number of a ciphertext: writing it in the length of the modulus loses nothing. -/
theorem ofBigEndian_encryptBlock (key : PublicKey) (block : Bytes) :
    Bytes.ofBigEndian (encryptBlock key block) = key.apply (Bytes.ofBigEndian block) := by
  have hlt : key.apply (Bytes.ofBigEndian block) < 256 ^ key.length :=
    Nat.lt_trans (key.apply_lt _) (Bytes.lt_pow_width key.modulus)
  rw [encryptBlock, Bytes.ofBigEndian_bigEndian, Nat.mod_eq_of_lt hlt]

/-- A block as long as the modulus and below it comes back as it was, with its leading zeros. -/
theorem decryptBlock?_encryptBlock {key : PrivateKey} (hkey : key.HasPrimeFactors)
    (blinding : Blinding key.publicKey.modulus) {block : Bytes}
    (hlength : block.length = key.publicKey.length) (hoverhead : overhead ≤ key.publicKey.length)
    (hlt : Bytes.ofBigEndian block < key.publicKey.modulus) :
    decryptBlock? key blinding (encryptBlock key.publicKey block) = some block := by
  have hadmitted : (encryptBlock key.publicKey block).length = key.publicKey.length ∧
      overhead ≤ key.publicKey.length ∧
      Bytes.ofBigEndian (encryptBlock key.publicKey block) < key.publicKey.modulus := by
    refine ⟨length_encryptBlock _ _, hoverhead, ?_⟩
    rw [ofBigEndian_encryptBlock]
    exact key.publicKey.apply_lt _
  have hback : Bytes.bigEndian key.publicKey.length (Bytes.ofBigEndian block) = block := by
    rw [← hlength]
    exact Bytes.bigEndian_ofBigEndian block
  rw [decryptBlock?, if_pos hadmitted, ofBigEndian_encryptBlock,
    Rsa.PrivateKey.invert?_publicKey_apply hkey blinding hlt, Option.map_some, hback]

/-- **Decryption under any label.** The message comes back if the digests of the labels agree, and
otherwise the one error does, whatever the seed and the blinding were. -/
theorem decrypt_encryptBlock_pad {key : PrivateKey} (hkey : key.HasPrimeFactors) {message : Bytes}
    (hfits : Fits key.publicKey.length message.length) (label label' : Bytes)
    (seed : SizedBytes digestLength) (blinding : Blinding key.publicKey.modulus) :
    decrypt key label' (encryptBlock key.publicKey (pad key.publicKey.length label message seed))
        blinding =
      if sha256 label' = sha256 label then .ok message else .error decodingError := by
  have hoverhead : overhead ≤ key.publicKey.length := Nat.le_trans (Nat.le_add_left _ _) hfits
  rw [decrypt, decryptBlock?_encryptBlock hkey blinding (length_pad hfits label seed) hoverhead
    (ofBigEndian_pad_lt hfits label seed)]
  exact unpad_pad (length_le key.publicKey) label label' message seed

end Oaep

end KeySharing
