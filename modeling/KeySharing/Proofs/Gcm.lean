import KeySharing.Gcm

/-!
# Opening undoes sealing

Under one key, nonce and associated data, sealing and opening are inverse to each other. One
direction is the round trip. The other one is acceptance: a byte string that opens to a text is what
sealing makes of that text, so no text has two byte strings that open to it.

Opening admits a masked text that is one block longer than the longest text that can be sealed, so
acceptance is about byte strings up to the length of the longest sealed text.

- `Gcm.encrypt_eq_ok_iff`: when sealing succeeds, and with what.
- `Gcm.exists_of_decrypt`: what opens is a masked text and its tag.
- `Gcm.decrypt_eq_ok_iff`: opening accepts exactly what sealing makes.
- `Gcm.decrypt_eq_error`: everything else of sufficient length is refused in one way.
-/

namespace KeySharing

namespace Gcm

variable {key : Aes.Key} {nonce : Nonce} {aad text blob : Bytes}

/-- Sealing succeeds within the limits, with the masked text and its tag. -/
theorem encrypt_eq_ok_iff :
    encrypt key nonce aad text = .ok blob ↔
      (text.length ≤ maxTextLength ∧ aad.length ≤ maxAadLength) ∧
        mask (Aes.expand key) nonce text ++
          tag (Aes.expand key) nonce aad (mask (Aes.expand key) nonce text) = blob := by
  rw [encrypt]
  split
  · rename_i hlimits
    rw [Except.ok.injEq]
    exact (and_iff_right hlimits).symm
  · rename_i hlimits
    constructor
    · rintro ⟨⟩
    · rintro ⟨h, -⟩
      exact absurd h hlimits

theorem length_of_encrypt (h : encrypt key nonce aad text = .ok blob) :
    blob.length = text.length + tagLength := by
  rw [← (encrypt_eq_ok_iff.mp h).2, List.length_append, length_mask, length_tag]
  rfl

/-- Opening a masked text and what stands in the place of its tag. -/
theorem decrypt_append {ciphertext last : Bytes} (hlast : last.length = tagLength) :
    decrypt key nonce aad (ciphertext ++ last) =
      if ciphertext.length ≤ maxTextLength + 16 ∧ aad.length ≤ maxAadLength ∧
          last = tag (Aes.expand key) nonce aad ciphertext then
        .ok (mask (Aes.expand key) nonce ciphertext)
      else .error .authenticationFailed := by
  have hlength : (ciphertext ++ last).length - tagLength = ciphertext.length := by
    rw [List.length_append, hlast, Nat.add_sub_cancel]
  have henough : ¬ (ciphertext ++ last).length < tagLength := by
    rw [List.length_append, hlast]
    omega
  rw [decrypt, if_neg henough, hlength]
  simp only [List.take_left, List.drop_left]

/-- What has room for a tag is a masked text and what stands in the place of its tag. -/
theorem exists_eq_append (h : tagLength ≤ blob.length) :
    ∃ ciphertext last, last.length = tagLength ∧ blob = ciphertext ++ last := by
  refine ⟨blob.take (blob.length - tagLength), blob.drop (blob.length - tagLength), ?_,
    (List.take_append_drop _ _).symm⟩
  rw [List.length_drop, Nat.sub_sub_self h]

/-- What opens is a masked text and its tag, within the limits. -/
theorem exists_of_decrypt (h : decrypt key nonce aad blob = .ok text) :
    ∃ ciphertext, blob = ciphertext ++ tag (Aes.expand key) nonce aad ciphertext ∧
      aad.length ≤ maxAadLength ∧ text = mask (Aes.expand key) nonce ciphertext := by
  have henough : tagLength ≤ blob.length := by
    refine Nat.le_of_not_lt fun hshort => ?_
    rw [decrypt, if_pos hshort] at h
    cases h
  obtain ⟨ciphertext, last, hlast, rfl⟩ := exists_eq_append henough
  rw [decrypt_append hlast] at h
  split at h
  · rename_i hopens
    obtain ⟨-, haad, rfl⟩ := hopens
    cases h
    exact ⟨ciphertext, rfl, haad, rfl⟩
  · cases h

theorem length_of_decrypt (h : decrypt key nonce aad blob = .ok text) :
    blob.length = text.length + tagLength := by
  obtain ⟨ciphertext, rfl, -, rfl⟩ := exists_of_decrypt h
  rw [List.length_append, length_tag, length_mask]
  rfl

/-- Opening accepts exactly what sealing makes. -/
theorem decrypt_eq_ok_iff (hblob : blob.length ≤ maxTextLength + tagLength) :
    decrypt key nonce aad blob = .ok text ↔ encrypt key nonce aad text = .ok blob := by
  constructor
  · intro h
    have htext : text.length ≤ maxTextLength :=
      Nat.le_of_add_le_add_right (length_of_decrypt h ▸ hblob)
    obtain ⟨ciphertext, rfl, haad, rfl⟩ := exists_of_decrypt h
    refine encrypt_eq_ok_iff.mpr ⟨⟨htext, haad⟩, ?_⟩
    rw [mask_mask]
  · intro h
    obtain ⟨⟨htext, haad⟩, rfl⟩ := encrypt_eq_ok_iff.mp h
    rw [decrypt_append (length_tag _ _ _ _), mask_mask, length_mask,
      if_pos ⟨Nat.le_add_right_of_le htext, haad, rfl⟩]

/-- What has room for a tag opens or is refused as not authentic. -/
theorem decrypt_eq_error (hblob : tagLength ≤ blob.length)
    (h : ∀ text, decrypt key nonce aad blob ≠ .ok text) :
    decrypt key nonce aad blob = .error .authenticationFailed := by
  obtain ⟨ciphertext, last, hlast, rfl⟩ := exists_eq_append hblob
  rw [decrypt_append hlast] at h ⊢
  split
  · rename_i hopens
    exact absurd (if_pos hopens) (h _)
  · rfl

end Gcm

end KeySharing
