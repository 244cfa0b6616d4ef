import KeySharing.Context
import KeySharing.Proofs.Der.RoundTrip
import KeySharing.Proofs.Text.Utf8
import KeySharing.Provider.Standard
import Mathlib.Tactic.IntervalCases

/-!
# Exported keys inside contexts

Contexts put a text and three exported keys side by side, and nothing marks the places where they
meet. Both kinds of places can be found all the same. A key is a DER element, which says itself where
it ends. And no text reaches into a key: the second byte of a key is either a length octet that no
character starts with, or it is followed by the identifier of RSA encryption, which a text can take
up only as far as that identifier stays below 128; what is left of the key then does not start like
a key.

- `Recipients.run_export_standard`: what the standard provider exports.
- `Rsa.PublicKey.toDer_inj`: an exported key tells its modulus and its exponent.
- `Rsa.PublicKey.toDer_append_inj`: an exported key in front of other bytes can be read off.
- `Rsa.PublicKey.exists_toDer_eq`: how an exported key starts.
- `Bytes.ofText_append_exported_inj`: a text and three exported keys can be read off.
-/

namespace KeySharing

/-- The standard provider exports every key, and touches nothing. -/
theorem Recipients.run_export_standard {σ : Type} (random : RandomSource σ)
    (blindings : Rsa.Blindings) (keys : PerParty Rsa.PublicKey) (state : σ) :
    (Recipients.export (.standard random blindings) keys).run state =
      (.ok (keys.map Rsa.PublicKey.toDer), state) := rfl

namespace Der

/-- A long length starts with an octet that no character starts with. -/
theorem lengthOctets_eq {n : Nat} (h : n ≤ maxLength) :
    (n < 128 ∧ lengthOctets n = [UInt8.ofNat n]) ∨
      ∃ x octets, lengthOctets n = x :: octets ∧ ¬ x.IsUTF8FirstByte := by
  by_cases hshort : n < 128
  · exact .inl ⟨hshort, if_pos hshort⟩
  · refine .inr ⟨_, _, if_neg hshort, ?_⟩
    have hpos : 0 < Bytes.width n := Bytes.width_pos (by omega)
    have hle : Bytes.width n ≤ 4 := width_le_of_le_maxLength h
    have hwidth : Bytes.width n = 1 ∨ Bytes.width n = 2 ∨ Bytes.width n = 3 ∨
        Bytes.width n = 4 := by
      omega
    rcases hwidth with hw | hw | hw | hw
    all_goals
      rw [hw]
      decide

end Der

namespace Rsa

namespace PublicKey

theorem width_exponent_le (key : PublicKey) : Bytes.width key.exponent ≤ 5 := by
  refine Bytes.width_le_of_lt (Nat.lt_of_le_of_lt key.exponent_le ?_)
  decide

/-- The two numbers of a key are not too long to be read. -/
theorem width_lt (key : PublicKey) :
    Bytes.width key.modulus < Der.maxLength ∧ Bytes.width key.exponent < Der.maxLength := by
  have hmax : Der.maxLength = 268435455 := by decide
  have hmodulus : Bytes.width key.modulus ≤ 134217728 := key.width_modulus_le
  have hexponent := key.width_exponent_le
  omega

theorem length_numbers_le (key : PublicKey) :
    (Der.natural key.modulus ++ Der.natural key.exponent).length ≤ 134217747 := by
  have hmodulus : Bytes.width key.modulus ≤ 134217728 := key.width_modulus_le
  have hexponent := key.width_exponent_le
  have hmodulusDer := Der.length_natural_le key.width_lt.1
  have hexponentDer := Der.length_natural_le key.width_lt.2
  rw [List.length_append]
  omega

theorem length_numbersDer_le (key : PublicKey) : key.numbersDer.length ≤ 134217753 := by
  have hnumbers := key.length_numbers_le
  have := Der.length_element_le Der.sequenceTag (Nat.le_trans hnumbers (by decide))
  rw [numbersDer]
  omega

theorem length_sequence_le (key : PublicKey) :
    (Der.natural key.modulus ++ Der.natural key.exponent).length ≤ Der.maxLength :=
  Nat.le_trans key.length_numbers_le (by decide)

theorem length_bits_le (key : PublicKey) : (0 :: key.numbersDer).length ≤ Der.maxLength :=
  Nat.le_trans (Nat.succ_le_succ key.length_numbersDer_le) (by decide)

/-- What an exported key holds is not too long to be read. -/
theorem length_content_le (key : PublicKey) :
    (algorithmIdentifier ++ Der.bitString key.numbersDer).length ≤ Der.maxLength := by
  have hmax : Der.maxLength = 268435455 := by decide
  have hbits : (0 :: key.numbersDer).length ≤ 134217754 := Nat.succ_le_succ key.length_numbersDer_le
  have hbitString := Der.length_element_le Der.bitStringTag (Nat.le_trans hbits (by omega))
  have hidentifier : algorithmIdentifier.length = 15 := by decide
  rw [List.length_append, hidentifier, Der.bitString]
  omega

/-- An exported key in front of other bytes can be read off. -/
theorem toDer_append_inj {k l : PublicKey} {r s : Bytes} (h : k.toDer ++ r = l.toDer ++ s) :
    k.toDer = l.toDer ∧ r = s := by
  obtain ⟨hcontent, hrest⟩ :=
    Der.element_append_inj (by decide) k.length_content_le l.length_content_le h
  refine ⟨?_, hrest⟩
  rw [toDer, toDer, hcontent]

/-- The exported form of a key tells its modulus and its exponent. -/
theorem toDer_inj {k l : PublicKey} :
    k.toDer = l.toDer ↔ k.modulus = l.modulus ∧ k.exponent = l.exponent := by
  constructor
  · intro h
    -- from the outside in: the key, its bit string, its sequence and its two numbers
    have hcontent := Der.element_inj (by decide) k.length_content_le l.length_content_le h
    have hstring := Der.element_inj (by decide) k.length_bits_le l.length_bits_le
      (List.append_cancel_left hcontent)
    have hsequence := Der.element_inj (by decide) k.length_sequence_le l.length_sequence_le
      (List.cons.inj hstring).2
    obtain ⟨hmodulus, hrest⟩ := Der.natural_append_inj k.width_lt.1 l.width_lt.1 hsequence
    have hexponent := Der.natural_append_inj k.width_lt.2 l.width_lt.2 (congrArg (· ++ []) hrest)
    exact ⟨hmodulus, hexponent.1⟩
  · rintro ⟨hmodulus, hexponent⟩
    rw [toDer, toDer, numbersDer, numbersDer, hmodulus, hexponent]

/-- How an exported key starts: with a short length and the identifier of RSA encryption, or with a
length octet that no character starts with. -/
theorem exists_toDer_eq (key : PublicKey) :
    ∃ x rest, key.toDer = 0x30 :: x :: rest ∧
      ((x.toNat < 128 ∧ ∃ after, rest = 0x30 :: 0x0d :: 0x06 :: 0x09 :: 0x2a :: 0x86 :: after) ∨
        ¬ x.IsUTF8FirstByte) := by
  have hidentifier : ∃ after,
      algorithmIdentifier = 0x30 :: 0x0d :: 0x06 :: 0x09 :: 0x2a :: 0x86 :: after := ⟨_, rfl⟩
  obtain ⟨after, hidentifier⟩ := hidentifier
  have hlength := key.length_content_le
  rw [toDer, Der.element]
  generalize hcontent : algorithmIdentifier ++ Der.bitString key.numbersDer = content at hlength
  rw [hidentifier] at hcontent
  rcases Der.lengthOctets_eq hlength with ⟨hshort, hoctets⟩ | ⟨x, octets, hoctets, hx⟩
  · refine ⟨UInt8.ofNat content.length, content, by rw [hoctets]; rfl, .inl ⟨?_, _, hcontent.symm⟩⟩
    rw [UInt8.toNat_ofNat']
    omega
  · exact ⟨x, octets ++ content, by rw [hoctets]; rfl, .inr hx⟩

/-- If the second byte of an exported key can start a character, the third is the tag of the
algorithm identifier. -/
theorem third_eq {key : PublicKey} {r s : Bytes} {y z : UInt8} (hy : y.IsUTF8FirstByte)
    (h : key.toDer ++ r = 0x30 :: y :: z :: s) : z = 0x30 := by
  obtain ⟨x, rest, hder, ⟨-, after, rfl⟩ | hx⟩ := key.exists_toDer_eq
  · rw [hder] at h
    exact (List.cons.inj (List.cons.inj (List.cons.inj h).2).2).1.symm
  · rw [hder] at h
    exact absurd ((List.cons.inj (List.cons.inj h).2).1 ▸ hy) hx

/-- A text in front of an exported key, where the whole starts with an exported key, is empty. -/
theorem eq_nil_of_ofChars_append {k l : PublicKey} {w : List Char} {r s : Bytes}
    (h : Bytes.ofChars w ++ (k.toDer ++ r) = l.toDer ++ s) : w = [] := by
  obtain ⟨y, rest, hl, ⟨hy, after, rfl⟩ | hy⟩ := l.exists_toDer_eq
  · -- the text ends in the tag, the length or the identifier, before the byte 0x86
    have hascii : ∀ z ∈ [0x30, y, 0x30, 0x0d, 0x06, 0x09, 0x2a], z.toNat < 128 := by
      simpa using hy
    rw [hl] at h
    obtain ⟨hlength, hr⟩ := Bytes.ofChars_append_eq_ascii (y := 0x86) (by decide) hascii h
    obtain ⟨x, rest, hk, -⟩ := k.exists_toDer_eq
    simp only [List.length_cons, List.length_nil] at hlength
    interval_cases hw : w.length
    · exact List.eq_nil_of_length_eq_zero hw
    · obtain rfl : y = 0x30 := by simpa [hk] using (congrArg List.head? hr).symm
      exact absurd (third_eq (by decide) hr) (by decide)
    · exact absurd (third_eq (by decide) hr) (by decide)
    -- the key would start with a byte that is not its tag
    all_goals simp [hk] at hr
  · have hascii : ∀ z ∈ [(0x30 : UInt8)], z.toNat < 128 :=
      List.forall_mem_singleton.mpr (by decide)
    rw [hl] at h
    obtain ⟨hlength, hr⟩ := Bytes.ofChars_append_eq_ascii hy hascii h
    obtain ⟨x, rest, hk, -⟩ := k.exists_toDer_eq
    simp only [List.length_singleton] at hlength
    interval_cases hw : w.length
    · exact List.eq_nil_of_length_eq_zero hw
    · obtain rfl : y = 0x30 := by simpa [hk] using (congrArg List.head? hr).symm
      exact absurd (by decide) hy

end PublicKey

end Rsa

namespace Bytes

/-- A text and three exported keys in front of other bytes can be read off. -/
theorem ofText_append_exported_inj {u v : String} {keys keys' : PerParty Rsa.PublicKey}
    {r s : Bytes}
    (h : ofText u ++ ((keys.map Rsa.PublicKey.toDer).toList.flatten ++ r) =
      ofText v ++ ((keys'.map Rsa.PublicKey.toDer).toList.flatten ++ s)) :
    u = v ∧ keys.map Rsa.PublicKey.toDer = keys'.map Rsa.PublicKey.toDer ∧ r = s := by
  simp only [PerParty.map, PerParty.toList, List.flatten_cons, List.flatten_nil, List.append_nil,
    List.append_assoc] at h
  have huv : u = v := by
    obtain ⟨w, ⟨hv, hr⟩ | ⟨hu, hs⟩⟩ := ofChars_append_eq h
    · rw [Rsa.PublicKey.eq_nil_of_ofChars_append hr.symm, List.append_nil] at hv
      exact String.toList_inj.mp hv.symm
    · rw [Rsa.PublicKey.eq_nil_of_ofChars_append hs.symm, List.append_nil] at hu
      exact String.toList_inj.mp hu
  subst huv
  obtain ⟨hfirst, h⟩ := Rsa.PublicKey.toDer_append_inj (List.append_cancel_left h)
  obtain ⟨hsecond, h⟩ := Rsa.PublicKey.toDer_append_inj h
  obtain ⟨hthird, h⟩ := Rsa.PublicKey.toDer_append_inj h
  refine ⟨rfl, ?_, h⟩
  rw [PerParty.map, PerParty.map, hfirst, hsecond, hthird]

end Bytes

end KeySharing
