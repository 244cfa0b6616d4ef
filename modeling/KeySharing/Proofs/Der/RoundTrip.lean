import KeySharing.Der
import KeySharing.Proofs.Numerals

/-!
# Reading written elements

Writing an element and reading it from the front of a byte string are inverse to each other,
whatever comes after the element. So an element says itself where it ends, and the elements of two
byte strings that agree are the same.

The content may be as long as a reader takes; a longer one has no length octets that a reader knows.

- `Der.readLength_lengthOctets`, `Der.readElement_element`: what is written is read, and the rest is
  left.
- `Der.element_append_inj`, `Der.element_inj`: an element can be read off, in front of other bytes
  or alone.
- `Der.length_element_le`: how much longer an element is than its content.
- `Der.ofBigEndian_naturalContent`, `Der.natural_append_inj`: the same for natural numbers.
-/

namespace KeySharing

namespace Der

theorem width_le_of_le_maxLength {n : Nat} (h : n ≤ maxLength) : Bytes.width n ≤ 4 := by
  refine Bytes.width_le_of_lt (Nat.lt_of_le_of_lt h ?_)
  decide

theorem length_lengthOctets_le {n : Nat} (h : n ≤ maxLength) : (lengthOctets n).length ≤ 5 := by
  have hwidth := width_le_of_le_maxLength h
  rw [lengthOctets]
  split
  · simp
  · rw [List.length_cons, Bytes.length_bigEndian]
    omega

theorem length_element_le (tag : UInt8) {content : Bytes} (h : content.length ≤ maxLength) :
    (element tag content).length ≤ content.length + 6 := by
  have hoctets := length_lengthOctets_le h
  rw [element, List.length_cons, List.length_append]
  omega

/-- A written length is read. -/
theorem readLength_lengthOctets {n : Nat} (h : n ≤ maxLength) (rest : Bytes) :
    readLength (lengthOctets n ++ rest) = some (n, rest) := by
  rw [lengthOctets]
  split
  · rename_i hshort
    have hfirst : (UInt8.ofNat n).toNat = n := by
      rw [UInt8.toNat_ofNat']
      omega
    rw [List.singleton_append, readLength, hfirst, if_pos hshort]
  · rename_i hlong
    have hwidth : Bytes.width n ≤ 4 := width_le_of_le_maxLength h
    have hpos : 0 < Bytes.width n := Bytes.width_pos (by omega)
    have hfirst : (UInt8.ofNat (128 + Bytes.width n)).toNat = 128 + Bytes.width n := by
      rw [UInt8.toNat_ofNat']
      omega
    have htake : (Bytes.bigEndian (Bytes.width n) n ++ rest).take (Bytes.width n) =
        Bytes.bigEndian (Bytes.width n) n :=
      List.take_left' (Bytes.length_bigEndian _ _)
    have hdrop : (Bytes.bigEndian (Bytes.width n) n ++ rest).drop (Bytes.width n) = rest :=
      List.drop_left' (Bytes.length_bigEndian _ _)
    have hvalue : Bytes.ofBigEndian (Bytes.bigEndian (Bytes.width n) n) = n := by
      rw [Bytes.ofBigEndian_bigEndian, Nat.mod_eq_of_lt (Bytes.lt_pow_width n)]
    rw [List.cons_append, readLength, hfirst, if_neg (by omega), Nat.add_sub_cancel_left]
    simp only [htake, hdrop, hvalue, Bytes.length_bigEndian]
    rw [if_pos ⟨hpos, hwidth, trivial, by omega, h, Bytes.head?_bigEndian_width n⟩]

/-- A written element is read. -/
theorem readElement_element {tag : UInt8} {content : Bytes} (htag : isKnownTag tag)
    (h : content.length ≤ maxLength) (rest : Bytes) :
    readElement (element tag content ++ rest) = some (tag, content, rest) := by
  rw [element, List.cons_append, List.append_assoc, readElement, if_pos htag,
    readLength_lengthOctets h]
  simp

/-- An element in front of other bytes can be read off. -/
theorem element_append_inj {tag : UInt8} {c d r s : Bytes} (htag : isKnownTag tag)
    (hc : c.length ≤ maxLength) (hd : d.length ≤ maxLength)
    (h : element tag c ++ r = element tag d ++ s) : c = d ∧ r = s := by
  have hread := readElement_element htag hc r
  rw [h, readElement_element htag hd s, Option.some.injEq, Prod.mk.injEq, Prod.mk.injEq] at hread
  exact ⟨hread.2.1.symm, hread.2.2.symm⟩

/-- An element tells its content. -/
theorem element_inj {tag : UInt8} {c d : Bytes} (htag : isKnownTag tag)
    (hc : c.length ≤ maxLength) (hd : d.length ≤ maxLength) (h : element tag c = element tag d) :
    c = d :=
  (element_append_inj htag hc hd (congrArg (· ++ []) h)).1

theorem length_naturalContent_le (n : Nat) : (naturalContent n).length ≤ Bytes.width n + 1 := by
  rw [naturalContent, Bytes.length_bigEndian, Bytes.width]
  split
  · exact Nat.le_refl _
  · omega

theorem length_natural_le {n : Nat} (h : Bytes.width n < maxLength) :
    (natural n).length ≤ Bytes.width n + 7 := by
  have hcontent := length_naturalContent_le n
  have := length_element_le integerTag (Nat.le_trans hcontent h)
  rw [natural]
  omega

/-- The content of a natural number leaves room for all of it. -/
theorem ofBigEndian_naturalContent (n : Nat) : Bytes.ofBigEndian (naturalContent n) = n := by
  rw [naturalContent, Bytes.ofBigEndian_bigEndian]
  refine Nat.mod_eq_of_lt ?_
  by_cases h : n = 0
  · rw [h]
    decide
  · rw [if_neg h]
    calc n < 2 ^ (n.log2 + 1) := Nat.lt_log2_self
      _ ≤ 2 ^ (8 * ((n.log2 + 1) / 8 + 1)) := Nat.pow_le_pow_right (by decide) (by omega)
      _ = 256 ^ ((n.log2 + 1) / 8 + 1) := by rw [Nat.pow_mul]

/-- A natural number in front of other bytes can be read off. -/
theorem natural_append_inj {m n : Nat} {r s : Bytes} (hm : Bytes.width m < maxLength)
    (hn : Bytes.width n < maxLength) (h : natural m ++ r = natural n ++ s) : m = n ∧ r = s := by
  obtain ⟨hcontent, hrest⟩ := element_append_inj (by decide)
    (Nat.le_trans (length_naturalContent_le m) hm) (Nat.le_trans (length_naturalContent_le n) hn) h
  have hvalue := congrArg Bytes.ofBigEndian hcontent
  rw [ofBigEndian_naturalContent, ofBigEndian_naturalContent] at hvalue
  exact ⟨hvalue, hrest⟩

end Der

end KeySharing
