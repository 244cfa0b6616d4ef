import KeySharing.Bytes

/-!
# Where a text ends

Contexts put texts and other bytes side by side with nothing in between. What can be said about
the place where a text ends rests on two facts about UTF-8: the characters of a text can be read
off one by one, and a byte that continues a character never starts one.

- `Bytes.ofChars`: the UTF-8 form of characters; `Bytes.ofText` is `Bytes.ofChars` of a text.
- `Bytes.ofChars_append_eq`: two texts in front of other bytes, if the whole is the same, differ by
  whole characters at the end of one of them.
- `Bytes.ofText_inj`: different texts have different bytes.
- `Bytes.ofChars_append_eq_ascii`: a text at the start of ASCII bytes ends before the first byte that
  no character starts with.
-/

namespace KeySharing

namespace Bytes

/-- The UTF-8 form of characters. -/
def ofChars (chars : List Char) : Bytes := chars.flatMap String.utf8EncodeChar

@[simp] theorem ofChars_cons (c : Char) (chars : List Char) :
    ofChars (c :: chars) = String.utf8EncodeChar c ++ ofChars chars := rfl

theorem ofText_eq_ofChars (text : String) : ofText text = ofChars text.toList := rfl

theorem ofChars_append (u v : List Char) : ofChars (u ++ v) = ofChars u ++ ofChars v :=
  List.flatMap_append

theorem ofText_append (s t : String) : ofText (s ++ t) = ofText s ++ ofText t := by
  rw [ofText_eq_ofChars, String.toList_append, ofChars_append]
  rfl

/-! ## Reading characters -/

/-- A character at the start of a byte string can be read in one way only. -/
theorem utf8EncodeChar_append_inj {c d : Char} {r s : Bytes}
    (h : String.utf8EncodeChar c ++ r = String.utf8EncodeChar d ++ s) : c = d ∧ r = s := by
  have hread : ∀ (e : Char) (t : Bytes),
      ByteArray.utf8DecodeChar? (String.utf8EncodeChar e ++ t).toByteArray 0 = some e := by
    intro e t
    rw [List.toByteArray_append]
    exact ByteArray.utf8DecodeChar?_utf8EncodeChar_append
  have hc : c = d := by
    have := hread c r
    rw [h, hread d s] at this
    exact (Option.some.inj this).symm
  subst hc
  exact ⟨rfl, List.append_cancel_left h⟩

/-- Two texts in front of other bytes: if the whole is the same, one of the texts goes on where the
other ends. -/
theorem ofChars_append_eq : ∀ {u v : List Char} {r s : Bytes},
    ofChars u ++ r = ofChars v ++ s →
      ∃ w, (v = u ++ w ∧ r = ofChars w ++ s) ∨ (u = v ++ w ∧ s = ofChars w ++ r)
  | [], v, _, _, h => ⟨v, .inl ⟨rfl, h⟩⟩
  | c :: u, [], _, _, h => ⟨c :: u, .inr ⟨rfl, h.symm⟩⟩
  | c :: u, d :: v, r, s, h => by
    rw [ofChars_cons, ofChars_cons, List.append_assoc, List.append_assoc] at h
    obtain ⟨rfl, hrest⟩ := utf8EncodeChar_append_inj h
    obtain ⟨w, ⟨rfl, hw⟩ | ⟨rfl, hw⟩⟩ := ofChars_append_eq hrest
    · exact ⟨w, .inl ⟨rfl, hw⟩⟩
    · exact ⟨w, .inr ⟨rfl, hw⟩⟩

theorem ofChars_eq_nil {chars : List Char} (h : ofChars chars = []) : chars = [] := by
  cases chars with
  | nil => rfl
  | cons c rest =>
    rw [ofChars_cons, List.append_eq_nil_iff] at h
    exact absurd h.1 String.utf8EncodeChar_ne_nil

theorem ofChars_inj {u v : List Char} (h : ofChars u = ofChars v) : u = v := by
  have h' : ofChars u ++ [] = ofChars v ++ [] := by rw [h]
  obtain ⟨w, ⟨rfl, hw⟩ | ⟨rfl, hw⟩⟩ := ofChars_append_eq h'
  · rw [ofChars_eq_nil (List.append_eq_nil_iff.mp hw.symm).1, List.append_nil]
  · rw [ofChars_eq_nil (List.append_eq_nil_iff.mp hw.symm).1, List.append_nil]

@[simp] theorem ofText_inj {s t : String} : ofText s = ofText t ↔ s = t := by
  constructor
  · intro h
    exact String.toList_inj.mp (ofChars_inj h)
  · rintro rfl
    rfl

/-! ## Bytes below 128 -/

/-- A byte below 128 is a character. -/
theorem utf8EncodeChar_ofNat {x : UInt8} (h : x.toNat < 128) :
    String.utf8EncodeChar (Char.ofNat x.toNat) = [x] := by
  have hvalid : x.toNat.isValidChar := .inl (by omega)
  have hval : (Char.ofNat x.toNat).val.toNat = x.toNat := by
    show (Char.ofNat x.toNat).toNat = x.toNat
    rw [Char.ofNat, dif_pos hvalid]
    rfl
  have hsize : (Char.ofNat x.toNat).utf8Size = 1 := by
    rw [Char.utf8Size_eq_one_iff, UInt32.le_iff_toNat_le, hval]
    exact Nat.le_of_lt_succ h
  rw [String.utf8EncodeChar_eq_singleton hsize, List.singleton_inj]
  apply UInt8.toNat_inj.mp
  rw [UInt32.toNat_toUInt8, hval, Nat.mod_eq_of_lt x.toNat_lt]

/-- A byte string that starts with a text starts with the first byte of a character. -/
theorem isUTF8FirstByte_of_ofChars_append {y : UInt8} {c : Char} {w : List Char} {r s : Bytes}
    (h : ofChars (c :: w) ++ r = y :: s) : y.IsUTF8FirstByte := by
  have hpos : 0 < (String.utf8EncodeChar c).length := by
    rw [String.length_utf8EncodeChar]
    exact c.utf8Size_pos
  have hhead : (String.utf8EncodeChar c)[0] = y := by
    have h0 : (String.utf8EncodeChar c ++ (ofChars w ++ r))[0]? = some y := by
      rw [← List.append_assoc, ← ofChars_cons, h]
      rfl
    rw [List.getElem?_append_left hpos, List.getElem?_eq_getElem hpos] at h0
    exact Option.some.inj h0
  rw [← hhead, UInt8.isUTF8FirstByte_getElem_utf8EncodeChar]

/-- A text in front of other bytes: if the whole starts with bytes below 128 and goes on with a byte
that no character starts with, the text is some of those bytes, one character each. -/
theorem ofChars_append_eq_ascii {y : UInt8} (hy : ¬ y.IsUTF8FirstByte) :
    ∀ {ascii : Bytes} {w : List Char} {r s : Bytes}, (∀ x ∈ ascii, x.toNat < 128) →
      ofChars w ++ r = ascii ++ y :: s → w.length ≤ ascii.length ∧ r = ascii.drop w.length ++ y :: s
  | _, [], _, _, _, h => ⟨Nat.zero_le _, h⟩
  | [], _ :: _, _, _, _, h => absurd (isUTF8FirstByte_of_ofChars_append h) hy
  | x :: ascii, c :: w, r, s, hascii, h => by
    have hx : x.toNat < 128 := hascii x List.mem_cons_self
    have hchar : String.utf8EncodeChar c ++ (ofChars w ++ r) =
        String.utf8EncodeChar (Char.ofNat x.toNat) ++ (ascii ++ y :: s) := by
      rw [utf8EncodeChar_ofNat hx, ← List.append_assoc, ← ofChars_cons, h]
      rfl
    obtain ⟨hlength, hr⟩ := ofChars_append_eq_ascii hy
      (fun z hz => hascii z (List.mem_cons_of_mem x hz)) (utf8EncodeChar_append_inj hchar).2
    exact ⟨Nat.succ_le_succ hlength, hr⟩

end Bytes

end KeySharing
