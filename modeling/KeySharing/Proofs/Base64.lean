import KeySharing.Fhe.Result
import Mathlib.Data.List.DropRight
import Mathlib.Tactic.Ring

/-!
# Base64 in both directions

RFC 4648 writes a byte string as its bits, six at a time, and says nothing about bytes in between.
The library goes three bytes at a time instead, with a case for each of the two shorter tails. Both
give the same text, and reading gives a byte string exactly for the text that writing makes of it:
the bits that a tail leaves over have to be zero, a single digit cannot be a tail, and there is one
digit for each value.

- `Base64.Alphabet.Lawful`: the digits that an alphabet adds are digits of their own. Both alphabets
  are lawful.
- `Base64.bits`, `Base64.sextets`, `Base64.ofBits`: the encoding of RFC 4648, which writing gives
  (`Base64.encode_eq_sextets`).
- `Base64.decode_eq_some_iff`: reading accepts exactly what writing makes.
- `Base64.encode_append`: whole groups can be written on their own.
- `Base64.decodePadded_eq_some_iff`: the same with the padding written out.
- `Base64.url_reading_exact`: both directions for URL-safe text, with the error for all other texts.
-/

namespace KeySharing

namespace Base64

/-! ## Digits -/

namespace Alphabet

/-- The two digits that an alphabet adds to letters and figures are none of them, and not the
padding sign. -/
structure Lawful (alphabet : Alphabet) : Prop where
  /-- The digit of value 62 has that value. -/
  value?_digit62 : alphabet.value? alphabet.digit62 = some 62
  /-- The digit of value 63 has that value. -/
  value?_digit63 : alphabet.value? alphabet.digit63 = some 63
  /-- The padding sign is no digit. -/
  value?_equals : alphabet.value? '=' = none

theorem lawful_standard : standard.Lawful := ⟨by decide, by decide, by decide⟩

theorem lawful_urlSafe : urlSafe.Lawful := ⟨by decide, by decide, by decide⟩

variable {alphabet : Alphabet} (h : alphabet.Lawful)
include h

/-- Every value has a digit. -/
theorem Lawful.value?_digit {v : Nat} (hv : v < 64) :
    alphabet.value? (alphabet.digit v) = some v := by
  have hchar {n : Nat} (hn : n < 128) : (Char.ofNat n).toNat = n := by
    rw [Char.ofNat, dif_pos (Or.inl (by omega))]
    rfl
  rw [digit]
  split
  · rw [value?, hchar (by omega), if_pos (by omega), Nat.add_sub_cancel]
  · split
    · rw [value?, hchar (by omega), if_neg (by omega), if_pos (by omega), Nat.add_sub_cancel]
    · split
      · rw [value?, hchar (by omega), if_neg (by omega), if_neg (by omega), if_pos (by omega)]
        exact congrArg some (by omega)
      · split
        · rename_i hlast
          rw [h.value?_digit62, hlast]
        · rw [h.value?_digit63]
          exact congrArg some (by omega)

omit h in
/-- What has a value is its digit. -/
theorem digit_of_value? {c : Char} {v : Nat} (hc : alphabet.value? c = some v) :
    v < 64 ∧ alphabet.digit v = c := by
  rw [value?] at hc
  split at hc
  · cases hc
    refine ⟨by omega, ?_⟩
    rw [digit, if_pos (by omega), Nat.sub_add_cancel (by omega), Char.ofNat_toNat]
  · split at hc
    · cases hc
      refine ⟨by omega, ?_⟩
      rw [digit, if_neg (by omega), if_pos (by omega), Nat.sub_add_cancel (by omega),
        Char.ofNat_toNat]
    · split at hc
      · cases hc
        refine ⟨by omega, ?_⟩
        rw [digit, if_neg (by omega), if_neg (by omega), if_pos (by omega), Nat.add_sub_cancel,
          Char.ofNat_toNat]
      · split at hc
        · rename_i hlast
          cases hc
          exact ⟨by decide, hlast.symm⟩
        · rw [Option.ite_none_right_eq_some] at hc
          obtain ⟨hlast, ⟨⟩⟩ := hc
          exact ⟨by decide, hlast.symm⟩

end Alphabet

variable {alphabet : Alphabet}

/-! ## Writing and reading -/

/-- What is written is read. -/
theorem decode_encode (h : alphabet.Lawful) :
    ∀ bytes : Bytes, decode alphabet (encode alphabet bytes) = some bytes
  | [] => rfl
  | [a] => by
    have ha := a.toNat_lt
    have hw := h.value?_digit (show a.toNat / 4 < 64 by omega)
    have hx := h.value?_digit (show a.toNat % 4 * 16 < 64 by omega)
    have hfirst : a.toNat / 4 * 4 + a.toNat % 4 * 16 / 16 = a.toNat := by omega
    rw [encode, decode, hw, hx]
    simp only [Option.bind_eq_bind, Option.bind_some, hfirst, UInt8.ofNat_toNat]
    rw [if_pos (by omega)]
  | [a, b] => by
    have ha := a.toNat_lt
    have hb := b.toNat_lt
    have hw := h.value?_digit (show a.toNat / 4 < 64 by omega)
    have hx := h.value?_digit (show a.toNat % 4 * 16 + b.toNat / 16 < 64 by omega)
    have hy := h.value?_digit (show b.toNat % 16 * 4 < 64 by omega)
    have hfirst : a.toNat / 4 * 4 + (a.toNat % 4 * 16 + b.toNat / 16) / 16 = a.toNat := by omega
    have hsecond : (a.toNat % 4 * 16 + b.toNat / 16) % 16 * 16 + b.toNat % 16 * 4 / 4 =
        b.toNat := by omega
    rw [encode, decode, hw, hx, hy]
    simp only [Option.bind_eq_bind, Option.bind_some, hfirst, hsecond, UInt8.ofNat_toNat]
    rw [if_pos (by omega)]
  | a :: b :: c :: rest => by
    have ha := a.toNat_lt
    have hb := b.toNat_lt
    have hc := c.toNat_lt
    have hw := h.value?_digit (show a.toNat / 4 < 64 by omega)
    have hx := h.value?_digit (show a.toNat % 4 * 16 + b.toNat / 16 < 64 by omega)
    have hy := h.value?_digit (show b.toNat % 16 * 4 + c.toNat / 64 < 64 by omega)
    have hz := h.value?_digit (show c.toNat % 64 < 64 by omega)
    have hfirst : a.toNat / 4 * 4 + (a.toNat % 4 * 16 + b.toNat / 16) / 16 = a.toNat := by omega
    have hsecond : (a.toNat % 4 * 16 + b.toNat / 16) % 16 * 16 +
        (b.toNat % 16 * 4 + c.toNat / 64) / 4 = b.toNat := by omega
    have hthird : (b.toNat % 16 * 4 + c.toNat / 64) % 4 * 64 + c.toNat % 64 = c.toNat := by omega
    rw [encode, decode, hw, hx, hy, hz]
    simp only [Option.bind_eq_bind, Option.bind_some, hfirst, hsecond, hthird, UInt8.ofNat_toNat,
      decode_encode h rest]

/-- What is read has been written. -/
theorem eq_encode_of_decode :
    ∀ {text : List Char} {bytes : Bytes}, decode alphabet text = some bytes →
      text = encode alphabet bytes
  | [], _, h => by
    cases h
    rfl
  | [_], _, h => by cases h
  | [w, x], _, h => by
    simp only [decode, Option.bind_eq_bind, Option.bind_eq_some_iff,
      Option.ite_none_right_eq_some, Option.some.injEq] at h
    obtain ⟨m, hm, n, hn, hzero, rfl⟩ := h
    obtain ⟨hm, rfl⟩ := Alphabet.digit_of_value? hm
    obtain ⟨hn, rfl⟩ := Alphabet.digit_of_value? hn
    have hfirst : (UInt8.ofNat (m * 4 + n / 16)).toNat = m * 4 + n / 16 :=
      UInt8.toNat_ofNat_of_lt' (show m * 4 + n / 16 < 256 by omega)
    have hw : (m * 4 + n / 16) / 4 = m := by omega
    have hx : (m * 4 + n / 16) % 4 * 16 = n := by omega
    rw [encode, hfirst, hw, hx]
  | [w, x, y], _, h => by
    simp only [decode, Option.bind_eq_bind, Option.bind_eq_some_iff,
      Option.ite_none_right_eq_some, Option.some.injEq] at h
    obtain ⟨m, hm, n, hn, k, hk, hzero, rfl⟩ := h
    obtain ⟨hm, rfl⟩ := Alphabet.digit_of_value? hm
    obtain ⟨hn, rfl⟩ := Alphabet.digit_of_value? hn
    obtain ⟨hk, rfl⟩ := Alphabet.digit_of_value? hk
    have hfirst : (UInt8.ofNat (m * 4 + n / 16)).toNat = m * 4 + n / 16 :=
      UInt8.toNat_ofNat_of_lt' (show m * 4 + n / 16 < 256 by omega)
    have hsecond : (UInt8.ofNat (n % 16 * 16 + k / 4)).toNat = n % 16 * 16 + k / 4 :=
      UInt8.toNat_ofNat_of_lt' (show n % 16 * 16 + k / 4 < 256 by omega)
    have hw : (m * 4 + n / 16) / 4 = m := by omega
    have hx : (m * 4 + n / 16) % 4 * 16 + (n % 16 * 16 + k / 4) / 16 = n := by omega
    have hy : (n % 16 * 16 + k / 4) % 16 * 4 = k := by omega
    rw [encode, hfirst, hsecond, hw, hx, hy]
  | w :: x :: y :: z :: rest, _, h => by
    simp only [decode, Option.bind_eq_bind, Option.bind_eq_some_iff, Option.some.injEq] at h
    obtain ⟨m, hm, n, hn, k, hk, l, hl, bytes, hbytes, rfl⟩ := h
    obtain ⟨hm, rfl⟩ := Alphabet.digit_of_value? hm
    obtain ⟨hn, rfl⟩ := Alphabet.digit_of_value? hn
    obtain ⟨hk, rfl⟩ := Alphabet.digit_of_value? hk
    obtain ⟨hl, rfl⟩ := Alphabet.digit_of_value? hl
    have hfirst : (UInt8.ofNat (m * 4 + n / 16)).toNat = m * 4 + n / 16 :=
      UInt8.toNat_ofNat_of_lt' (show m * 4 + n / 16 < 256 by omega)
    have hsecond : (UInt8.ofNat (n % 16 * 16 + k / 4)).toNat = n % 16 * 16 + k / 4 :=
      UInt8.toNat_ofNat_of_lt' (show n % 16 * 16 + k / 4 < 256 by omega)
    have hthird : (UInt8.ofNat (k % 4 * 64 + l)).toNat = k % 4 * 64 + l :=
      UInt8.toNat_ofNat_of_lt' (show k % 4 * 64 + l < 256 by omega)
    have hw : (m * 4 + n / 16) / 4 = m := by omega
    have hx : (m * 4 + n / 16) % 4 * 16 + (n % 16 * 16 + k / 4) / 16 = n := by omega
    have hy : (n % 16 * 16 + k / 4) % 16 * 4 + (k % 4 * 64 + l) / 64 = k := by omega
    have hz : (k % 4 * 64 + l) % 64 = l := by omega
    rw [encode, hfirst, hsecond, hthird, hw, hx, hy, hz, ← eq_encode_of_decode hbytes]

/-- **Reading accepts exactly what writing makes.** -/
theorem decode_eq_some_iff (h : alphabet.Lawful) {text : List Char} {bytes : Bytes} :
    decode alphabet text = some bytes ↔ text = encode alphabet bytes := by
  constructor
  · exact eq_encode_of_decode
  · rintro rfl
    exact decode_encode h bytes

/-! ## The encoding by bits -/

/-- The bits of a byte, from its highest one on. -/
def byteBits (b : UInt8) : List Bool := (List.range 8).map fun i => b.toNat.testBit (7 - i)

/-- The bits of a byte string, byte by byte. -/
def bits (bytes : Bytes) : List Bool := bytes.flatMap byteBits

/-- Bits in groups of six; a last group that is shorter is filled up with zeros. -/
def sextets : List Bool → List (List Bool)
  | [] => []
  | u :: v :: w :: x :: y :: z :: rest => [u, v, w, x, y, z] :: sextets rest
  | short => [short ++ List.replicate (6 - short.length) false]

/-- The number with the given bits, highest bit first. -/
def ofBits (bits : List Bool) : Nat := bits.foldl (fun n b => 2 * n + b.toNat) 0

theorem ofBits_append (front back : List Bool) :
    ofBits (front ++ back) = ofBits front * 2 ^ back.length + ofBits back := by
  have hstart (bits : List Bool) (start : Nat) :
      bits.foldl (fun n b => 2 * n + b.toNat) start = start * 2 ^ bits.length + ofBits bits := by
    induction bits generalizing start with
    | nil => simp [ofBits]
    | cons b rest ih =>
      rw [ofBits, List.foldl_cons, List.foldl_cons, ih, ih (2 * 0 + b.toNat), List.length_cons,
        Nat.pow_succ']
      ring
  rw [ofBits, List.foldl_append, hstart, ← ofBits]

/-- The first bits of a byte are its quotient by a power of two. -/
theorem ofBits_take (b : UInt8) {count : Nat} (h : count ≤ 8) :
    ofBits ((byteBits b).take count) = b.toNat / 2 ^ (8 - count) := by
  have hall : ∀ b : UInt8, ∀ count < 9,
      ofBits ((byteBits b).take count) = b.toNat / 2 ^ (8 - count) :=
    Bytes.forall_byte (by decide +kernel)
  exact hall b count (Nat.lt_succ_of_le h)

/-- The last bits of a byte are its remainder. -/
theorem ofBits_drop (b : UInt8) {count : Nat} (h : count ≤ 8) :
    ofBits ((byteBits b).drop count) = b.toNat % 2 ^ (8 - count) := by
  have hall : ∀ b : UInt8, ∀ count < 9,
      ofBits ((byteBits b).drop count) = b.toNat % 2 ^ (8 - count) :=
    Bytes.forall_byte (by decide +kernel)
  exact hall b count (Nat.lt_succ_of_le h)

/-- A group that starts in one byte and ends in the next one. -/
theorem ofBits_drop_append_take (a b : UInt8) {i j : Nat} (hi : i ≤ 8) (hj : j ≤ 8) :
    ofBits ((byteBits a).drop i ++ (byteBits b).take j) =
      a.toNat % 2 ^ (8 - i) * 2 ^ j + b.toNat / 2 ^ (8 - j) := by
  have hlength : ((byteBits b).take j).length = j := by
    rw [List.length_take, byteBits, List.length_map, List.length_range, Nat.min_eq_left hj]
  rw [ofBits_append, ofBits_drop a hi, ofBits_take b hj, hlength]

/-- **Writing is the encoding of RFC 4648**: the digits of a byte string are those of its groups of
six bits. -/
theorem encode_eq_sextets (alphabet : Alphabet) :
    ∀ bytes : Bytes, encode alphabet bytes =
      (sextets (bits bytes)).map fun group => alphabet.digit (ofBits group)
  | [] => rfl
  | [a] => by
    have hgroups : sextets (bits [a]) =
        [(byteBits a).take 6, (byteBits a).drop 6 ++ (byteBits 0).take 4] := rfl
    rw [hgroups, List.map_cons, List.map_cons, List.map_nil, ofBits_take a (by decide),
      ofBits_drop_append_take a 0 (by decide) (by decide)]
    rfl
  | [a, b] => by
    have hgroups : sextets (bits [a, b]) =
        [(byteBits a).take 6, (byteBits a).drop 6 ++ (byteBits b).take 4,
          (byteBits b).drop 4 ++ (byteBits 0).take 2] := rfl
    rw [hgroups, List.map_cons, List.map_cons, List.map_cons, List.map_nil,
      ofBits_take a (by decide), ofBits_drop_append_take a b (by decide) (by decide),
      ofBits_drop_append_take b 0 (by decide) (by decide)]
    rfl
  | a :: b :: c :: rest => by
    have hgroups : sextets (bits (a :: b :: c :: rest)) =
        (byteBits a).take 6 :: ((byteBits a).drop 6 ++ (byteBits b).take 4) ::
          ((byteBits b).drop 4 ++ (byteBits c).take 2) :: (byteBits c).drop 2 ::
            sextets (bits rest) := rfl
    rw [hgroups, List.map_cons, List.map_cons, List.map_cons, List.map_cons,
      ofBits_take a (by decide), ofBits_drop_append_take a b (by decide) (by decide),
      ofBits_drop_append_take b c (by decide) (by decide), ofBits_drop c (by decide), encode,
      encode_eq_sextets alphabet rest]
    rfl

theorem ofBits_lt (bits : List Bool) : ofBits bits < 2 ^ bits.length := by
  induction bits using List.reverseRecOn with
  | nil => decide
  | append_singleton front last ih =>
    rw [ofBits_append, List.length_append, Nat.pow_add]
    have hlast : ofBits [last] < 2 := by cases last <;> decide
    simp only [List.length_singleton, Nat.pow_one]
    omega

theorem length_of_mem_sextets :
    ∀ {bits group : List Bool}, group ∈ sextets bits → group.length = 6
  | [], group, h => by cases h
  | [_], group, h => by
    rw [List.mem_singleton.mp h]
    rfl
  | [_, _], group, h => by
    rw [List.mem_singleton.mp h]
    rfl
  | [_, _, _], group, h => by
    rw [List.mem_singleton.mp h]
    rfl
  | [_, _, _, _], group, h => by
    rw [List.mem_singleton.mp h]
    rfl
  | [_, _, _, _, _], group, h => by
    rw [List.mem_singleton.mp h]
    rfl
  | _ :: _ :: _ :: _ :: _ :: _ :: rest, group, h => by
    rcases List.mem_cons.mp h with rfl | h
    · rfl
    · exact length_of_mem_sextets h

/-- A group is a value of a digit. -/
theorem ofBits_lt_of_mem_sextets {bits group : List Bool} (h : group ∈ sextets bits) :
    ofBits group < 64 := by
  have hlt := ofBits_lt group
  rwa [length_of_mem_sextets h] at hlt

/-- What is no digit is not written. -/
theorem not_mem_encode (h : alphabet.Lawful) {c : Char} (hc : alphabet.value? c = none)
    (bytes : Bytes) : c ∉ encode alphabet bytes := by
  rw [encode_eq_sextets, List.mem_map]
  rintro ⟨group, hgroup, rfl⟩
  rw [h.value?_digit (ofBits_lt_of_mem_sextets hgroup)] at hc
  cases hc

/-! ## Whole groups -/

/-- What is written can be cut behind whole groups. -/
theorem encode_append (alphabet : Alphabet) : ∀ {front : Bytes} (back : Bytes),
    front.length % 3 = 0 →
      encode alphabet (front ++ back) = encode alphabet front ++ encode alphabet back
  | [], _, _ => rfl
  | [_], _, h => by cases h
  | [_, _], _, h => by cases h
  | a :: b :: c :: front, back, h => by
    have hfront : front.length % 3 = 0 := by
      simp only [List.length_cons] at h
      omega
    simp only [List.cons_append, encode, encode_append alphabet back hfront]

/-- Three bytes are four digits, and one or two more bytes are one digit more than bytes. -/
theorem length_encode (alphabet : Alphabet) :
    ∀ bytes : Bytes, (encode alphabet bytes).length = (4 * bytes.length + 2) / 3
  | [] => by simp [encode]
  | [_] => by simp [encode]
  | [_, _] => by simp [encode]
  | a :: b :: c :: rest => by
    simp only [encode, List.length_cons, length_encode alphabet rest]
    omega

/-! ## Padding -/

/-- Dropping the padding takes away signs and nothing else. -/
theorem exists_eq_dropPadding_append (text : List Char) :
    ∃ count, text = dropPadding text ++ List.replicate count '=' := by
  refine ⟨(text.rtakeWhile (· == '=')).length, ?_⟩
  have hsigns : text.rtakeWhile (· == '=') =
      List.replicate (text.rtakeWhile (· == '=')).length '=' := by
    refine List.eq_replicate_iff.mpr ⟨rfl, fun c hc => ?_⟩
    exact eq_of_beq (List.mem_rtakeWhile_imp (p := (· == '=')) hc)
  calc text = text.rdropWhile (· == '=') ++ text.rtakeWhile (· == '=') :=
        (List.rdropWhile_append_rtakeWhile ..).symm
    _ = dropPadding text ++ List.replicate _ '=' := by rw [← hsigns]; rfl

/-- Written digits stay when the padding behind them is dropped, however long it is. -/
theorem dropPadding_encode_append (h : alphabet.Lawful) (bytes : Bytes) (count : Nat) :
    dropPadding (encode alphabet bytes ++ List.replicate count '=') = encode alphabet bytes := by
  have hdigits : (encode alphabet bytes).reverse.dropWhile (· == '=') =
      (encode alphabet bytes).reverse := by
    refine List.dropWhile_eq_self_iff.mpr fun hpos hsign => ?_
    refine not_mem_encode h h.value?_equals bytes (List.mem_reverse.mp ?_)
    exact List.mem_of_getElem (eq_of_beq hsign)
  rw [dropPadding, List.reverse_append, List.reverse_replicate,
    List.dropWhile_append_of_pos (fun c hc => by simp [List.eq_of_mem_replicate hc]), hdigits,
    List.reverse_reverse]

/-- **Reading with padding accepts exactly what writing with padding makes.** -/
theorem decodePadded_eq_some_iff (h : alphabet.Lawful) {text : List Char} {bytes : Bytes} :
    decodePadded alphabet text = some bytes ↔ text = encodePadded alphabet bytes := by
  rw [decodePadded, Option.ite_none_right_eq_some, decode_eq_some_iff h, encodePadded]
  constructor
  · rintro ⟨⟨hwhole, hshort⟩, hdigits⟩
    obtain ⟨count, htext⟩ := exists_eq_dropPadding_append text
    have hlength := congrArg List.length htext
    rw [List.length_append, List.length_replicate, hdigits] at hlength
    rw [hdigits] at hshort
    -- there is only one number of signs below three that fills up the last group
    have hcount : count = (4 - (encode alphabet bytes).length % 4) % 4 := by omega
    rw [htext, hdigits, hcount]
  · rintro rfl
    have hdrop := dropPadding_encode_append h bytes
    have hlength := length_encode alphabet bytes
    rw [hdrop, List.length_append, List.length_replicate]
    exact ⟨⟨by omega, by omega⟩, rfl⟩

theorem decodePadded_encodePadded (h : alphabet.Lawful) (bytes : Bytes) :
    decodePadded alphabet (encodePadded alphabet bytes) = some bytes :=
  (decodePadded_eq_some_iff h).mpr rfl

theorem encodePadded_inj (h : alphabet.Lawful) {a b : Bytes} :
    encodePadded alphabet a = encodePadded alphabet b ↔ a = b := by
  constructor
  · intro htext
    have hread := decodePadded_encodePadded h a
    rw [htext, decodePadded_encodePadded h, Option.some.injEq] at hread
    exact hread.symm
  · exact congrArg _

/-- What is written behind whole groups has its own padding. -/
theorem encodePadded_append (alphabet : Alphabet) {front : Bytes} (back : Bytes)
    (h : front.length % 3 = 0) :
    encodePadded alphabet (front ++ back) =
      encode alphabet front ++ encodePadded alphabet back := by
  have hfront : (encode alphabet front).length % 4 = 0 := by
    rw [length_encode]
    omega
  have hcount : (4 - ((encode alphabet front).length + (encode alphabet back).length) % 4) % 4 =
      (4 - (encode alphabet back).length % 4) % 4 := by
    omega
  rw [encodePadded, encodePadded, encode_append alphabet back h, List.length_append, hcount,
    List.append_assoc]

theorem length_encodePadded (alphabet : Alphabet) (bytes : Bytes) :
    (encodePadded alphabet bytes).length = 4 * ((bytes.length + 2) / 3) := by
  rw [encodePadded, List.length_append, List.length_replicate, length_encode]
  omega

/-- What is neither a digit nor the padding sign is not written. -/
theorem not_mem_encodePadded (h : alphabet.Lawful) {c : Char}
    (hc : alphabet.value? c = none) (hsign : c ≠ '=') (bytes : Bytes) :
    c ∉ encodePadded alphabet bytes := by
  intro hmem
  rcases List.mem_append.mp hmem with hmem | hmem
  · exact not_mem_encode h hc bytes hmem
  · exact hsign (List.eq_of_mem_replicate hmem)

/-! ## URL-safe text -/

/-- The URL-safe digits of RFC 4648, in the order of their values. -/
def urlDigits : List Char :=
  "ABCDEFGHIJKLMNOPQRSTUVWXYZabcdefghijklmnopqrstuvwxyz0123456789-_".toList

theorem urlDigits_eq : urlDigits = (List.range 64).map urlSafe.digit := by decide +kernel

/-- The URL-safe text of a byte string has the digits of RFC 4648. -/
theorem encodeUrl_eq_sextets (bytes : Bytes) :
    (encodeUrl bytes).toList.map some =
      (sextets (bits bytes)).map fun group => urlDigits[ofBits group]? := by
  rw [encodeUrl, String.toList_ofList, encode_eq_sextets, List.map_map]
  refine List.map_congr_left fun group hgroup => ?_
  rw [urlDigits_eq, List.getElem?_map, List.getElem?_range (ofBits_lt_of_mem_sextets hgroup)]
  rfl

theorem decodeUrl_eq_some_iff {text : String} {bytes : Bytes} :
    decodeUrl text = some bytes ↔
      String.ofList (text.toList.rdropWhile (· == '=')) = encodeUrl bytes := by
  rw [decodeUrl, decode_eq_some_iff Alphabet.lawful_urlSafe, encodeUrl, String.ofList_inj]
  rfl

theorem readUrl_eq_ok_iff {text : String} {bytes : Bytes} :
    readUrl text = .ok bytes ↔ decodeUrl text = some bytes := by
  rw [readUrl]
  cases decodeUrl text with
  | none => simp
  | some read => simp

theorem readUrl_eq_error_iff {text : String} {e : CryptoError} :
    readUrl text = .error e ↔ e = .invalidBase64 ∧ ∀ bytes, decodeUrl text ≠ some bytes := by
  rw [readUrl]
  cases decodeUrl text with
  | none => simp [eq_comm]
  | some read => simp

/-- **Reading URL-safe text is exact.** What is written has the digits of RFC 4648 and is read with
any number of padding signs behind it. A text is read as a byte string exactly if it is the text of
this byte string once the padding signs at its end are gone. All other texts have the same error,
also as a part of an encrypted result. -/
theorem url_reading_exact :
    (∀ bytes, (encodeUrl bytes).toList.map some =
      (sextets (bits bytes)).map fun group => urlDigits[ofBits group]?) ∧
    (∀ bytes count,
      readUrl (encodeUrl bytes ++ String.ofList (List.replicate count '=')) = .ok bytes) ∧
    (∀ text bytes, readUrl text = .ok bytes ↔
      String.ofList (text.toList.rdropWhile (· == '=')) = encodeUrl bytes) ∧
    (∀ text e, readUrl text = .error e ↔ e = .invalidBase64 ∧
      ∀ bytes, String.ofList (text.toList.rdropWhile (· == '=')) ≠ encodeUrl bytes) ∧
    ∀ part text, Fhe.decodePart part .binary text =
      (readUrl text).mapError fun _ => .malformedInput (.undecodable part) := by
  refine ⟨encodeUrl_eq_sextets, ?_, ?_, ?_, ?_⟩
  · intro bytes count
    have hdrop := dropPadding_encode_append Alphabet.lawful_urlSafe bytes count
    rw [readUrl_eq_ok_iff, decodeUrl, encodeUrl, String.toList_append, String.toList_ofList,
      String.toList_ofList, hdrop, decode_encode Alphabet.lawful_urlSafe]
  · intro text bytes
    rw [readUrl_eq_ok_iff, decodeUrl_eq_some_iff]
  · intro text e
    rw [readUrl_eq_error_iff]
    exact and_congr_right' (forall_congr' fun bytes => not_congr decodeUrl_eq_some_iff)
  · exact fun part text => rfl

/-- Padding is optional. -/
example : decodeUrl "YWI=" = some [97, 98] ∧ decodeUrl "YWI" = some [97, 98] := by decide

/-- A padding sign inside, a digit of the standard alphabet and a bit that no byte takes up. -/
example : decodeUrl "YW=I" = none ∧ decodeUrl "+//+" = none ∧ decodeUrl "YWJ" = none := by decide

end Base64

end KeySharing
