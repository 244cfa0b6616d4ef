import KeySharing.Proofs.Der.RoundTrip

/-!
# One form for each value

Reading accepts what writing makes, and nothing else: not a length that could have been shorter, not
an integer with a superfluous zero in front, not a negative one, not a bit string with unused bits
and not a byte behind the last element. So each reader is the inverse of its writer, and what has been
read can be written again without a change.

- `Der.readLength_eq_some_iff`, `Der.readElement_eq_some_iff`: lengths and elements.
- `Der.expect_eq_some_iff`, `Der.expectOnly_eq_some_iff`: elements with a given tag.
- `Der.natural?_eq_some_iff`, `Der.readNatural_eq_some_iff`, `Der.naturals_eq_some_iff`: natural
  numbers.
- `Der.bits?_eq_some_iff`: bit strings.
-/

namespace KeySharing

namespace Bytes

/-- The bytes in front are the quotient by the places behind them. -/
theorem ofBigEndian_append_div (front back : Bytes) :
    ofBigEndian (front ++ back) / 256 ^ back.length = ofBigEndian front := by
  have hsum : ofBigEndian (front ++ back) =
      256 ^ back.length * ofBigEndian front + ofBigEndian back := by
    rw [ofBigEndian, List.reverse_append, ofLittleEndian_append, List.length_reverse, Nat.add_comm]
    rfl
  rw [hsum, Nat.mul_add_div (Nat.pow_pos (by decide)), Nat.div_eq_of_lt (ofBigEndian_lt back),
    Nat.add_zero]

/-- Without a zero in front, a number needs all of its bytes. -/
theorem width_ofBigEndian {bytes : Bytes} (h : bytes.head? ≠ some 0) :
    width (ofBigEndian bytes) = bytes.length := by
  refine Nat.le_antisymm (width_le_of_lt (ofBigEndian_lt bytes)) (Nat.le_of_not_lt fun hlt => ?_)
  cases bytes with
  | nil => exact Nat.not_lt_zero _ hlt
  | cons b rest =>
    -- a number of fewer bytes has nothing in front of them
    have hlt : ofBigEndian (b :: rest) < 256 ^ rest.length :=
      Nat.lt_of_lt_of_le (lt_pow_width _)
        (Nat.pow_le_pow_right (by decide) (Nat.le_of_lt_succ hlt))
    have hfirst : ofBigEndian [b] = 0 := by
      rw [← ofBigEndian_append_div [b] rest]
      exact Nat.div_eq_of_lt hlt
    refine h (congrArg some (UInt8.toNat_inj.mp ?_))
    exact (Nat.add_zero _).symm.trans hfirst

end Bytes

namespace Der

variable {tag : UInt8} {bytes content rest : Bytes} {n : Nat}

/-! ## Lengths and elements -/

/-- **A length is read exactly where it has been written.** -/
theorem readLength_eq_some_iff :
    readLength bytes = some (n, rest) ↔ n ≤ maxLength ∧ bytes = lengthOctets n ++ rest := by
  constructor
  · intro h
    cases bytes with
    | nil => cases h
    | cons first tail =>
      rw [readLength] at h
      split at h
      · rename_i hshort
        cases h
        have hmax : maxLength = 268435455 := by decide
        refine ⟨by omega, ?_⟩
        rw [lengthOctets, if_pos hshort, UInt8.ofNat_toNat]
        rfl
      · rename_i hlong
        rw [Option.ite_none_right_eq_some] at h
        obtain ⟨⟨hpos, hcount, hlength, hmin, hmax, hzero⟩, h⟩ := h
        rw [Option.some.injEq, Prod.mk.injEq] at h
        obtain ⟨rfl, rfl⟩ := h
        have hwidth := Bytes.width_ofBigEndian hzero
        rw [hlength] at hwidth
        have hfirst : UInt8.ofNat (128 + (first.toNat - 128)) = first := by
          rw [Nat.add_sub_cancel' (Nat.le_of_not_lt hlong), UInt8.ofNat_toNat]
        have hoctets := Bytes.bigEndian_ofBigEndian (tail.take (first.toNat - 128))
        rw [hlength] at hoctets
        refine ⟨hmax, ?_⟩
        rw [lengthOctets, if_neg (Nat.not_lt.mpr hmin), hwidth, hfirst, hoctets, List.cons_append,
          List.take_append_drop]
  · rintro ⟨hle, rfl⟩
    exact readLength_lengthOctets hle rest

/-- **An element is read exactly where it has been written.** -/
theorem readElement_eq_some_iff :
    readElement bytes = some (tag, content, rest) ↔
      isKnownTag tag ∧ content.length ≤ maxLength ∧ bytes = element tag content ++ rest := by
  constructor
  · intro h
    cases bytes with
    | nil => cases h
    | cons first tail =>
      rw [readElement, Option.ite_none_right_eq_some] at h
      obtain ⟨hknown, h⟩ := h
      obtain ⟨⟨n, after⟩, hread, h⟩ := Option.bind_eq_some_iff.mp h
      rw [Option.ite_none_right_eq_some] at h
      obtain ⟨hroom, h⟩ := h
      cases h
      obtain ⟨hle, rfl⟩ := readLength_eq_some_iff.mp hread
      have hlength : (after.take n).length = n := List.length_take_of_le hroom
      refine ⟨hknown, hlength.symm ▸ hle, ?_⟩
      rw [element, hlength, List.cons_append, List.append_assoc, List.take_append_drop]
  · rintro ⟨htag, hle, rfl⟩
    exact readElement_element htag hle rest

theorem expect_eq_some_iff (htag : isKnownTag tag) :
    expect tag bytes = some (content, rest) ↔
      content.length ≤ maxLength ∧ bytes = element tag content ++ rest := by
  rw [expect, Option.bind_eq_bind, Option.bind_eq_some_iff]
  constructor
  · rintro ⟨⟨found, inner, after⟩, hread, h⟩
    rw [Option.ite_none_right_eq_some] at h
    obtain ⟨rfl, h⟩ := h
    cases h
    exact (readElement_eq_some_iff.mp hread).2
  · rintro ⟨hle, hbytes⟩
    exact ⟨_, readElement_eq_some_iff.mpr ⟨htag, hle, hbytes⟩, if_pos rfl⟩

theorem expectOnly_eq_some_iff (htag : isKnownTag tag) :
    expectOnly tag bytes = some content ↔
      content.length ≤ maxLength ∧ bytes = element tag content := by
  rw [expectOnly, Option.bind_eq_bind, Option.bind_eq_some_iff]
  constructor
  · rintro ⟨⟨inner, after⟩, hread, h⟩
    rw [Option.ite_none_right_eq_some] at h
    obtain ⟨hempty, h⟩ := h
    cases h
    obtain rfl := List.isEmpty_iff.mp hempty
    rwa [expect_eq_some_iff htag, List.append_nil] at hread
  · rintro ⟨hle, rfl⟩
    refine ⟨(content, []), (expect_eq_some_iff htag).mpr ⟨hle, ?_⟩, rfl⟩
    rw [List.append_nil]

/-! ## Natural numbers -/

/-- How many octets a natural number has as an integer: its sign bit is clear, and with one octet
less it would not be. -/
theorem length_naturalContent_eq_iff {k : Nat} :
    (naturalContent n).length = k + 1 ↔
      n < 128 * 256 ^ k ∧ (k = 0 ∨ 256 ^ k ≤ 2 * n) := by
  have htop : 128 * 256 ^ k = 2 ^ (8 * k + 7) := by
    rw [Nat.pow_add, Nat.pow_mul, Nat.mul_comm]
  rw [naturalContent, Bytes.length_bigEndian]
  by_cases hn : n = 0
  · rw [if_pos hn, hn]
    constructor
    · intro hk
      obtain rfl : k = 0 := by omega
      decide
    · rintro ⟨-, rfl | hk⟩
      · rfl
      · have := Nat.pow_pos (a := 256) (n := k) (by decide)
        omega
  · rw [if_neg hn, htop, ← Nat.log2_lt hn]
    cases k with
    | zero => omega
    | succ k =>
      have hhalf : 2 ^ (8 * k + 7) = 256 ^ k * 128 := by rw [Nat.pow_add, Nat.pow_mul]
      have hbottom : 256 ^ (k + 1) ≤ 2 * n ↔ 8 * k + 7 ≤ n.log2 := by
        rw [Nat.le_log2 hn, hhalf, Nat.pow_succ]
        omega
      rw [hbottom]
      omega

/-- **A natural number is read exactly where it has been written.** -/
theorem natural?_eq_some_iff : natural? content = some n ↔ content = naturalContent n := by
  have hvalue : ∀ {value : Bytes}, value = naturalContent n ↔
      Bytes.ofBigEndian value = n ∧ (naturalContent n).length = value.length := by
    intro value
    constructor
    · rintro rfl
      exact ⟨ofBigEndian_naturalContent n, rfl⟩
    · rintro ⟨hvalue, hlength⟩
      have hbytes := Bytes.bigEndian_ofBigEndian value
      rw [hvalue, ← hlength] at hbytes
      rw [← hbytes, naturalContent, Bytes.length_bigEndian]
  rw [hvalue]
  rcases content with _ | ⟨b, _ | ⟨c, tail⟩⟩
  · have hpos : 0 < (naturalContent n).length := by
      rw [naturalContent, Bytes.length_bigEndian]
      exact Nat.succ_pos _
    constructor
    · rintro ⟨⟩
    · rintro ⟨-, hlength⟩
      rw [hlength] at hpos
      cases hpos
  · have hb : Bytes.ofBigEndian [b] = b.toNat := rfl
    rw [natural?, Option.ite_none_right_eq_some, Option.some.injEq, hb, List.length_singleton,
      length_naturalContent_eq_iff (k := 0)]
    omega
  · have hlength : (b :: c :: tail).length = tail.length + 1 + 1 := rfl
    have hfirst : Bytes.ofBigEndian (b :: c :: tail) / 256 ^ (tail.length + 1) = b.toNat :=
      Bytes.ofBigEndian_append_div [b] (c :: tail)
    have hfirstTwo : Bytes.ofBigEndian (b :: c :: tail) / 256 ^ tail.length =
        256 * b.toNat + c.toNat := by
      rw [show b :: c :: tail = [b, c] ++ tail from rfl, Bytes.ofBigEndian_append_div]
      show c.toNat + 256 * (b.toNat + 256 * 0) = _
      omega
    have hb : b = 0 ↔ b.toNat = 0 := by rw [← UInt8.toNat_inj, UInt8.toNat_zero]
    rw [natural?, Option.ite_none_right_eq_some, Option.some.injEq, hlength,
      length_naturalContent_eq_iff, and_comm]
    refine and_congr_right fun hn => ?_
    -- the first octet holds the sign bit, the first two tell whether one of them is superfluous
    have hsign : n < 128 * 256 ^ (tail.length + 1) ↔ b.toNat < 128 := by
      rw [← Nat.div_lt_iff_lt_mul (Nat.pow_pos (by decide)), ← hn, hfirst]
    have hshort : 256 ^ (tail.length + 1) ≤ 2 * n ↔ 128 ≤ 256 * b.toNat + c.toNat := by
      rw [← hfirstTwo, hn, Nat.le_div_iff_mul_le (Nat.pow_pos (by decide)), Nat.pow_succ]
      omega
    have hc := c.toNat_lt
    rw [hsign, hshort, hb]
    omega

theorem readNatural_eq_some_iff :
    readNatural bytes = some (n, rest) ↔
      (naturalContent n).length ≤ maxLength ∧ bytes = natural n ++ rest := by
  rw [readNatural, Option.bind_eq_bind, Option.bind_eq_some_iff]
  constructor
  · rintro ⟨⟨inner, after⟩, hread, h⟩
    obtain ⟨m, hm, h⟩ := Option.bind_eq_some_iff.mp h
    cases h
    obtain rfl := natural?_eq_some_iff.mp hm
    exact (expect_eq_some_iff (by decide)).mp hread
  · rintro ⟨hle, hbytes⟩
    refine ⟨_, (expect_eq_some_iff (by decide)).mpr ⟨hle, hbytes⟩, ?_⟩
    exact Option.bind_eq_some_iff.mpr ⟨n, natural?_eq_some_iff.mpr rfl, rfl⟩

/-- **Natural numbers are read exactly where they have been written, with nothing behind them.** -/
theorem naturals_eq_some_iff : ∀ {count : Nat} {bytes : Bytes} {ns : List Nat},
    naturals count bytes = some ns ↔
      ns.length = count ∧ (∀ n ∈ ns, (naturalContent n).length ≤ maxLength) ∧
        bytes = ns.flatMap natural
  | 0, bytes, ns => by
    rw [naturals, Option.ite_none_right_eq_some, List.isEmpty_iff, Option.some.injEq,
      List.length_eq_zero_iff]
    constructor
    · rintro ⟨rfl, rfl⟩
      exact ⟨rfl, fun n hn => (List.not_mem_nil hn).elim, rfl⟩
    · rintro ⟨rfl, -, hbytes⟩
      exact ⟨hbytes, rfl⟩
  | count + 1, bytes, ns => by
    rw [naturals, Option.bind_eq_bind, Option.bind_eq_some_iff]
    constructor
    · rintro ⟨⟨n, rest⟩, hread, h⟩
      obtain ⟨more, hmore, h⟩ := Option.bind_eq_some_iff.mp h
      cases h
      obtain ⟨hn, rfl⟩ := readNatural_eq_some_iff.mp hread
      obtain ⟨hlength, hall, rfl⟩ := naturals_eq_some_iff.mp hmore
      exact ⟨congrArg (· + 1) hlength, List.forall_mem_cons.mpr ⟨hn, hall⟩, rfl⟩
    · rintro ⟨hlength, hall, rfl⟩
      obtain ⟨n, more, rfl⟩ := List.exists_cons_of_length_eq_add_one hlength
      obtain ⟨hn, hall⟩ := List.forall_mem_cons.mp hall
      have hmore : naturals count (more.flatMap natural) = some more :=
        naturals_eq_some_iff.mpr ⟨Nat.succ.inj hlength, hall, rfl⟩
      exact ⟨_, readNatural_eq_some_iff.mpr ⟨hn, rfl⟩,
        Option.bind_eq_some_iff.mpr ⟨more, hmore, rfl⟩⟩

theorem bits?_eq_some_iff : bits? content = some bytes ↔ content = 0 :: bytes := by
  constructor
  · intro h
    rw [bits?.eq_def] at h
    split at h
    · cases h
      rfl
    · cases h
  · rintro rfl
    rfl

end Der

end KeySharing
