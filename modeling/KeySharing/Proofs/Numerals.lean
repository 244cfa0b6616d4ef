import KeySharing.Bytes
import Mathlib.Algebra.Group.Nat.Defs

/-!
# Numbers in bytes

A byte string is a numeral with the base 256, from either end. Writing and reading it keeps as much
of a number as there is room for, and the width of a number is the room it needs.

- `Bytes.ofLittleEndian_littleEndian`, `Bytes.ofBigEndian_bigEndian`: what is left of a number.
- `Bytes.ofLittleEndian_lt`, `Bytes.ofBigEndian_lt`: how large a number can be.
- `Bytes.lt_pow_width`, `Bytes.pow_width_le`, `Bytes.width_le_of_lt`: the width as a bound, from
  both sides.
- `Bytes.head?_bigEndian_width`: the first byte of a number in its width.
- `Bytes.littleEndian_eq_map`, `Bytes.bigEndian_four`: the bytes of a number, one by one.
-/

namespace KeySharing

namespace Bytes

/-! ## Writing and reading -/

/-- Writing a number keeps its low bytes. -/
theorem ofLittleEndian_littleEndian : ∀ width n : Nat,
    ofLittleEndian (littleEndian width n) = n % 256 ^ width
  | 0, n => by simp [littleEndian, ofLittleEndian, Nat.mod_one]
  | width + 1, n => by
    simp only [littleEndian, ofLittleEndian, ofLittleEndian_littleEndian width]
    rw [Nat.pow_succ', Nat.mod_mul]
    simp

/-- Numbers of `k` bytes are below `256 ^ k`. -/
theorem ofLittleEndian_lt : ∀ bytes : Bytes, ofLittleEndian bytes < 256 ^ bytes.length
  | [] => by simp [ofLittleEndian]
  | b :: bs => by
    have hb : b.toNat < 256 := b.toNat_lt
    have ih := ofLittleEndian_lt bs
    simp only [ofLittleEndian, List.length_cons, Nat.pow_succ]
    omega

theorem ofBigEndian_bigEndian (width n : Nat) :
    ofBigEndian (bigEndian width n) = n % 256 ^ width := by
  simp [ofBigEndian, bigEndian, ofLittleEndian_littleEndian]

theorem ofBigEndian_lt (bytes : Bytes) : ofBigEndian bytes < 256 ^ bytes.length := by
  simpa [ofBigEndian] using ofLittleEndian_lt bytes.reverse

/-- The bytes after the first ones count for as many places as there are first ones. -/
theorem ofLittleEndian_append : ∀ low high : Bytes,
    ofLittleEndian (low ++ high) = ofLittleEndian low + 256 ^ low.length * ofLittleEndian high
  | [], high => by simp [ofLittleEndian]
  | b :: low, high => by
    rw [List.cons_append, ofLittleEndian, ofLittleEndian, ofLittleEndian_append low high,
      List.length_cons, Nat.pow_succ', Nat.mul_add, Nat.add_assoc, Nat.mul_assoc]

/-- A zero in front does not change a number. -/
theorem ofBigEndian_zero_cons (bytes : Bytes) : ofBigEndian (0 :: bytes) = ofBigEndian bytes := by
  rw [ofBigEndian, List.reverse_cons, ofLittleEndian_append]
  rfl

/-! ## The width of a number -/

theorem lt_pow_width (n : Nat) : n < 256 ^ width n := by
  by_cases h : n = 0
  · rw [h]
    decide
  · calc n < 2 ^ (n.log2 + 1) := Nat.lt_log2_self
      _ ≤ 2 ^ (8 * (n.log2 / 8 + 1)) := Nat.pow_le_pow_right (by decide) (by omega)
      _ = 256 ^ width n := by rw [Nat.pow_mul, width, if_neg h]

theorem pow_width_le {n : Nat} (h : n ≠ 0) : 256 ^ (width n - 1) ≤ n := by
  calc 256 ^ (width n - 1) = 2 ^ (8 * (n.log2 / 8)) := by
        rw [Nat.pow_mul, width, if_neg h, Nat.add_sub_cancel]
    _ ≤ 2 ^ n.log2 := Nat.pow_le_pow_right (by decide) (by omega)
    _ ≤ n := Nat.log2_self_le h

theorem width_le_of_lt {n k : Nat} (h : n < 256 ^ k) : width n ≤ k := by
  by_cases hn : n = 0
  · simp [width, hn]
  · have hpow : 256 ^ (width n - 1) < 256 ^ k := Nat.lt_of_le_of_lt (pow_width_le hn) h
    have := (Nat.pow_lt_pow_iff_right (by decide)).mp hpow
    omega

theorem width_pos {n : Nat} (h : n ≠ 0) : 0 < width n := by
  rw [width, if_neg h]
  exact Nat.succ_pos _

/-- Written in as many bytes as it needs, a number does not start with a zero. -/
theorem head?_bigEndian_width (n : Nat) : (bigEndian (width n) n).head? ≠ some 0 := by
  intro hhead
  obtain ⟨rest, hrest⟩ := List.head?_eq_some_iff.mp hhead
  have hlength : rest.length + 1 = width n := by
    rw [← length_bigEndian (width n) n, hrest, List.length_cons]
  -- without the zero the number has fewer bytes than it needs
  have hn : ofBigEndian rest = n := by
    rw [← ofBigEndian_zero_cons, ← hrest, ofBigEndian_bigEndian,
      Nat.mod_eq_of_lt (lt_pow_width n)]
  have hlt := width_le_of_lt (hn ▸ ofBigEndian_lt rest)
  omega

/-! ## Single bytes -/

/-- The bytes of a number are those of its quotients by the powers of 256. -/
theorem littleEndian_eq_map (width n : Nat) :
    littleEndian width n = (List.range width).map fun i => UInt8.ofNat (n / 256 ^ i) := by
  induction width generalizing n with
  | zero => rfl
  | succ width ih =>
    rw [littleEndian, ih, List.range_succ_eq_map, List.map_cons, List.map_map, Nat.pow_zero,
      Nat.div_one]
    refine congrArg _ (List.map_congr_left fun i _ => ?_)
    rw [Nat.div_div_eq_div_mul, Function.comp_apply, Nat.pow_succ']

/-- The four bytes of a number that a counter is written in. -/
theorem bigEndian_four (n : Nat) :
    bigEndian 4 n =
      [UInt8.ofNat (n / 16777216), UInt8.ofNat (n / 65536), UInt8.ofNat (n / 256),
        UInt8.ofNat n] := by
  simp only [bigEndian, littleEndian, Nat.div_div_eq_div_mul]
  rfl

end Bytes

end KeySharing
