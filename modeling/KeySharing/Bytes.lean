/-!
# Byte strings

Everything the library hashes, encrypts or signs a label with is a byte string.

- `Bytes`: lists of bytes, so that every definition below reduces and every proof is an induction.
- `SizedBytes n`: byte strings whose length is part of their type (nonces, digests, keys).
- `Bytes.xor`: position-wise exclusive or, cut to the shorter operand; masking undoes itself
  (`xor_xor_cancel_right`) and turns one text into another by their difference
  (`xor_xor_difference`).
- `Bytes.littleEndian`, `Bytes.bigEndian`: numbers in a fixed number of bytes. Every byte string is
  the written form of its number (`littleEndian_ofLittleEndian`, `bigEndian_ofBigEndian`).
- `Bytes.width`: how many bytes a number needs.
- `Bytes.forall_byte`: a statement about bytes, from its 256 cases.
- `Bytes.ofText`: the UTF-8 form of a text.
- `Bytes.pieces`: a byte string cut into blocks.
-/

namespace KeySharing

/-- A byte string. -/
abbrev Bytes := List UInt8

/-- A byte string of exactly `n` bytes. -/
abbrev SizedBytes (n : Nat) := { bytes : Bytes // bytes.length = n }

namespace Bytes

/-! ## Exclusive or -/

/-- Exclusive or of two byte strings, position by position, as far as both reach. -/
def xor (a b : Bytes) : Bytes := List.zipWith (· ^^^ ·) a b

@[simp] theorem length_xor (a b : Bytes) : (xor a b).length = min a.length b.length := by
  simp [xor]

theorem xor_comm (a b : Bytes) : xor a b = xor b a :=
  List.zipWith_comm_of_comm UInt8.xor_comm

theorem xor_assoc : ∀ a b c : Bytes, xor (xor a b) c = xor a (xor b c)
  | [], _, _ => rfl
  | _ :: _, [], _ => rfl
  | _ :: _, _ :: _, [] => rfl
  | x :: a, y :: b, z :: c => by
    have ih : xor (xor a b) c = xor a (xor b c) := xor_assoc a b c
    simp only [xor, List.zipWith_cons_cons] at ih ⊢
    rw [ih, UInt8.xor_assoc]

/-- Masking twice with the same mask gives the text back, if the mask is long enough. -/
theorem xor_xor_cancel_right : ∀ {a m : Bytes}, a.length ≤ m.length → xor (xor a m) m = a
  | [], _, _ => by simp [xor]
  | _ :: _, [], h => by simp at h
  | x :: a, y :: m, h => by
    have ih : xor (xor a m) m = a := xor_xor_cancel_right (by simpa using h)
    simp only [xor, List.zipWith_cons_cons] at ih ⊢
    rw [ih, UInt8.xor_assoc, UInt8.xor_self, UInt8.xor_zero]

/-- A mask in two parts masks the text in two parts. -/
theorem xor_append_right : ∀ a m n : Bytes,
    xor a (m ++ n) = xor (a.take m.length) m ++ xor (a.drop m.length) n
  | _, [], _ => rfl
  | [], _ :: _, _ => by simp [xor]
  | x :: a, y :: m, n => by
    have ih : xor a (m ++ n) = xor (a.take m.length) m ++ xor (a.drop m.length) n :=
      xor_append_right a m n
    simp only [xor, List.cons_append, List.zipWith_cons_cons, List.length_cons, List.take_succ_cons,
      List.drop_succ_cons] at ih ⊢
    rw [ih]

/-- Only as much of a mask counts as the text is long. -/
theorem xor_take_right : ∀ a m : Bytes, xor a (m.take a.length) = xor a m
  | [], _ => rfl
  | _ :: _, [] => rfl
  | x :: a, y :: m => by
    have ih : xor a (m.take a.length) = xor a m := xor_take_right a m
    simp only [xor, List.length_cons, List.take_succ_cons, List.zipWith_cons_cons] at ih ⊢
    rw [ih]

theorem take_xor (n : Nat) (a b : Bytes) : (xor a b).take n = xor (a.take n) (b.take n) :=
  List.take_zipWith

theorem drop_xor (n : Nat) (a b : Bytes) : (xor a b).drop n = xor (a.drop n) (b.drop n) :=
  List.drop_zipWith

/-- A mask of zeros changes nothing, if it is long enough. -/
theorem xor_replicate_zero : ∀ {a : Bytes} {n : Nat}, a.length ≤ n → xor a (List.replicate n 0) = a
  | [], _, _ => by simp [xor]
  | _ :: _, 0, h => by simp at h
  | x :: a, n + 1, h => by
    have ih : xor a (List.replicate n 0) = a := xor_replicate_zero (by simpa using h)
    simp only [xor, List.replicate_succ, List.zipWith_cons_cons] at ih ⊢
    rw [ih, UInt8.xor_zero]

/-- Masking a mask with the difference of two texts turns what masks the one into what masks the
other. -/
theorem xor_xor_difference {a b m : Bytes} (h : m.length ≤ b.length) :
    xor b (xor m (xor a b)) = xor a m := by
  have hmasked : (xor m a).length ≤ b.length := by
    rw [length_xor]
    exact Nat.le_trans (Nat.min_le_left _ _) h
  rw [xor_comm, ← xor_assoc, xor_xor_cancel_right hmasked, xor_comm]

/-! ## Numbers in a fixed number of bytes -/

/-- The low `width` bytes of a number, least significant byte first. -/
def littleEndian : (width n : Nat) → Bytes
  | 0, _ => []
  | width + 1, n => UInt8.ofNat n :: littleEndian width (n / 256)

/-- The number whose bytes these are, least significant byte first. -/
def ofLittleEndian : Bytes → Nat
  | [] => 0
  | b :: bs => b.toNat + 256 * ofLittleEndian bs

/-- The low `width` bytes of a number, most significant byte first. -/
def bigEndian (width n : Nat) : Bytes := (littleEndian width n).reverse

/-- The number whose bytes these are, most significant byte first. -/
def ofBigEndian (bytes : Bytes) : Nat := ofLittleEndian bytes.reverse

/-- The number of bytes a number needs; zero needs none. -/
def width (n : Nat) : Nat := if n = 0 then 0 else n.log2 / 8 + 1

@[simp] theorem length_littleEndian : ∀ width n : Nat, (littleEndian width n).length = width
  | 0, _ => rfl
  | width + 1, n => by simp [littleEndian, length_littleEndian width]

@[simp] theorem length_bigEndian (width n : Nat) : (bigEndian width n).length = width := by
  simp [bigEndian]

/-- Every byte string is the written form of its number. -/
theorem littleEndian_ofLittleEndian : ∀ bytes : Bytes,
    littleEndian bytes.length (ofLittleEndian bytes) = bytes
  | [] => rfl
  | b :: bs => by
    have hb : b.toNat < 256 := b.toNat_lt
    have hlow : UInt8.ofNat (b.toNat + 256 * ofLittleEndian bs) = b := by
      apply UInt8.toNat_inj.mp
      simp only [UInt8.toNat_ofNat']
      omega
    have hhigh : (b.toNat + 256 * ofLittleEndian bs) / 256 = ofLittleEndian bs := by omega
    simp only [List.length_cons, ofLittleEndian, littleEndian, hlow, hhigh,
      littleEndian_ofLittleEndian bs]

theorem bigEndian_ofBigEndian (bytes : Bytes) :
    bigEndian bytes.length (ofBigEndian bytes) = bytes := by
  have h := littleEndian_ofLittleEndian bytes.reverse
  rw [List.length_reverse] at h
  rw [bigEndian, ofBigEndian, h, List.reverse_reverse]

/-! ## All bytes -/

/-- What holds for the 256 values holds for every byte. -/
theorem forall_byte {P : UInt8 → Prop} (h : ∀ n < 256, P (UInt8.ofNat n)) (b : UInt8) : P b := by
  have hb := h b.toNat b.toNat_lt
  rwa [UInt8.ofNat_toNat] at hb

/-! ## Text and blocks -/

/-- The UTF-8 form of a text. -/
def ofText (text : String) : Bytes := text.toList.flatMap String.utf8EncodeChar

/-- The first `count` pieces of `size` bytes, as far as the bytes reach. -/
def takePieces (size : Nat) : (count : Nat) → Bytes → List Bytes
  | 0, _ => []
  | count + 1, bytes => bytes.take size :: takePieces size count (bytes.drop size)

/-- The byte string cut into pieces of `size` bytes; the last piece may be shorter. -/
def pieces (size : Nat) (bytes : Bytes) : List Bytes :=
  takePieces size ((bytes.length + size - 1) / size) bytes

end Bytes

end KeySharing
