import KeySharing.Aes.Block
import Mathlib.Algebra.Field.ZMod
import Mathlib.RingTheory.AdjoinRoot
import Mathlib.Tactic.ComputeDegree
import Mathlib.Tactic.LinearCombination

/-!
# The field of AES

AES reads a byte as a polynomial over the bits of degree below eight, and calculates with such
polynomials up to multiples of `x ^ 8 + x ^ 4 + x ^ 3 + x + 1`. This makes the bytes a field of 256
elements: exclusive or is its addition, and doubling a byte, which the column map does with a shift
and a mask, is the multiplication by `x`. The substitution box is the inverse in this field,
followed by an affine map of the bits.

- `Aes.ByteField`: the field, and `Aes.toField`, `Aes.ofField` between bytes and its elements.
- `Aes.toField_xor`, `Aes.toField_double`, `Aes.toField_multiply`: what is done with bytes is done
  in the field.
- `Aes.irreducible_fieldPolynomial`: it is a field, since every byte but zero has an inverse.
- `Aes.substitute_eq`: the table of substitutes is the affine map of the inverse.
-/

namespace KeySharing

namespace Aes

open Polynomial

/-! ## Bytes as elements -/

/-- The polynomial that is zero in the field. -/
noncomputable def fieldPolynomial : (ZMod 2)[X] := X ^ 8 + X ^ 4 + X ^ 3 + X + 1

/-- The field of AES. -/
abbrev ByteField := AdjoinRoot fieldPolynomial

/-- The element `x` of the field. -/
noncomputable abbrev fieldRoot : ByteField := AdjoinRoot.root fieldPolynomial

/-- A bit as an element. -/
noncomputable def coefficient (bit : Bool) : ByteField := if bit then 1 else 0

/-- The element of a byte: bit `i` is the coefficient of `x ^ i`. -/
noncomputable def toField (b : UInt8) : ByteField :=
  ∑ i : Fin 8, coefficient (b.toNat.testBit i) * fieldRoot ^ (i : Nat)

theorem degree_fieldPolynomial : fieldPolynomial.degree = 8 := by
  rw [fieldPolynomial]
  compute_degree!

instance : Nontrivial ByteField := by
  refine AdjoinRoot.nontrivial fieldPolynomial ?_
  rw [degree_fieldPolynomial]
  decide

theorem two_eq_zero : (2 : ByteField) = 0 := by
  rw [← map_ofNat (AdjoinRoot.of fieldPolynomial) 2, show (2 : ZMod 2) = 0 from rfl, map_zero]

/-- The eighth power of `x` is what comes back when a bit is shifted out. -/
theorem fieldRoot_pow_eight : fieldRoot ^ 8 = fieldRoot ^ 4 + fieldRoot ^ 3 + fieldRoot + 1 := by
  have hzero : AdjoinRoot.mk fieldPolynomial (X ^ 8 + X ^ 4 + X ^ 3 + X + 1) = 0 :=
    AdjoinRoot.mk_self
  simp only [map_add, map_pow, map_one, AdjoinRoot.mk_X] at hzero
  linear_combination hzero -
    (fieldRoot ^ 4 + fieldRoot ^ 3 + fieldRoot + 1) * two_eq_zero

theorem coefficient_xor (v w : Bool) :
    coefficient (v ^^ w) = coefficient v + coefficient w := by
  cases v <;> cases w
  · simp [coefficient]
  · simp [coefficient]
  · simp [coefficient]
  · simp only [coefficient, Bool.xor_self, if_true, Bool.false_eq_true, if_false]
    linear_combination -two_eq_zero

theorem toField_zero : toField 0 = 0 := by simp [toField, coefficient]

theorem toField_one : toField 1 = 1 := by
  have hbits : ∀ i : Fin 8, Nat.testBit (1 : UInt8).toNat i = decide (i = 0) := by decide
  simp only [toField, hbits]
  simp [coefficient]

/-- Exclusive or is the addition of the field. -/
theorem toField_xor (a b : UInt8) : toField (a ^^^ b) = toField a + toField b := by
  rw [toField, toField, toField, ← Finset.sum_add_distrib]
  refine Finset.sum_congr rfl fun i _ => ?_
  rw [UInt8.toNat_xor, Nat.testBit_xor, coefficient_xor, add_mul]

/-- The bits of a double: each bit moves up, and the highest one comes back in four places. -/
theorem testBit_double (b : UInt8) {i : Nat} (hi : i < 8) :
    (double b).toNat.testBit i =
      ((decide (0 < i) && b.toNat.testBit (i - 1)) ^^
        (b.toNat.testBit 7 && decide (i ∈ [0, 1, 3, 4]))) := by
  have hall : ∀ b : UInt8, ∀ i < 8, (double b).toNat.testBit i =
      ((decide (0 < i) && b.toNat.testBit (i - 1)) ^^
        (b.toNat.testBit 7 && decide (i ∈ [0, 1, 3, 4]))) :=
    Bytes.forall_byte (by decide +kernel)
  exact hall b i hi

/-- Doubling is the multiplication by `x`. -/
theorem toField_double (b : UInt8) : toField (double b) = fieldRoot * toField b := by
  let c (i : Nat) : ByteField := coefficient (b.toNat.testBit i)
  have hbit (i : Fin 8) := testBit_double b i.isLt
  have hfalse : coefficient false = 0 := rfl
  have hbyte : toField b = c 0 + c 1 * fieldRoot + c 2 * fieldRoot ^ 2 + c 3 * fieldRoot ^ 3 +
      c 4 * fieldRoot ^ 4 + c 5 * fieldRoot ^ 5 + c 6 * fieldRoot ^ 6 + c 7 * fieldRoot ^ 7 := by
    simp [toField, Fin.sum_univ_eight, c]
  have hdouble : toField (double b) = c 7 + (c 0 + c 7) * fieldRoot + c 1 * fieldRoot ^ 2 +
      (c 2 + c 7) * fieldRoot ^ 3 + (c 3 + c 7) * fieldRoot ^ 4 + c 4 * fieldRoot ^ 5 +
      c 5 * fieldRoot ^ 6 + c 6 * fieldRoot ^ 7 := by
    simp [toField, hbit, coefficient_xor, Fin.sum_univ_eight, hfalse, c]
  linear_combination hdouble - fieldRoot * hbyte - c 7 * fieldRoot_pow_eight

/-! ## Products and inverses -/

/-- The product of two bytes: the sum of those doubles of the second one for which the first one has
a bit. -/
def multiply (a b : UInt8) : UInt8 :=
  (List.range 8).foldl (fun sum i => if a.toNat.testBit i then sum ^^^ double^[i] b else sum) 0

theorem toField_iterate_double (b : UInt8) (n : Nat) :
    toField (double^[n] b) = fieldRoot ^ n * toField b := by
  induction n with
  | zero => simp
  | succ n ih => rw [Function.iterate_succ_apply', toField_double, ih, pow_succ', mul_assoc]

/-- Adding up doubles of a byte is the product of the field. -/
theorem toField_multiply (a b : UInt8) : toField (multiply a b) = toField a * toField b := by
  have hsum (n : Nat) : toField ((List.range n).foldl
      (fun sum i => if a.toNat.testBit i then sum ^^^ double^[i] b else sum) 0) =
      (∑ i : Fin n, coefficient (a.toNat.testBit i) * fieldRoot ^ (i : Nat)) * toField b := by
    induction n with
    | zero => simp [toField_zero]
    | succ n ih =>
      rw [List.range_succ, List.foldl_append, List.foldl_cons, List.foldl_nil,
        Fin.sum_univ_castSucc, add_mul]
      simp only [Fin.val_castSucc, Fin.val_last]
      cases a.toNat.testBit n with
      | false => simp [ih, coefficient]
      | true => simp [ih, coefficient, toField_xor, toField_iterate_double]
  exact hsum 8

/-- The byte with the given bits. -/
def byteOfBits (bit : Nat → Bool) : UInt8 :=
  UInt8.ofNat ((List.range 8).map fun i => (bit i).toNat * 2 ^ i).sum

/-- The affine map of the substitution: each bit is added to four of the others and to a bit of
`0x63`. -/
def affine (b : UInt8) : UInt8 :=
  let bit (i : Nat) : Bool := b.toNat.testBit (i % 8)
  byteOfBits fun i =>
    bit i ^^ bit (i + 4) ^^ bit (i + 5) ^^ bit (i + 6) ^^ bit (i + 7) ^^ Nat.testBit 0x63 i

/-- The inverse of a byte. The substitute of a byte is the affine map of its inverse, so taking the
affine map back gives the inverse without a search. -/
def inverse (b : UInt8) : UInt8 :=
  let bit (i : Nat) : Bool := (substitute b).toNat.testBit (i % 8)
  byteOfBits fun i => bit (i + 2) ^^ bit (i + 5) ^^ bit (i + 7) ^^ Nat.testBit 0x05 i

theorem inverse_zero : inverse 0 = 0 := by decide +kernel

theorem affine_inverse : ∀ b : UInt8, affine (inverse b) = substitute b :=
  Bytes.forall_byte (by decide +kernel)

theorem multiply_inverse : ∀ b : UInt8, b ≠ 0 → multiply b (inverse b) = 1 :=
  Bytes.forall_byte (by decide +kernel)

theorem toField_mul_inverse {b : UInt8} (h : b ≠ 0) : toField b * toField (inverse b) = 1 := by
  rw [← toField_multiply, multiply_inverse b h, toField_one]

/-! ## The bytes are the field -/

theorem toField_injective : Function.Injective toField := by
  intro a b hab
  have hzero : toField (a ^^^ b) = 0 := by
    rw [toField_xor, hab, ← two_mul, two_eq_zero, zero_mul]
  refine UInt8.xor_eq_zero_iff.mp (by_contra fun hne => ?_)
  have hone := toField_mul_inverse hne
  rw [hzero, zero_mul] at hone
  exact zero_ne_one hone

/-- The elements of bytes contain the powers of `x` and their sums, and so all elements. -/
theorem toField_surjective : Function.Surjective toField := by
  intro element
  obtain ⟨polynomial, rfl⟩ := AdjoinRoot.mk_surjective element
  induction polynomial using Polynomial.induction_on' with
  | add p q hp hq =>
    obtain ⟨a, ha⟩ := hp
    obtain ⟨b, hb⟩ := hq
    exact ⟨a ^^^ b, by rw [toField_xor, ha, hb, map_add]⟩
  | monomial n c =>
    have hcoefficient : c = 0 ∨ c = 1 := by
      revert c
      decide
    rcases hcoefficient with rfl | rfl
    · exact ⟨0, by rw [toField_zero, map_zero, map_zero]⟩
    · refine ⟨double^[n] 1, ?_⟩
      rw [toField_iterate_double, toField_one, mul_one, monomial_one_right_eq_X_pow, map_pow,
        AdjoinRoot.mk_X]

theorem isField_byteField : IsField ByteField where
  exists_pair_ne := ⟨0, 1, zero_ne_one⟩
  mul_comm := mul_comm
  mul_inv_cancel := by
    intro element hne
    obtain ⟨b, rfl⟩ := toField_surjective element
    refine ⟨toField (inverse b), toField_mul_inverse ?_⟩
    rintro rfl
    exact hne toField_zero

/-- The polynomial of AES is irreducible. -/
theorem irreducible_fieldPolynomial : Irreducible fieldPolynomial := by
  have hne : fieldPolynomial ≠ 0 := by
    intro hzero
    have hdegree := degree_fieldPolynomial
    rw [hzero, degree_zero] at hdegree
    cases hdegree
  have hmaximal := Ideal.Quotient.maximal_of_isField _ isField_byteField
  exact ((Ideal.span_singleton_prime hne).mp hmaximal.isPrime).irreducible

instance : Fact (Irreducible fieldPolynomial) := ⟨irreducible_fieldPolynomial⟩

/-- The byte of an element. -/
noncomputable def ofField (element : ByteField) : UInt8 :=
  (Equiv.ofBijective toField ⟨toField_injective, toField_surjective⟩).symm element

theorem ofField_toField (b : UInt8) : ofField (toField b) = b :=
  (Equiv.ofBijective toField ⟨toField_injective, toField_surjective⟩).symm_apply_apply b

theorem toField_inverse (b : UInt8) : toField (inverse b) = (toField b)⁻¹ := by
  by_cases h : b = 0
  · rw [h, inverse_zero, toField_zero, inv_zero]
  · exact eq_inv_of_mul_eq_one_right (toField_mul_inverse h)

/-- **The table of substitutes is the affine map of the inverse in the field.** -/
theorem substitute_eq (b : UInt8) : substitute b = affine (ofField (toField b)⁻¹) := by
  rw [← toField_inverse, ofField_toField, affine_inverse]

end Aes

end KeySharing
