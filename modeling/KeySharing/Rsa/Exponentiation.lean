import KeySharing.Rsa.Key

/-!
# Exponentiation under RSA keys

- `Rsa.powMod`: powers modulo a number by squaring.
- `Rsa.inverse?`: inverses modulo a number by Euclid's algorithm (`Rsa.mul_mod_of_inverse?`).
- `Rsa.PublicKey.apply`, `Rsa.PrivateKey.apply`: the two permutations of the residues. The
  private one works modulo the two factors and puts the results together; where one factor has no
  inverse modulo the other, it works modulo the modulus.
-/

namespace KeySharing

namespace Rsa

/-- The power `base ^ exponent` modulo `modulus`, one bit of the exponent at a time from the
highest. -/
def powMod (base exponent modulus : Nat) : Nat :=
  (List.range (exponent.log2 + 1)).foldr
    (fun i acc =>
      let square := acc * acc % modulus
      if exponent.testBit i then square * base % modulus else square)
    (1 % modulus)

/-- Euclid's algorithm on `r₀` and `r₁`, where `s₀` and `s₁` are the factors by which a fixed number
gives them modulo another: the greatest common divisor and its factor. -/
def euclid : (fuel r₀ r₁ : Nat) → (s₀ s₁ : Int) → Nat × Int
  | 0, r₀, _, s₀, _ => (r₀, s₀)
  | fuel + 1, r₀, r₁, s₀, s₁ =>
    if r₁ = 0 then (r₀, s₀) else euclid fuel r₁ (r₀ % r₁) s₁ (s₀ - (r₀ / r₁ : Nat) * s₁)

/-- The inverse of `a` modulo `m`, if it has one. The remainders fall from `m`, so `m + 1` steps are
enough. -/
def inverse? (a m : Nat) : Option Nat :=
  let (divisor, factor) := euclid (m + 1) a m 1 0
  if divisor = 1 then some (factor % (m : Int)).toNat else none

/-! ## The permutations -/

/-- The public permutation. -/
def PublicKey.apply (key : PublicKey) (m : Nat) : Nat := powMod m key.exponent key.modulus

namespace PrivateKey

/-- The private permutation. -/
def apply (key : PrivateKey) (c : Nat) : Nat :=
  match inverse? key.q key.p with
  | none => powMod c key.exponent key.publicKey.modulus
  | some qInverse =>
    let mp := powMod c (key.exponent % (key.p - 1)) key.p
    let mq := powMod c (key.exponent % (key.q - 1)) key.q
    let h := ((((mp : Int) - mq) % key.p).toNat * qInverse) % key.p
    mq + key.q * h

end PrivateKey

/-! ## Inverses -/

/-- Euclid's algorithm keeps the factors right: if they give the two numbers it starts from, the
last one gives the divisor it ends with. -/
theorem dvd_euclid {a m : Int} : ∀ {fuel r₀ r₁ : Nat} {s₀ s₁ : Int},
    m ∣ s₀ * a - r₀ → m ∣ s₁ * a - r₁ →
      m ∣ (euclid fuel r₀ r₁ s₀ s₁).2 * a - (euclid fuel r₀ r₁ s₀ s₁).1
  | 0, _, _, _, _, h₀, _ => h₀
  | fuel + 1, r₀, r₁, s₀, s₁, h₀, h₁ => by
    rw [euclid]
    split
    · exact h₀
    · refine dvd_euclid h₁ ?_
      -- the new remainder is the old one less a multiple of the divisor, and so is its factor
      have hmod : ((r₀ % r₁ : Nat) : Int) = r₀ - r₁ * (r₀ / r₁ : Nat) := by
        have := Nat.mod_add_div r₀ r₁
        omega
      have hstep : (s₀ - (r₀ / r₁ : Nat) * s₁) * a - (r₀ % r₁ : Nat) =
          (s₀ * a - r₀) - (r₀ / r₁ : Nat) * (s₁ * a - r₁) := by
        rw [hmod, Int.sub_mul, Int.mul_sub, Int.mul_assoc, Int.mul_comm (r₁ : Int)]
        omega
      rw [hstep]
      exact Int.dvd_sub h₀ (Int.dvd_mul_of_dvd_right h₁)

theorem mul_mod_of_inverse? {a m b : Nat} (hm : 0 < m) (h : inverse? a m = some b) :
    a * b % m = 1 % m := by
  have hd : (m : Int) ∣ (euclid (m + 1) a m 1 0).2 * a - (euclid (m + 1) a m 1 0).1 :=
    dvd_euclid (by simp) (by simp)
  simp only [inverse?, Option.ite_none_right_eq_some, Option.some.injEq] at h
  obtain ⟨hone, hb⟩ := h
  rw [hone] at hd
  have hcast : (b : Int) = (euclid (m + 1) a m 1 0).2 % m := by
    rw [← hb, Int.toNat_of_nonneg (Int.emod_nonneg _ (by omega))]
  have hmod : ((a * b : Nat) : Int) % m = ((1 : Nat) : Int) % m := by
    rw [Int.natCast_mul, hcast, Int.mul_emod, Int.emod_emod, ← Int.mul_emod, Int.mul_comm]
    exact Int.emod_eq_emod_iff_emod_sub_eq_zero.mpr (Int.emod_eq_zero_of_dvd hd)
  exact_mod_cast hmod

end Rsa

end KeySharing
