import KeySharing.Rsa.Blinding
import Mathlib.FieldTheory.Finite.Basic

/-!
# The private permutation inverts the public one

A private key is only known to hold two factors of its modulus and an exponent that inverts the
public one modulo each factor less one. Where the factors are distinct primes, the two permutations
are inverse to each other: by Fermat's theorem modulo either factor, also for residues that a factor
divides, and by the Chinese remainder theorem modulo the modulus. This holds for both ways to
compute the private one.

- `Rsa.powMod_eq`: powers by squaring.
- `Rsa.pow_modEq_self`: powers with an exponent that is one modulo `p - 1`.
- `Rsa.garner`: the number put together from two residues; it has these residues.
- `Rsa.PrivateKey.HasPrimeFactors`: the condition on the factors.
- `Rsa.PrivateKey.apply_modEq_first`, `Rsa.PrivateKey.apply_modEq_second`: the private permutation
  modulo either factor.
- `Rsa.PrivateKey.apply_publicKey_apply`: the private permutation undoes the public one.
- `Rsa.PrivateKey.invert?_publicKey_apply`: so does the blinded inversion, for every factor.
-/

namespace KeySharing

namespace Rsa

/-! ## Powers by squaring -/

/-- The bits of `exponent` from position `k` up give the power with exponent `exponent / 2 ^ k`. -/
theorem foldr_square (base exponent modulus k n : Nat) :
    (List.range' k n).foldr
      (fun i acc =>
        if exponent.testBit i then acc * acc % modulus * base % modulus else acc * acc % modulus)
      (base ^ (exponent / 2 ^ (k + n)) % modulus) = base ^ (exponent / 2 ^ k) % modulus := by
  induction n generalizing k with
  | zero => simp
  | succ n ih =>
    have hstep := ih (k + 1)
    rw [show k + 1 + n = k + (n + 1) by omega] at hstep
    rw [List.range'_succ, List.foldr_cons, hstep]
    have hdiv : exponent / 2 ^ k =
        2 * (exponent / 2 ^ (k + 1)) + exponent / 2 ^ k % 2 := by
      rw [Nat.pow_succ, ← Nat.div_div_eq_div_mul]
      omega
    rw [Nat.testBit_eq_decide_div_mod_eq]
    generalize exponent / 2 ^ (k + 1) = half at hdiv
    generalize exponent / 2 ^ k = whole at hdiv
    have hsq : base ^ half % modulus * (base ^ half % modulus) % modulus =
        base ^ (2 * half) % modulus := by
      rw [← Nat.mul_mod, ← Nat.pow_add, Nat.two_mul]
    rcases Nat.mod_two_eq_zero_or_one whole with h | h
    · rw [h, Nat.add_zero] at hdiv
      simp [hsq, hdiv]
    · rw [h] at hdiv
      rw [hsq, h, hdiv, Nat.pow_succ]
      simp

theorem powMod_eq (base exponent modulus : Nat) :
    powMod base exponent modulus = base ^ exponent % modulus := by
  have h := foldr_square base exponent modulus 0 (exponent.log2 + 1)
  have hzero : exponent / 2 ^ (0 + (exponent.log2 + 1)) = 0 := by
    apply Nat.div_eq_of_lt
    rw [Nat.zero_add]
    exact Nat.lt_log2_self
  rw [hzero, Nat.pow_zero] at h
  rw [powMod, List.range_eq_range']
  simpa using h

theorem PublicKey.apply_eq (key : PublicKey) (m : Nat) :
    key.apply m = m ^ key.exponent % key.modulus := powMod_eq _ _ _

theorem PublicKey.apply_lt (key : PublicKey) (m : Nat) : key.apply m < key.modulus := by
  rw [PublicKey.apply_eq]
  exact Nat.mod_lt _ key.modulus_pos

/-! ## Powers modulo a prime -/

/-- A residue to a power that is one modulo `p - 1` is the residue, also if `p` divides it. -/
theorem pow_modEq_self {p a : Nat} (hp : p.Prime) (ha : a % (p - 1) = 1) (x : Nat) :
    x ^ a ≡ x [MOD p] := by
  by_cases hdvd : p ∣ x
  · have hpos : a ≠ 0 := by
      rintro rfl
      simp at ha
    exact ((Nat.modEq_zero_iff_dvd.mpr (dvd_pow hdvd hpos))).trans
      (Nat.modEq_zero_iff_dvd.mpr hdvd).symm
  · have hcoprime : Nat.Coprime x p := ((Nat.Prime.coprime_iff_not_dvd hp).mpr hdvd).symm
    have hfermat : x ^ (p - 1) ≡ 1 [MOD p] := by
      have := Nat.ModEq.pow_totient hcoprime
      rwa [Nat.totient_prime hp] at this
    have hexp : a = (p - 1) * (a / (p - 1)) + 1 := by
      conv_lhs => rw [← Nat.div_add_mod a (p - 1), ha]
    calc x ^ a = (x ^ (p - 1)) ^ (a / (p - 1)) * x := by
          conv_lhs => rw [hexp, pow_succ, pow_mul]
      _ ≡ 1 ^ (a / (p - 1)) * x [MOD p] := (hfermat.pow _).mul_right x
      _ = x := by rw [one_pow, one_mul]

/-- The private power undoes the public one modulo a prime factor of the modulus. -/
theorem pow_mod_pow_modEq {p n e d : Nat} (hp : p.Prime) (hdvd : p ∣ n)
    (hinv : e * d % (p - 1) = 1) (x : Nat) : (x ^ e % n) ^ d ≡ x [MOD p] := by
  calc (x ^ e % n) ^ d ≡ (x ^ e) ^ d [MOD p] := ((Nat.mod_modEq _ _).of_dvd hdvd).pow d
    _ = x ^ (e * d) := (pow_mul x e d).symm
    _ ≡ x [MOD p] := pow_modEq_self hp hinv x

/-- So does the power with the exponent that belongs to the prime. -/
theorem pow_reduced_modEq {p n e d : Nat} (hp : p.Prime) (hdvd : p ∣ n)
    (hinv : e * d % (p - 1) = 1) (x : Nat) : (x ^ e % n) ^ (d % (p - 1)) % p ≡ x [MOD p] := by
  have hreduced : e * (d % (p - 1)) % (p - 1) = 1 := by rw [Nat.mul_mod_mod, hinv]
  exact (Nat.mod_modEq _ _).trans (pow_mod_pow_modEq hp hdvd hreduced x)

/-! ## Putting residues together -/

/-- The number made of the residue `b` modulo `q` and a correction that gives it the residue `a`
modulo `p`, where `inverse` is inverse to `q` modulo `p`. -/
def garner (p q inverse a b : Nat) : Nat :=
  b + q * ((((a : Int) - b) % p).toNat * inverse % p)

theorem garner_modEq_first {p q inverse : Nat} (hp : 0 < p) (hinv : q * inverse % p = 1 % p)
    (a b : Nat) : garner p q inverse a b ≡ a [MOD p] := by
  have hdiff : b + (((a : Int) - b) % p).toNat ≡ a [MOD p] := by
    rw [← Int.natCast_modEq_iff, Nat.cast_add,
      Int.toNat_of_nonneg (Int.emod_nonneg _ (Int.natCast_ne_zero.mpr hp.ne'))]
    calc (b : Int) + ((a : Int) - b) % p ≡ b + (a - b) [ZMOD p] := (Int.mod_modEq _ _).add_left b
      _ = a := by ring
  calc b + q * ((((a : Int) - b) % p).toNat * inverse % p)
      ≡ b + q * ((((a : Int) - b) % p).toNat * inverse) [MOD p] :=
        ((Nat.mod_modEq _ _).mul_left q).add_left b
    _ = b + (q * inverse) * (((a : Int) - b) % p).toNat := by ring
    _ ≡ b + 1 * (((a : Int) - b) % p).toNat [MOD p] := (Nat.ModEq.mul_right _ hinv).add_left b
    _ = b + (((a : Int) - b) % p).toNat := by rw [one_mul]
    _ ≡ a [MOD p] := hdiff

theorem garner_modEq_second (p q inverse a b : Nat) : garner p q inverse a b ≡ b [MOD q] :=
  Nat.add_mul_mod_self_left _ _ _

theorem garner_lt {p q inverse a b : Nat} (hp : 0 < p) (hb : b < q) :
    garner p q inverse a b < p * q := by
  rw [garner]
  generalize hcorrection : _ * inverse % p = correction
  have hlt : correction < p := hcorrection ▸ Nat.mod_lt _ hp
  calc b + q * correction < q + q * correction := Nat.add_lt_add_right hb _
    _ = (correction + 1) * q := by ring
    _ ≤ p * q := Nat.mul_le_mul_right _ hlt

namespace PrivateKey

/-! ## The two ways to compute the private permutation -/

variable {key : PrivateKey}

theorem apply_of_none (h : inverse? key.q key.p = none) (c : Nat) :
    key.apply c = c ^ key.exponent % key.publicKey.modulus := by
  rw [apply, h]
  exact powMod_eq _ _ _

theorem apply_of_some {inverse : Nat} (h : inverse? key.q key.p = some inverse) (c : Nat) :
    key.apply c = garner key.p key.q inverse (c ^ (key.exponent % (key.p - 1)) % key.p)
      (c ^ (key.exponent % (key.q - 1)) % key.q) := by
  rw [apply, h]
  simp only [powMod_eq]
  rfl

/-- The private permutation gives residues. -/
theorem apply_lt (key : PrivateKey) (c : Nat) : key.apply c < key.publicKey.modulus := by
  cases h : inverse? key.q key.p with
  | none =>
    rw [apply_of_none h]
    exact Nat.mod_lt _ key.publicKey.modulus_pos
  | some inverse =>
    rw [apply_of_some h, key.modulus_eq]
    exact garner_lt (Nat.zero_lt_of_lt key.one_lt_p)
      (Nat.mod_lt _ (Nat.zero_lt_of_lt key.one_lt_q))

/-! ## Prime factors -/

/-- The factors of the modulus are distinct primes. -/
structure HasPrimeFactors (key : PrivateKey) : Prop where
  prime_p : key.p.Prime
  prime_q : key.q.Prime
  p_ne_q : key.p ≠ key.q

/-- Residues that agree modulo both factors agree. -/
theorem HasPrimeFactors.eq_of_modEq (h : key.HasPrimeFactors) {x y : Nat}
    (hx : x < key.publicKey.modulus) (hy : y < key.publicKey.modulus)
    (hp : x ≡ y [MOD key.p]) (hq : x ≡ y [MOD key.q]) : x = y := by
  have hcoprime : Nat.Coprime key.p key.q :=
    (Nat.coprime_primes h.prime_p h.prime_q).mpr h.p_ne_q
  have hmod := (Nat.modEq_and_modEq_iff_modEq_mul hcoprime).mp ⟨hp, hq⟩
  rw [← key.modulus_eq] at hmod
  exact hmod.eq_of_lt_of_lt hx hy

/-- Modulo the first factor, both ways to compute the private permutation undo the public one. -/
theorem apply_modEq_first (hp : key.p.Prime) (x : Nat) :
    key.apply (key.publicKey.apply x) ≡ x [MOD key.p] := by
  have hdvd : key.p ∣ key.publicKey.modulus := ⟨key.q, key.modulus_eq⟩
  rw [PublicKey.apply_eq]
  cases hinv : inverse? key.q key.p with
  | none =>
    rw [apply_of_none hinv]
    exact ((Nat.mod_modEq _ _).of_dvd hdvd).trans (pow_mod_pow_modEq hp hdvd key.inverse_p x)
  | some inverse =>
    rw [apply_of_some hinv]
    exact (garner_modEq_first hp.pos (mul_mod_of_inverse? hp.pos hinv) _ _).trans
      (pow_reduced_modEq hp hdvd key.inverse_p x)

/-- So they do modulo the second factor, of which the correction is a multiple. -/
theorem apply_modEq_second (hq : key.q.Prime) (x : Nat) :
    key.apply (key.publicKey.apply x) ≡ x [MOD key.q] := by
  have hdvd : key.q ∣ key.publicKey.modulus := ⟨key.p, by rw [key.modulus_eq, Nat.mul_comm]⟩
  rw [PublicKey.apply_eq]
  cases hinv : inverse? key.q key.p with
  | none =>
    rw [apply_of_none hinv]
    exact ((Nat.mod_modEq _ _).of_dvd hdvd).trans (pow_mod_pow_modEq hq hdvd key.inverse_q x)
  | some inverse =>
    rw [apply_of_some hinv]
    exact (garner_modEq_second _ _ _ _ _).trans (pow_reduced_modEq hq hdvd key.inverse_q x)

/-- **The private permutation undoes the public one** if the factors are distinct primes. -/
theorem apply_publicKey_apply (h : key.HasPrimeFactors) {x : Nat}
    (hx : x < key.publicKey.modulus) : key.apply (key.publicKey.apply x) = x :=
  h.eq_of_modEq (key.apply_lt _) hx (apply_modEq_first h.prime_p x)
    (apply_modEq_second h.prime_q x)

/-! ## Blinding -/

/-- Where the private permutation inverts the public one, so does the blinded inversion, for every
factor. -/
theorem invert?_apply (h : ∀ x, x < key.publicKey.modulus → key.apply (key.publicKey.apply x) = x)
    (blinding : Blinding key.publicKey.modulus) {m : Nat} (hm : m < key.publicKey.modulus) :
    key.invert? blinding (key.publicKey.apply m) = some m := by
  -- the blinded ciphertext is the ciphertext of the blinded residue
  have hblinded :
      key.publicKey.apply m * key.publicKey.apply blinding.factor % key.publicKey.modulus =
        key.publicKey.apply (m * blinding.factor % key.publicKey.modulus) := by
    rw [PublicKey.apply_eq, PublicKey.apply_eq, PublicKey.apply_eq, ← Nat.mul_mod, ← Nat.mul_pow,
      ← Nat.pow_mod]
  have hfree : m * blinding.factor % key.publicKey.modulus * blinding.inverse %
      key.publicKey.modulus = m := by
    rw [Nat.mod_mul_mod, Nat.mul_assoc, Nat.mul_mod, blinding.factor_mul_inverse, ← Nat.mul_mod,
      Nat.mul_one, Nat.mod_eq_of_lt hm]
  simp only [invert?, hblinded, h _ (Nat.mod_lt _ key.publicKey.modulus_pos), hfree, if_true]

/-- The blinded inversion finds every residue that was encrypted, under every blinding. -/
theorem invert?_publicKey_apply (h : key.HasPrimeFactors)
    (blinding : Blinding key.publicKey.modulus) {x : Nat} (hx : x < key.publicKey.modulus) :
    key.invert? blinding (key.publicKey.apply x) = some x :=
  invert?_apply (fun _ hy => apply_publicKey_apply h hy) blinding hx

end PrivateKey

end Rsa

end KeySharing
