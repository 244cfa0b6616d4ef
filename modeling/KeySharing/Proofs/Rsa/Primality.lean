import KeySharing.Proofs.Rsa.Inversion
import KeySharing.Proofs.Rsa.KeyTexts
import Mathlib.NumberTheory.LucasPrimality

/-!
# Keys whose factors are prime

The factors of a key are not tested for primality, so where a result asks for prime factors somebody
has to know that they are. Lucas's test gives a certificate that the powers of the permutations can
check: a base whose order is the factor less one.

- `Rsa.prime_of_powMod`: Lucas's test in terms of `Rsa.powMod`.
- `Rsa.prime_three_mul_two_pow`: the test for one more than three times a power of two, where it
  takes three powers.
- `Rsa.PrivateKey.certified`: a key with two such factors
  (`Rsa.PrivateKey.hasPrimeFactors_certified`), and that its texts are read
  (`Rsa.PrivateKey.ofPem_publicKey_certified`, `Rsa.PrivateKey.ofPem_certified`).
-/

namespace KeySharing

namespace Rsa

/-- A number is prime if the powers of a base modulo the number reach one at the number less one and
at no exponent that lacks a prime factor of it. -/
theorem prime_of_powMod {p base : Nat} (hp : 1 < p) (hone : powMod base (p - 1) p = 1)
    (hproper : ∀ q, q.Prime → q ∣ p - 1 → powMod base ((p - 1) / q) p ≠ 1) : p.Prime := by
  have hpow : ∀ n, (base : ZMod p) ^ n = 1 ↔ powMod base n p = 1 := by
    intro n
    rw [powMod_eq, ← Nat.cast_pow, ← Nat.cast_one, ZMod.natCast_eq_natCast_iff',
      Nat.mod_eq_of_lt hp]
  refine lucas_primality p (base : ZMod p) ((hpow _).mpr hone) ?_
  intro q hq hdvd h
  exact hproper q hq hdvd ((hpow _).mp h)

/-- The test for `3 * 2 ^ k + 1`: two and three are the only primes to try. -/
theorem prime_three_mul_two_pow (k base : Nat) (hk : 0 < k)
    (hone : powMod base (3 * 2 ^ k) (3 * 2 ^ k + 1) = 1)
    (hhalf : powMod base (3 * 2 ^ (k - 1)) (3 * 2 ^ k + 1) ≠ 1)
    (hthird : powMod base (2 ^ k) (3 * 2 ^ k + 1) ≠ 1) : (3 * 2 ^ k + 1).Prime := by
  have hpow : 2 ^ (k - 1) * 2 = 2 ^ k := Nat.pow_pred_mul hk
  have hpos : 0 < 2 ^ k := Nat.two_pow_pos k
  have hquotient : 3 * 2 ^ k / 2 = 3 * 2 ^ (k - 1) := by omega
  refine prime_of_powMod (by omega) (by rwa [Nat.add_sub_cancel]) ?_
  intro q hq hdvd
  rw [Nat.add_sub_cancel] at hdvd ⊢
  rcases (Nat.Prime.dvd_mul hq).mp hdvd with hthree | htwo
  · obtain rfl : q = 3 := (Nat.prime_dvd_prime_iff_eq hq Nat.prime_three).mp hthree
    rwa [Nat.mul_div_cancel_left _ (by decide)]
  · obtain rfl : q = 2 :=
      (Nat.prime_dvd_prime_iff_eq hq Nat.prime_two).mp (hq.dvd_of_dvd_pow htwo)
    rwa [hquotient]

namespace PrivateKey

/-- A key of 96 bytes whose factors are one more than three times a power of two. -/
def certified : PrivateKey where
  publicKey := {
    modulus := (3 * 2 ^ 353 + 1) * (3 * 2 ^ 408 + 1)
    exponent := 5
    modulus_odd := by decide +kernel
    exponent_odd := by decide
    three_le_exponent := by decide
    exponent_lt_modulus := by decide +kernel
    exponent_le := by decide
    width_modulus_le := by decide +kernel }
  exponent := (9 * 2 ^ 408 + 1) / 5
  p := 3 * 2 ^ 353 + 1
  q := 3 * 2 ^ 408 + 1
  one_lt_p := by decide +kernel
  one_lt_q := by decide +kernel
  modulus_eq := by decide +kernel
  inverse_p := by decide +kernel
  inverse_q := by decide +kernel

theorem hasPrimeFactors_certified : certified.HasPrimeFactors where
  prime_p := prime_three_mul_two_pow 353 5 (by decide) (by decide +kernel)
    (by decide +kernel) (by decide +kernel)
  prime_q := prime_three_mul_two_pow 408 11 (by decide) (by decide +kernel)
    (by decide +kernel) (by decide +kernel)
  p_ne_q := by decide +kernel

theorem length_certified : certified.publicKey.length = 96 := by decide +kernel

/-! ## Its texts -/

/-- The PKCS #8 form of a private key. The last of the CRT values inverts the second factor modulo
the first one, which is prime. -/
def toDer (key : PrivateKey) : Bytes :=
  let numbers := [0, key.publicKey.modulus, key.publicKey.exponent, key.exponent, key.p, key.q,
    key.exponent % (key.p - 1), key.exponent % (key.q - 1), powMod key.q (key.p - 2) key.p]
  Der.element Der.sequenceTag (Der.natural 0 ++ algorithmIdentifier ++
    Der.element Der.octetStringTag (Der.element Der.sequenceTag (numbers.flatMap Der.natural)))

/-- The PKCS #8 form of a private key as a PEM text. -/
def toPem (key : PrivateKey) : String := Pem.encode pemLabel key.toDer

/-- The numbers of a private key say everything about it. -/
theorem eq_of_numbers {k l : PrivateKey} (hmodulus : k.publicKey.modulus = l.publicKey.modulus)
    (hpublic : k.publicKey.exponent = l.publicKey.exponent) (hexponent : k.exponent = l.exponent)
    (hp : k.p = l.p) (hq : k.q = l.q) : k = l := by
  have hkey : k.publicKey = l.publicKey := PublicKey.ext hmodulus hpublic
  cases k
  cases l
  simp_all

theorem ofPem_publicKey_certified :
    PublicKey.ofPem certified.publicKey.toPem = .ok certified.publicKey :=
  PublicKey.ofPem_toPem (by decide +kernel)

theorem ofPem_certified : ofPem certified.toPem = .ok certified := by
  have hdecode : Pem.decode pemLabel certified.toPem = some certified.toDer :=
    Pem.decode_encode pemLabel (List.cons_ne_nil _ _)
  have hnumbers : (ofDer certified.toDer).toOption.map (fun key =>
      (key.publicKey.modulus, key.publicKey.exponent, key.exponent, key.p, key.q)) =
        some (certified.publicKey.modulus, certified.publicKey.exponent, certified.exponent,
          certified.p, certified.q) := by
    decide +kernel
  have hread : ofPem certified.toPem = ofDer certified.toDer := by
    rw [ofPem, hdecode]
  rw [hread]
  cases h : ofDer certified.toDer with
  | error defect =>
    rw [h] at hnumbers
    cases hnumbers
  | ok key =>
    rw [h] at hnumbers
    have hfields := Option.some.inj hnumbers
    simp only [Prod.mk.injEq] at hfields
    obtain ⟨hmodulus, hpublic, hexponent, hp, hq⟩ := hfields
    rw [eq_of_numbers hmodulus hpublic hexponent hp hq]

end PrivateKey

end Rsa

end KeySharing
