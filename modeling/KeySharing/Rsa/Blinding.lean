import KeySharing.Rsa.Exponentiation

/-!
# Blinded inversion

The private permutation is never applied to a ciphertext itself. The ciphertext is first
multiplied by the image of a blinding factor, and the result is freed of the factor afterwards, so
that the time the exponentiation takes says nothing about the ciphertext. The factor is drawn anew
for every inversion, until it has an inverse, and nothing else is asked of it. So it is a parameter
of the inversion, and what is said about an inversion is said for every factor.

- `Rsa.Blinding`: a factor with its inverse.
- `Rsa.Blindings`: the choice of the blindings of all decryptions. `Rsa.Blindings.two` makes runs
  that can be repeated.
- `Rsa.PrivateKey.invert?`: the blinded inversion with its result checked.
- `Rsa.PrivateKey.apply_of_invert?`, `Rsa.PrivateKey.lt_of_invert?`: what it finds is a preimage and
  a residue, whatever the factors of the modulus are.

Where the private permutation inverts the public one, blinding changes nothing. Where it does not,
as with factors that are not prime, the blinded result need not be a preimage, even for a ciphertext
on which the two happen to agree, and what is found depends on the factor.
-/

namespace KeySharing

namespace Rsa

/-- A factor that has an inverse modulo a number. -/
structure Blinding (modulus : Nat) where
  /-- The factor. -/
  factor : Nat
  /-- The inverse. -/
  inverse : Nat
  /-- The two are inverse to each other. -/
  factor_mul_inverse : factor * inverse % modulus = 1 % modulus

/-- The blinding by two, which has an inverse modulo every odd number. -/
def Blinding.two {modulus : Nat} (h : modulus % 2 = 1) : Blinding modulus where
  factor := 2
  inverse := (modulus + 1) / 2
  factor_mul_inverse := by
    have hdouble : 2 * ((modulus + 1) / 2) = modulus + 1 := by omega
    rw [hdouble, Nat.add_mod_left]

/-- A choice of blindings, one for every private key and every ciphertext. -/
abbrev Blindings := (key : PrivateKey) → (ciphertext : Bytes) → Blinding key.publicKey.modulus

/-- The blindings by two, for runs that are to be repeated. -/
def Blindings.two : Blindings := fun key _ => .two key.publicKey.modulus_odd

theorem PublicKey.modulus_pos (key : PublicKey) : 0 < key.modulus := by
  have := key.exponent_lt_modulus
  omega

namespace PrivateKey

/-- The residue that the public permutation takes to `c`, if the private one finds it under
blinding. -/
def invert? (key : PrivateKey) (blinding : Blinding key.publicKey.modulus) (c : Nat) :
    Option Nat :=
  let modulus := key.publicKey.modulus
  let blinded := c * key.publicKey.apply blinding.factor % modulus
  let m := key.apply blinded * blinding.inverse % modulus
  if key.publicKey.apply m = c then some m else none

section
variable {key : PrivateKey} {blinding : Blinding key.publicKey.modulus} {c m : Nat}

theorem apply_of_invert? (h : key.invert? blinding c = some m) : key.publicKey.apply m = c := by
  simp only [invert?, Option.ite_none_right_eq_some, Option.some.injEq] at h
  rw [← h.2, h.1]

theorem lt_of_invert? (h : key.invert? blinding c = some m) : m < key.publicKey.modulus := by
  simp only [invert?, Option.ite_none_right_eq_some, Option.some.injEq] at h
  rw [← h.2]
  exact Nat.mod_lt _ key.publicKey.modulus_pos

end

end PrivateKey

end Rsa

end KeySharing
