import KeySharing.Bytes
import KeySharing.CryptoError

/-!
# RSA keys

The numbers of a key and the conditions on them that a reader checks; a key that exists meets
them.

- `Rsa.PublicKey`: an odd modulus of at most 2^27 bytes and an odd exponent between 3 and 2^33 - 1
  below it.
- `Rsa.PrivateKey`: the public half, two factors of its modulus and an exponent that inverts the
  public one with respect to both. The factors are not known to be prime.
- `Rsa.PublicKey.ofNumbers`, `Rsa.PrivateKey.ofNumbers`: the checks.
-/

namespace KeySharing

namespace Rsa

/-- The largest public exponent. -/
def maxExponent : Nat := 1 <<< 33 - 1

/-- The longest modulus in bytes. A longer one does not fit into a DER element together with its
factors, which is how the text of a private key holds it, and the reader of public keys stops far
below. -/
def maxModulusLength : Nat := 1 <<< 27

/-- A public key. -/
@[ext] structure PublicKey where
  /-- The modulus. -/
  modulus : Nat
  /-- The public exponent. -/
  exponent : Nat
  /-- The modulus is odd. -/
  modulus_odd : modulus % 2 = 1
  /-- The exponent is odd. -/
  exponent_odd : exponent % 2 = 1
  /-- The exponent is at least three. -/
  three_le_exponent : 3 ≤ exponent
  /-- The exponent is below the modulus. -/
  exponent_lt_modulus : exponent < modulus
  /-- The exponent is at most the largest one. -/
  exponent_le : exponent ≤ maxExponent
  /-- The modulus can be written. -/
  width_modulus_le : Bytes.width modulus ≤ maxModulusLength

namespace PublicKey

/-- The key of a modulus and an exponent. -/
def ofNumbers (modulus exponent : Nat) : Except KeyDefect PublicKey :=
  if hw : Bytes.width modulus ≤ maxModulusLength then
    if h : modulus % 2 = 1 ∧ exponent % 2 = 1 ∧ 3 ≤ exponent ∧ exponent < modulus ∧
        exponent ≤ maxExponent then
      .ok ⟨modulus, exponent, h.1, h.2.1, h.2.2.1, h.2.2.2.1, h.2.2.2.2, hw⟩
    else .error .unusableNumbers
  else .error .modulusTooLarge

/-- The length of the modulus in bytes. -/
def length (key : PublicKey) : Nat := Bytes.width key.modulus

end PublicKey

/-- A private key with two factors. -/
structure PrivateKey where
  /-- The public half. -/
  publicKey : PublicKey
  /-- The private exponent. -/
  exponent : Nat
  /-- The first factor of the modulus. -/
  p : Nat
  /-- The second factor of the modulus. -/
  q : Nat
  /-- The first factor is not trivial. -/
  one_lt_p : 1 < p
  /-- The second factor is not trivial. -/
  one_lt_q : 1 < q
  /-- The factors make up the modulus. -/
  modulus_eq : publicKey.modulus = p * q
  /-- The exponents are inverse modulo `p - 1`. -/
  inverse_p : publicKey.exponent * exponent % (p - 1) = 1
  /-- The exponents are inverse modulo `q - 1`. -/
  inverse_q : publicKey.exponent * exponent % (q - 1) = 1

namespace PrivateKey

/-- The key of a public half, an exponent and two factors. -/
def ofNumbers (publicKey : PublicKey) (exponent p q : Nat) : Except KeyDefect PrivateKey :=
  if hf : 1 < p ∧ 1 < q ∧ publicKey.modulus = p * q then
    if he : publicKey.exponent * exponent % (p - 1) = 1 ∧
        publicKey.exponent * exponent % (q - 1) = 1 then
      .ok ⟨publicKey, exponent, p, q, hf.1, hf.2.1, hf.2.2, he.1, he.2⟩
    else .error .wrongExponent
  else .error .wrongFactors

end PrivateKey

end Rsa

end KeySharing
