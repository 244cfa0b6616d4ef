import KeySharing.Der
import KeySharing.Pem
import KeySharing.Rsa.Key

/-!
# RSA keys as texts

Public keys stand in the SubjectPublicKeyInfo structure, private keys in PKCS #8 around PKCS #1.

- `Rsa.PublicKey.toDer`, `Rsa.PublicKey.toPem`: the exported form of a public key.
- `Rsa.PublicKey.ofDer`, `Rsa.PrivateKey.ofDer`: the readers. Both insist on the RSA algorithm
  with null parameters. A private key may be followed by a public key (in version 1, and only
  there) and by context-specific fields, which are ignored, as are the CRT values.
- `Rsa.PublicKey.ofPem`, `Rsa.PrivateKey.ofPem`: the same from PEM texts.
-/

namespace KeySharing

namespace Rsa

/-- The content of the algorithm identifier: the identifier of RSA encryption and a null. -/
def algorithmContent : Bytes :=
  Der.element Der.objectIdentifierTag [0x2a, 0x86, 0x48, 0x86, 0xf7, 0x0d, 0x01, 0x01, 0x01] ++
    Der.element Der.nullTag []

/-- The algorithm identifier. -/
def algorithmIdentifier : Bytes := Der.element Der.sequenceTag algorithmContent

/-- What follows an algorithm identifier for RSA. -/
def afterAlgorithm? (bytes : Bytes) : Option Bytes := do
  let (content, rest) ← Der.expect Der.sequenceTag bytes
  if content = algorithmContent then some rest else none

/-! ## Public keys -/

namespace PublicKey

/-- The longest modulus, in bits, that the reader of public keys admits. -/
def maxModulusBits : Nat := 4096

/-- The modulus and the exponent as a sequence. -/
def numbersDer (key : PublicKey) : Bytes :=
  Der.element Der.sequenceTag (Der.natural key.modulus ++ Der.natural key.exponent)

/-- The exported form of a public key. -/
def toDer (key : PublicKey) : Bytes :=
  Der.element Der.sequenceTag (algorithmIdentifier ++ Der.bitString key.numbersDer)

/-- The modulus and the exponent in the DER form of a public key. -/
def numbers? (der : Bytes) : Option (Nat × Nat) := do
  let content ← Der.expectOnly Der.sequenceTag der
  let rest ← afterAlgorithm? content
  let bits ← Der.expectOnly Der.bitStringTag rest
  let inner ← Der.bits? bits
  let numbers ← Der.expectOnly Der.sequenceTag inner
  match ← Der.naturals 2 numbers with
  | [modulus, exponent] => some (modulus, exponent)
  | _ => none

/-- The public key of a DER form. -/
def ofDer (der : Bytes) : Except KeyDefect PublicKey :=
  match numbers? der with
  | none => .error .notDer
  | some (modulus, exponent) =>
    if modulus < 1 <<< maxModulusBits then ofNumbers modulus exponent else .error .modulusTooLarge

/-- The label of PEM texts of public keys. -/
def pemLabel : String := "PUBLIC KEY"

/-- The exported form of a public key as a PEM text. -/
def toPem (key : PublicKey) : String := Pem.encode pemLabel key.toDer

/-- The public key of a PEM text. -/
def ofPem (text : String) : Except KeyDefect PublicKey :=
  match Pem.decode pemLabel text with
  | none => .error .notPem
  | some der => ofDer der

end PublicKey

/-! ## Private keys -/

namespace PrivateKey

/-- The numbers of a private key that its reader uses. -/
structure Numbers where
  /-- The modulus. -/
  modulus : Nat
  /-- The public exponent. -/
  publicExponent : Nat
  /-- The private exponent. -/
  exponent : Nat
  /-- The first factor. -/
  p : Nat
  /-- The second factor. -/
  q : Nat

/-- The numbers in a PKCS #1 private key with two factors; the last three are the CRT values. -/
def inner? (bytes : Bytes) : Option Numbers := do
  let content ← Der.expectOnly Der.sequenceTag bytes
  match ← Der.naturals 9 content with
  | [0, modulus, publicExponent, exponent, p, q, _, _, _] =>
    some ⟨modulus, publicExponent, exponent, p, q⟩
  | _ => none

/-- What follows the fields with the context-specific number 0 at the start. -/
def skipAttributes : (count : Nat) → Bytes → Option Bytes
  | 0, bytes => some bytes
  | _ + 1, [] => some []
  | count + 1, tag :: rest =>
    if Der.contextNumber? tag = some 0 then do
      let (_, _, rest) ← Der.readElement (tag :: rest)
      skipAttributes count rest
    else some (tag :: rest)

/-- The tag of the public key that may follow a private key. -/
def publicKeyTag : UInt8 := 0x81

/-- Whether a public key comes next, and what follows it. Another form of the field numbered 1 is
refused. -/
def skipPublicKey (bytes : Bytes) : Option (Bool × Bytes) :=
  match bytes with
  | [] => some (false, [])
  | tag :: _ =>
    if Der.contextNumber? tag = some 1 then do
      let (content, rest) ← Der.expect publicKeyTag bytes
      let _ ← Der.bits? content
      some (true, rest)
    else some (false, bytes)

/-- Whether the bytes are context-specific fields that hold one element each. -/
def areExtensions : (count : Nat) → Bytes → Bool
  | _, [] => true
  | 0, _ :: _ => false
  | count + 1, bytes =>
    match Der.readElement bytes with
    | none => false
    | some (tag, content, rest) =>
      (Der.contextNumber? tag).isSome && tag &&& 0x20 != 0 &&
        (match Der.readElement content with
          | some (_, _, []) => true
          | _ => false) &&
        areExtensions count rest

/-- The numbers in the DER form of a private key. -/
def numbers? (der : Bytes) : Option Numbers := do
  let content ← Der.expectOnly Der.sequenceTag der
  let (version, rest) ← Der.readNatural content
  let rest ← afterAlgorithm? rest
  let (key, rest) ← Der.expect Der.octetStringTag rest
  let rest ← skipAttributes rest.length rest
  let (hasPublicKey, rest) ← skipPublicKey rest
  if version = (if hasPublicKey then 1 else 0) ∧ areExtensions rest.length rest then
    inner? key
  else none

/-- The private key of a DER form. -/
def ofDer (der : Bytes) : Except KeyDefect PrivateKey :=
  match numbers? der with
  | none => .error .notDer
  | some numbers => do
    let publicKey ← PublicKey.ofNumbers numbers.modulus numbers.publicExponent
    ofNumbers publicKey numbers.exponent numbers.p numbers.q

/-- The label of PEM texts of private keys. -/
def pemLabel : String := "PRIVATE KEY"

/-- The private key of a PEM text. -/
def ofPem (text : String) : Except KeyDefect PrivateKey :=
  match Pem.decode pemLabel text with
  | none => .error .notPem
  | some der => ofDer der

end PrivateKey

end Rsa

end KeySharing
