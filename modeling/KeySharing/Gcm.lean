import KeySharing.Aes.KeySchedule
import KeySharing.CryptoError

/-!
# AES-128 in Galois/counter mode

Sealing masks the text with a key stream and appends a sixteen-byte tag over the associated data
and the masked text. Opening checks the tag before it unmasks, so no text is released without
its tag.

- `Gcm.multiply`, `Gcm.hash`: the field of 2^128 elements and the hash over it.
- `Gcm.mask`: counter mode; it is its own inverse (`Gcm.mask_mask`).
- `Gcm.encrypt`, `Gcm.decrypt`: the two directions under one key and nonce.
-/

namespace KeySharing

/-- The length of a nonce in bytes. -/
def nonceLength : Nat := 12

/-- The length of a tag in bytes. -/
def tagLength : Nat := 16

/-- A nonce of ninety-six bits. -/
abbrev Nonce := SizedBytes nonceLength

/-- The key of a byte string, if it has the length of one. -/
def Aes.Key.ofBytes (bytes : Bytes) : Except CryptoError Aes.Key :=
  if h : bytes.length = Aes.keyLength then .ok ⟨bytes, h⟩
  else .error (.invalidKeyLength Aes.keyLength bytes.length)

namespace Gcm

/-! ## The hash -/

/-- The coefficients that come back when the highest power overflows. -/
def reduction : BitVec 128 := 0xe1#128 <<< 120

/-- A field element times the variable; the first bit of a block is its constant term. -/
def timesVariable (v : BitVec 128) : BitVec 128 :=
  if v.getLsbD 0 then (v >>> 1) ^^^ reduction else v >>> 1

/-- The product of two field elements, one bit of `x` at a time. -/
def multiply (x y : BitVec 128) : BitVec 128 :=
  ((List.range 128).foldl
    (fun (acc : BitVec 128 × BitVec 128) i =>
      (if x.getMsbD i then acc.1 ^^^ acc.2 else acc.1, timesVariable acc.2))
    (0#128, y)).1

/-- A block as a field element. -/
def element (block : Aes.Block) : BitVec 128 := BitVec.ofNat 128 (Bytes.ofBigEndian block.toBytes)

/-- A byte string as blocks, the last one filled up with zeros. -/
def blocks (bytes : Bytes) : List Aes.Block := (Bytes.pieces 16 bytes).map Aes.Block.ofBytes

/-- The hash of associated data and masked text under the hash key `h`. -/
def hash (h : BitVec 128) (aad ciphertext : Bytes) : BitVec 128 :=
  let lengths := Aes.Block.ofBytes
    (Bytes.bigEndian 8 (8 * aad.length) ++ Bytes.bigEndian 8 (8 * ciphertext.length))
  (blocks aad ++ blocks ciphertext ++ [lengths]).foldl
    (fun acc block => multiply (acc ^^^ element block) h) 0#128

/-! ## Counter mode -/

/-- The block of a nonce and a counter. -/
def counterBlock (nonce : Nonce) (counter : Nat) : Aes.Block :=
  Aes.Block.ofBytes (nonce.val ++ Bytes.bigEndian 4 counter)

/-- The first `count` blocks of the key stream; the text starts at counter 2. -/
def keyStream (schedule : Aes.KeySchedule) (nonce : Nonce) (count : Nat) : Bytes :=
  (List.range count).flatMap fun i =>
    (schedule.encryptBlock (counterBlock nonce (i + 2))).toBytes

@[simp] theorem length_keyStream (schedule : Aes.KeySchedule) (nonce : Nonce) (count : Nat) :
    (keyStream schedule nonce count).length = 16 * count := by
  induction count with
  | zero => rfl
  | succ count ih =>
    have h := ih
    simp only [keyStream] at h ⊢
    rw [List.range_succ, List.flatMap_append, List.length_append, h]
    simp
    omega

/-- The text masked with the key stream. -/
def mask (schedule : Aes.KeySchedule) (nonce : Nonce) (text : Bytes) : Bytes :=
  text.xor (keyStream schedule nonce ((text.length + 15) / 16))

@[simp] theorem length_mask (schedule : Aes.KeySchedule) (nonce : Nonce) (text : Bytes) :
    (mask schedule nonce text).length = text.length := by
  rw [mask, Bytes.length_xor, length_keyStream]
  omega

/-- Masking twice gives the text back. -/
@[simp] theorem mask_mask (schedule : Aes.KeySchedule) (nonce : Nonce) (text : Bytes) :
    mask schedule nonce (mask schedule nonce text) = text := by
  have hlen := length_mask schedule nonce text
  rw [mask, hlen, mask]
  apply Bytes.xor_xor_cancel_right
  rw [length_keyStream]
  omega

/-- The tag of associated data and masked text. -/
def tag (schedule : Aes.KeySchedule) (nonce : Nonce) (aad ciphertext : Bytes) : Bytes :=
  let h := element (schedule.encryptBlock (Aes.Block.ofBytes []))
  let digest := Bytes.bigEndian 16 (hash h aad ciphertext).toNat
  digest.xor (schedule.encryptBlock (counterBlock nonce 1)).toBytes

@[simp] theorem length_tag (schedule : Aes.KeySchedule) (nonce : Nonce) (aad ciphertext : Bytes) :
    (tag schedule nonce aad ciphertext).length = 16 := by
  simp [tag]

/-! ## Sealing and opening -/

/-- The longest text, in bytes. -/
def maxTextLength : Nat := 1 <<< 36

/-- The longest associated data, in bytes. -/
def maxAadLength : Nat := 1 <<< 36

/-- The masked text followed by its tag. -/
def encrypt (key : Aes.Key) (nonce : Nonce) (aad text : Bytes) : Except CryptoError Bytes :=
  if text.length ≤ maxTextLength ∧ aad.length ≤ maxAadLength then
    let schedule := Aes.expand key
    let ciphertext := mask schedule nonce text
    .ok (ciphertext ++ tag schedule nonce aad ciphertext)
  else .error (.encryptionFailed "aead::Error")

/-- The text of a sealed byte string whose tag is right. -/
def decrypt (key : Aes.Key) (nonce : Nonce) (aad blob : Bytes) : Except CryptoError Bytes :=
  if blob.length < tagLength then .error .dataTooShort
  else
    let schedule := Aes.expand key
    let ciphertext := blob.take (blob.length - tagLength)
    if ciphertext.length ≤ maxTextLength + 16 ∧ aad.length ≤ maxAadLength ∧
        blob.drop (blob.length - tagLength) = tag schedule nonce aad ciphertext then
      .ok (mask schedule nonce ciphertext)
    else .error .authenticationFailed

end Gcm

end KeySharing
