import KeySharing.Proofs.Rsa.EncodedMessage
import KeySharing.Proofs.Rsa.Encryption
import KeySharing.Proofs.Rsa.Primality

/-!
# The outcome of encryption

Encryption checks two lengths and draws a seed, and each of these can fail. What comes behind looks
as if it could fail as well, in a program that works on buffers and on numbers of any size: the
fields need room in the padded block, the permutation is for residues of the modulus only, and the
bytes of the result have to fit into the length of the modulus. None of these ever fails, because
the checks in front are exactly what they need.

- `Oaep.EncryptionFault`: the three places that could fail.
- `Oaep.encryptInPlace`: encryption with all of these places, and an error for each of them.
- `Oaep.encryptInPlace_eq`: whatever the errors are, it is encryption, so none of them is reached.
- `Oaep.encryption_outcome`: the outcome of encryption for every key, label, message and script of
  random bytes.
-/

namespace KeySharing

namespace Oaep

open Rsa (PublicKey PrivateKey)

variable {σ : Type}

/-! ## Numbers as bytes -/

/-- The bytes of a number, as few as possible; zero has one. -/
def numberBytes (n : Nat) : Bytes := if n = 0 then [0] else Bytes.bigEndian (Bytes.width n) n

/-- A byte string with as many zeros in front as a length asks for, if it is not longer. -/
def leftPad? (length : Nat) (bytes : Bytes) : Option Bytes := do
  let start ← Nat.psub length bytes.length
  overwrite? (List.replicate length 0) start bytes

theorem ofBigEndian_numberBytes (n : Nat) : Bytes.ofBigEndian (numberBytes n) = n := by
  rw [numberBytes]
  split
  · rename_i hzero
    rw [hzero]
    rfl
  · rw [Bytes.ofBigEndian_bigEndian, Nat.mod_eq_of_lt (Bytes.lt_pow_width n)]

theorem length_numberBytes_le {n length : Nat} (hlength : 0 < length) (h : n < 256 ^ length) :
    (numberBytes n).length ≤ length := by
  rw [numberBytes]
  split
  · exact hlength
  · rw [Bytes.length_bigEndian]
    exact Bytes.width_le_of_lt h

/-- Zeros in front do not change a number. -/
theorem ofBigEndian_replicate_append (count : Nat) (bytes : Bytes) :
    Bytes.ofBigEndian (List.replicate count 0 ++ bytes) = Bytes.ofBigEndian bytes := by
  induction count with
  | zero => rfl
  | succ count ih => rw [List.replicate_succ, List.cons_append, Bytes.ofBigEndian_zero_cons, ih]

/-- A byte string of a given length with a given number is the written form of the number. -/
theorem eq_bigEndian {bytes : Bytes} {length n : Nat} (hlength : bytes.length = length)
    (hn : Bytes.ofBigEndian bytes = n) : bytes = Bytes.bigEndian length n := by
  rw [← hlength, ← hn, Bytes.bigEndian_ofBigEndian]

/-- A number below the power of the length has room, and padding gives its written form. -/
theorem leftPad?_numberBytes {n length : Nat} (hlength : 0 < length) (h : n < 256 ^ length) :
    leftPad? length (numberBytes n) = some (Bytes.bigEndian length n) := by
  have hle := length_numberBytes_le hlength h
  obtain ⟨start, hstart⟩ : ∃ start, length = start + (numberBytes n).length :=
    ⟨length - (numberBytes n).length, by omega⟩
  have hpsub : Nat.psub length (numberBytes n).length = some start := by
    rw [Nat.psub_eq_sub hle]
    exact congrArg some (by omega)
  have hwritten : overwrite? (List.replicate length 0) start (numberBytes n) =
      some (List.replicate start 0 ++ numberBytes n) := by
    rw [hstart, List.replicate_add]
    exact overwrite?_end List.length_replicate List.length_replicate
  have hbytes : List.replicate start 0 ++ numberBytes n = Bytes.bigEndian length n := by
    refine eq_bigEndian ?_ ?_
    · rw [List.length_append, List.length_replicate, ← hstart]
    · rw [ofBigEndian_replicate_append, ofBigEndian_numberBytes]
  rw [leftPad?, hpsub, Option.bind_eq_bind, Option.bind_some, hwritten, hbytes]

/-! ## Encryption with all of its checks -/

/-- What could fail in encryption behind the draw of the seed. -/
inductive EncryptionFault where
  /-- A field of the padded block finds no room, or a difference of lengths is below zero. -/
  | padding
  /-- The number of the padded block is not below the modulus. -/
  | residue
  /-- The number of the ciphertext has more bytes than the modulus. -/
  | ciphertextLength

/-- The public permutation of the residues, which refuses all other numbers. -/
def permute? (key : PublicKey) (m : Nat) : Option Nat :=
  if m < key.modulus then some (key.apply m) else none

/-- The ciphertext of a message under a label, with an error for each fault. -/
def encryptInPlace (random : RandomSource σ) (fault : EncryptionFault → CryptoError)
    (key : PublicKey) (label message : Bytes) : Action σ CryptoError Bytes :=
  if key.length < overhead then throw (.modulusTooSmall key.length)
  else if maxMessageLength key.length < message.length then
    throw (.messageTooLong (maxMessageLength key.length) message.length)
  else do
    let seed ← random.draw digestLength
    let some block := padInPlace? key.length label message seed | throw (fault .padding)
    let some c := permute? key (Bytes.ofBigEndian block) | throw (fault .residue)
    let some ciphertext := leftPad? key.length (numberBytes c) | throw (fault .ciphertextLength)
    pure ciphertext

/-- The length of a modulus in bytes. -/
theorem modulus_bounds (key : PublicKey) :
    256 ^ (key.length - 1) ≤ key.modulus ∧ key.modulus < 256 ^ key.length :=
  ⟨Bytes.pow_width_le (Nat.ne_of_gt key.modulus_pos), Bytes.lt_pow_width key.modulus⟩

theorem length_pos (key : PublicKey) : 0 < key.length :=
  Bytes.width_pos (Nat.ne_of_gt key.modulus_pos)

/-- **No fault is reached**: encryption is the same with whatever errors for them. -/
theorem encryptInPlace_eq (random : RandomSource σ) (fault : EncryptionFault → CryptoError)
    (key : PublicKey) (label message : Bytes) :
    encryptInPlace random fault key label message = encrypt random key label message := by
  rw [encryptInPlace, encrypt]
  split
  · rfl
  · rename_i hmodulus
    split
    · rfl
    · rename_i hmessage
      have hfits : message.length + overhead ≤ key.length := by
        rw [maxMessageLength] at hmessage
        omega
      refine congrArg (random.draw digestLength >>= ·) (funext fun seed => ?_)
      have hresidue := ofBigEndian_pad_lt hfits label seed
      have hciphertext : key.apply (Bytes.ofBigEndian (pad key.length label message seed)) <
          256 ^ key.length := Nat.lt_trans (key.apply_lt _) (modulus_bounds key).2
      simp only [padInPlace?_eq hfits, permute?, if_pos hresidue,
        leftPad?_numberBytes (length_pos key) hciphertext]
      rfl

/-! ## The outcome -/

section
variable {key : PublicKey} {label message script : Bytes}

theorem run_encrypt_of_small (h : key.length < 66) :
    (encrypt Tape.source key label message).run ⟨script⟩ =
      (.error (.modulusTooSmall key.length), ⟨script⟩) := by
  rw [encrypt, if_pos (show key.length < overhead from h), Action.run_throw]

theorem run_encrypt_of_long (hmodulus : 66 ≤ key.length) (h : key.length - 66 < message.length) :
    (encrypt Tape.source key label message).run ⟨script⟩ =
      (.error (.messageTooLong (key.length - 66) message.length), ⟨script⟩) := by
  rw [encrypt, if_neg (show ¬ key.length < overhead from Nat.not_lt.mpr hmodulus),
    if_pos (show maxMessageLength key.length < message.length from h), Action.run_throw]
  rfl

/-- A script without bytes for the seed is left alone. -/
theorem run_encrypt_of_exhausted (hfits : Fits key.length message.length)
    (h : script.length < 32) :
    (encrypt Tape.source key label message).run ⟨script⟩ =
      (.error (.randomFailed "scripted source exhausted"), ⟨script⟩) := by
  rw [encrypt_of_fits hfits]
  exact Action.run_bind_of_error (Tape.run_draw_of_lt h)

end

/-- The fields of the data block of a message that fits: no difference of lengths is below zero, and
the separator stands behind the digest of the label and directly in front of the message. -/
theorem exists_separator {k : Nat} {message : Bytes} (h : message.length + 66 ≤ k)
    (label : Bytes) :
    ∃ start separator data, Nat.psub (k - 33) message.length = some start ∧
      Nat.psub start 1 = some separator ∧ 32 ≤ separator ∧
      fillData? (List.replicate (k - 33) 0) label message = some data ∧
      data.take 32 = (sha256 label).val ∧ data[separator]? = some 1 ∧
      data.drop start = message := by
  obtain ⟨count, hk⟩ : ∃ count, k = 33 + (32 + count + 1 + message.length) :=
    ⟨k - 66 - message.length, by omega⟩
  have hlength : k - 33 = 32 + count + 1 + message.length := by omega
  have hdigest : (sha256 label).val.length = 32 := (sha256 label).property
  have hzeros : k - 33 - digestLength - 1 - message.length = count := by
    rw [digestLength]
    omega
  have hdata : dataBlock (k - 33) label message =
      (sha256 label).val ++ List.replicate count 0 ++ 1 :: message := by
    rw [dataBlock, hzeros]
  have hfront : ((sha256 label).val ++ List.replicate count (0 : UInt8)).length = 32 + count := by
    rw [List.length_append, List.length_replicate, hdigest]
  refine ⟨32 + count + 1, 32 + count, dataBlock (k - 33) label message, ?_, ?_, by omega,
    fillData?_eq (by rw [digestLength]; omega) label, ?_, ?_, ?_⟩
  · rw [hlength, Nat.psub_eq_sub (Nat.le_add_left ..), Nat.add_sub_cancel]
  · rw [Nat.psub_eq_sub (Nat.le_add_left ..), Nat.add_sub_cancel]
  · rw [hdata, List.append_assoc, List.take_left' hdigest]
  · rw [hdata, List.getElem?_append_right (Nat.le_of_eq hfront), hfront, Nat.sub_self]
    rfl
  · rw [hdata, ← List.drop_drop, List.drop_left' hfront]
    rfl

/-- **The outcome of encryption.** A modulus that is too short, a message that is too long and a
script that has no bytes for the seed are errors that leave the script alone, in this order. In all
other cases the seed is drawn and nothing else, the number of the padded block is below the modulus,
and the ciphertext is its power, as long as the modulus and below it. No other error occurs, and
none of the faults on the way can. -/
theorem encryption_outcome (key : PublicKey) (label message script : Bytes) :
    let k := key.length
    let run := (encrypt Tape.source key label message).run ⟨script⟩
    (256 ^ (k - 1) ≤ key.modulus ∧ key.modulus < 256 ^ k) ∧
    (k < 66 → run = (.error (.modulusTooSmall k), ⟨script⟩)) ∧
    (66 ≤ k → k - 66 < message.length →
      run = (.error (.messageTooLong (k - 66) message.length), ⟨script⟩)) ∧
    (66 ≤ k → message.length ≤ k - 66 → script.length < 32 →
      run = (.error (.randomFailed "scripted source exhausted"), ⟨script⟩)) ∧
    (66 ≤ k → message.length ≤ k - 66 → 32 ≤ script.length →
      (∃ start separator data, Nat.psub (k - 33) message.length = some start ∧
        Nat.psub start 1 = some separator ∧ 32 ≤ separator ∧
        fillData? (List.replicate (k - 33) 0) label message = some data ∧
        data.take 32 = (sha256 label).val ∧ data[separator]? = some 1 ∧
        data.drop start = message) ∧
      ∃ (seed : SizedBytes 32) (block ciphertext : Bytes), seed.val = script.take 32 ∧
        padInPlace? k label message seed = some block ∧ block.length = k ∧
        Bytes.ofBigEndian block < key.modulus ∧
        run = (.ok ciphertext, ⟨script.drop 32⟩) ∧ ciphertext.length = k ∧
        Bytes.ofBigEndian ciphertext < key.modulus ∧
        Bytes.ofBigEndian ciphertext =
          Bytes.ofBigEndian block ^ key.exponent % key.modulus) ∧
    (∀ reason, run.1 ≠ .error (.encryptionFailed reason)) ∧
    ∀ fault, (encryptInPlace Tape.source fault key label message).run ⟨script⟩ = run := by
  intro k run
  have hsmall : k < 66 → run = (.error (.modulusTooSmall k), ⟨script⟩) := run_encrypt_of_small
  have hlong : 66 ≤ k → k - 66 < message.length →
      run = (.error (.messageTooLong (k - 66) message.length), ⟨script⟩) := run_encrypt_of_long
  have hshort : 66 ≤ k → message.length ≤ k - 66 → script.length < 32 →
      run = (.error (.randomFailed "scripted source exhausted"), ⟨script⟩) := by
    intro hk hmessage hscript
    have hfits : message.length + 66 ≤ k := by omega
    exact run_encrypt_of_exhausted hfits hscript
  have hdone : 66 ≤ k → message.length ≤ k - 66 → ∀ hscript : 32 ≤ script.length,
      run = (.ok (encryptBlock key (pad k label message
        ⟨script.take 32, List.length_take_of_le hscript⟩)), ⟨script.drop 32⟩) := by
    intro hk hmessage hscript
    have hfits : message.length + 66 ≤ k := by omega
    exact run_encrypt_of_fits hfits (Tape.run_draw_of_le hscript) label
  refine ⟨modulus_bounds key, hsmall, hlong, hshort, ?_, ?_, ?_⟩
  · intro hk hmessage hscript
    have hfits : message.length + overhead ≤ k := by
      have hoverhead : overhead = 66 := rfl
      omega
    refine ⟨exists_separator hfits label, ⟨script.take 32, List.length_take_of_le hscript⟩, _, _,
      rfl, padInPlace?_eq hfits label _, length_pad hfits label _,
      ofBigEndian_pad_lt hfits label _, hdone hk hmessage hscript, length_encryptBlock _ _, ?_, ?_⟩
    · rw [ofBigEndian_encryptBlock]
      exact key.apply_lt _
    · rw [ofBigEndian_encryptBlock, PublicKey.apply_eq]
      rfl
  · -- the three errors and the success are all there is
    intro reason hfailed
    rcases Nat.lt_or_ge k 66 with hk | hk
    · rw [hsmall hk] at hfailed
      cases hfailed
    rcases Nat.lt_or_ge (k - 66) message.length with hmessage | hmessage
    · rw [hlong hk hmessage] at hfailed
      cases hfailed
    rcases Nat.lt_or_ge script.length 32 with hscript | hscript
    · rw [hshort hk hmessage hscript] at hfailed
      cases hfailed
    · rw [hdone hk hmessage hscript] at hfailed
      cases hfailed
  · intro fault
    rw [encryptInPlace_eq]

/-- A key of one byte takes no message, one of 96 bytes takes thirty bytes and not thirty-one, and a
seed is drawn only from a script that has the bytes for it. -/
theorem encryption_outcome_certified :
    let key := Rsa.PrivateKey.certified.publicKey
    let small : PublicKey := ⟨15, 3, rfl, rfl, by decide, by decide, by decide, by decide⟩
    let run (key : PublicKey) (message script : Bytes) :=
      (encrypt Tape.source key [5] message).run ⟨script⟩
    run small [] (List.replicate 33 7) =
      (.error (.modulusTooSmall 1), ⟨List.replicate 33 7⟩) ∧
    run key (List.replicate 31 1) (List.replicate 33 7) =
      (.error (.messageTooLong 30 31), ⟨List.replicate 33 7⟩) ∧
    run key (List.replicate 30 1) (List.replicate 31 7) =
      (.error (.randomFailed "scripted source exhausted"), ⟨List.replicate 31 7⟩) ∧
    ∃ ciphertext, run key (List.replicate 30 1) (List.replicate 33 7) =
      (.ok ciphertext, ⟨[7]⟩) ∧ ciphertext.length = 96 := by
  intro key small run
  have hlength : key.length = 96 := Rsa.PrivateKey.length_certified
  have hsmall : small.length = 1 := by decide
  have hmodulus := (encryption_outcome small [5] [] (List.replicate 33 7)).2.1
  have hmessage := (encryption_outcome key [5] (List.replicate 31 1) (List.replicate 33 7)).2.2.1
  have hscript := (encryption_outcome key [5] (List.replicate 30 1) (List.replicate 31 7)).2.2.2.1
  have hdone := (encryption_outcome key [5] (List.replicate 30 1) (List.replicate 33 7)).2.2.2.2.1
  rw [hsmall] at hmodulus
  rw [hlength] at hmessage hscript hdone
  obtain ⟨-, -, -, ciphertext, -, -, -, -, hrun, hciphertext, -⟩ :=
    hdone (by decide) (by decide) (by decide)
  exact ⟨hmodulus (by decide), hmessage (by decide) (by decide),
    hscript (by decide) (by decide) (by decide), ciphertext, hrun, hciphertext⟩

end Oaep

end KeySharing
