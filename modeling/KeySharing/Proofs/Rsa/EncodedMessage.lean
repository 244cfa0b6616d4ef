import KeySharing.Proofs.Rsa.Padding
import Mathlib.Data.List.Basic
import Mathlib.Data.Nat.PSub

/-!
# The encoded message of RSAES-OAEP

RFC 8017 builds the padded block as a concatenation of masked strings. A program that spares copies
builds it inside one buffer of zeros: it writes the fields over parts of the buffer, each at its
place, and masks the two halves where they stand. To unpad, it masks the halves again and goes
through all of the padding before anything is decided. Every access to a buffer can miss it, and
every difference of lengths can fall below zero; a miss is the outcome `none` here, so an outcome
says that there was none.

The position of the separator is a word of 32 bits. It is exact as long as the padding has at most
2^32 bytes, which is far above the 2^27 bytes that a modulus can have. In a longer block it wraps
around, and what is taken for the message begins too early.

- `Oaep.encodedMessage`: the block of RFC 8017, which padding gives (`Oaep.pad_eq_encodedMessage`).
- `Oaep.padInPlace?`, `Oaep.unpadInPlace?`: both directions inside a buffer, with all of their
  accesses (`Oaep.padInPlace?_eq`, `Oaep.unpadInPlace?_eq`).
- `Oaep.padding_law`: all of this together, and that unpadding accepts exactly the encoded messages.
- `Oaep.separator_wraps`: the shortest block in which the position of the separator is lost.
-/

namespace KeySharing

namespace Oaep

/-! ## The block as a concatenation -/

/-- The encoded message of RFC 8017: a zero, the seed under the mask of the masked data block, and
the data block under the mask of the seed. -/
def encodedMessage (k : Nat) (label message : Bytes) (seed : SizedBytes digestLength) : Bytes :=
  let data := (sha256 label).val ++ List.replicate (k - message.length - 66) 0 ++ [1] ++ message
  let maskedData := List.zipWith (· ^^^ ·) data (mgf1 seed.val (k - 33))
  let maskedSeed := List.zipWith (· ^^^ ·) seed.val (mgf1 maskedData 32)
  [0] ++ maskedSeed ++ maskedData

section
variable {k : Nat} {message : Bytes} (h : message.length + overhead ≤ k) (label : Bytes)
  (seed : SizedBytes digestLength)
include h

theorem pad_eq_encodedMessage : pad k label message seed = encodedMessage k label message seed := by
  have hroom : message.length + digestLength + 1 ≤ k - digestLength - 1 := by
    rw [overhead] at h
    omega
  have hzeros : k - digestLength - 1 - digestLength - 1 - message.length =
      k - message.length - 66 := by
    rw [digestLength]
    omega
  have hdata : dataBlock (k - digestLength - 1) label message =
      (sha256 label).val ++ List.replicate (k - message.length - 66) 0 ++ [1] ++ message := by
    rw [dataBlock, hzeros, List.append_assoc _ [1], List.singleton_append]
  have hlength : (dataBlock (k - digestLength - 1) label message).length = k - digestLength - 1 :=
    length_dataBlock hroom
  rw [pad, encodedMessage, mask_eq_xor seed.val, mask_eq_xor _ seed.val, hlength, seed.property,
    hdata]
  rfl

end

/-! ## Access to buffers -/

/-- A byte string before a position and from it on, if it reaches so far. -/
def splitAt? (position : Nat) (bytes : Bytes) : Option (Bytes × Bytes) :=
  if position ≤ bytes.length then some (bytes.take position, bytes.drop position) else none

/-- A buffer with some bytes written over its own from a position on, if there are so many. -/
def overwrite? (buffer : Bytes) (position : Nat) (bytes : Bytes) : Option Bytes :=
  if position + bytes.length ≤ buffer.length then
    some (buffer.take position ++ bytes ++ buffer.drop (position + bytes.length))
  else none

theorem splitAt?_of_le {position : Nat} {bytes : Bytes} (h : position ≤ bytes.length) :
    splitAt? position bytes = some (bytes.take position, bytes.drop position) := if_pos h

theorem splitAt?_append {before after : Bytes} {position : Nat} (h : before.length = position) :
    splitAt? position (before ++ after) = some (before, after) := by
  rw [splitAt?_of_le (by rw [List.length_append]; omega), List.take_left' h, List.drop_left' h]

/-- Writing replaces a part of the buffer that is as long as what is written. -/
theorem overwrite?_append {before old after bytes : Bytes} {position : Nat}
    (hposition : before.length = position) (hlength : old.length = bytes.length) :
    overwrite? (before ++ old ++ after) position bytes = some (before ++ bytes ++ after) := by
  have hreach : position + bytes.length ≤ (before ++ old ++ after).length := by
    rw [List.length_append, List.length_append, hlength, hposition]
    omega
  have hold : (before ++ old).length = position + bytes.length := by
    rw [List.length_append, hlength, hposition]
  rw [overwrite?, if_pos hreach, List.drop_left' hold, List.append_assoc before old,
    List.take_left' hposition]

theorem overwrite?_start {old after bytes : Bytes} (hlength : old.length = bytes.length) :
    overwrite? (old ++ after) 0 bytes = some (bytes ++ after) :=
  overwrite?_append (rfl : ([] : Bytes).length = 0) hlength

theorem overwrite?_end {before old bytes : Bytes} {position : Nat}
    (hposition : before.length = position) (hlength : old.length = bytes.length) :
    overwrite? (before ++ old) position bytes = some (before ++ bytes) := by
  have hall : overwrite? (before ++ old ++ []) position bytes = some (before ++ bytes ++ []) :=
    overwrite?_append hposition hlength
  rwa [List.append_nil, List.append_nil] at hall

/-! ## Padding inside a buffer -/

/-- A buffer of zeros, with the fields of the data block written over it. -/
def fillData? (buffer label message : Bytes) : Option Bytes := do
  let data ← overwrite? buffer 0 (sha256 label).val
  let start ← Nat.psub data.length message.length
  let separator ← Nat.psub start 1
  let data ← overwrite? data separator [1]
  overwrite? data start message

/-- The padded block of `k` bytes, built inside a buffer of zeros. -/
def padInPlace? (k : Nat) (label message : Bytes) (seed : SizedBytes digestLength) :
    Option Bytes := do
  let (first, rest) ← splitAt? 1 (List.replicate k 0)
  let (maskedSeed, data) ← splitAt? digestLength rest
  let maskedSeed ← overwrite? maskedSeed 0 seed.val
  let data ← fillData? data label message
  let data := mask maskedSeed data
  let maskedSeed := mask data maskedSeed
  some (first ++ maskedSeed ++ data)

/-- The fields fill the buffer from both ends, and the zeros of the padding are what is left. -/
theorem fillData?_eq {length : Nat} {message : Bytes}
    (h : message.length + digestLength + 1 ≤ length) (label : Bytes) :
    fillData? (List.replicate length 0) label message = some (dataBlock length label message) := by
  obtain ⟨count, rfl⟩ : ∃ count, length = digestLength + (count + (1 + message.length)) :=
    ⟨length - digestLength - 1 - message.length, by omega⟩
  generalize hdigest : (sha256 label).val = digest
  have hdigestLength : digest.length = digestLength := by rw [← hdigest, (sha256 label).property]
  have hcount : digestLength + (count + (1 + message.length)) - digestLength - 1 - message.length =
      count := by omega
  have hdigestFits : (List.replicate digestLength (0 : UInt8)).length = digest.length := by
    rw [List.length_replicate, hdigestLength]
  have hmessageFits : (List.replicate message.length (0 : UInt8)).length = message.length :=
    List.length_replicate
  have hseparator : (digest ++ List.replicate count 0).length = digestLength + count := by
    rw [List.length_append, List.length_replicate, hdigestLength]
  have hstart : (digest ++ List.replicate count 0 ++ [1]).length = digestLength + count + 1 := by
    rw [List.length_append, hseparator]
    rfl
  have hwithDigest : overwrite? (List.replicate (digestLength + (count + (1 + message.length))) 0)
      0 digest =
        some (digest ++ List.replicate count 0 ++ [0] ++ List.replicate message.length 0) := by
    rw [List.replicate_add, List.replicate_add, List.replicate_add, overwrite?_start hdigestFits]
    simp only [List.append_assoc]
    rfl
  have hwithOne : overwrite?
      (digest ++ List.replicate count 0 ++ [0] ++ List.replicate message.length 0)
      (digestLength + count) [1] =
        some (digest ++ List.replicate count 0 ++ [1] ++ List.replicate message.length 0) :=
    overwrite?_append hseparator rfl
  have hpsub (n : Nat) : Nat.psub (digestLength + count + 1 + n) n = some (digestLength + count + 1)
      := by
    rw [Nat.psub_eq_sub (Nat.le_add_left ..), Nat.add_sub_cancel]
  have hlength : (digest ++ List.replicate count 0 ++ [0] ++
      List.replicate message.length 0).length = digestLength + count + 1 + message.length := by
    rw [List.length_append, List.length_append, hseparator, List.length_replicate]
    rfl
  rw [fillData?, dataBlock, hcount, hdigest, hwithDigest]
  simp only [Option.bind_eq_bind, Option.bind_some, hlength, hpsub, hwithOne,
    Nat.psub_eq_sub (Nat.le_add_left 1 _), Nat.add_sub_cancel, overwrite?_end hstart hmessageFits]
  rw [List.append_assoc _ [1], List.singleton_append]

section
variable {k : Nat} {message : Bytes} (h : message.length + overhead ≤ k) (label : Bytes)
  (seed : SizedBytes digestLength)
include h

/-- A message that leaves room for the padding finds room for all of its fields. -/
theorem padInPlace?_eq : padInPlace? k label message seed = some (pad k label message seed) := by
  rw [overhead] at h
  obtain ⟨length, rfl⟩ : ∃ length, k = 1 + (digestLength + length) :=
    ⟨k - 1 - digestLength, by omega⟩
  have hlength : 1 + (digestLength + length) - digestLength - 1 = length := by omega
  have hfirst : splitAt? 1 (List.replicate (1 + (digestLength + length)) 0) =
      some ([0], List.replicate (digestLength + length) 0) := by
    rw [List.replicate_add]
    exact splitAt?_append rfl
  have hrest : splitAt? digestLength (List.replicate (digestLength + length) 0) =
      some (List.replicate digestLength 0, List.replicate length 0) := by
    rw [List.replicate_add]
    exact splitAt?_append List.length_replicate
  have hfits : (List.replicate digestLength (0 : UInt8)).length = seed.val.length := by
    rw [List.length_replicate, seed.property]
  have hseed : overwrite? (List.replicate digestLength 0) 0 seed.val = some seed.val :=
    overwrite?_end (rfl : ([] : Bytes).length = 0) hfits
  have hdata : fillData? (List.replicate length 0) label message =
      some (dataBlock length label message) := fillData?_eq (by omega) label
  rw [padInPlace?, pad, hlength]
  simp only [hfirst, hrest, hseed, hdata, Option.bind_eq_bind, Option.bind_some]
  rw [List.append_assoc, List.singleton_append]

end

/-! ## Unpadding inside a buffer -/

/-- The message of a padded block, or the one error of decryption, with every access to the block.
Both halves are unmasked where they stand and all of the padding is scanned first. -/
def unpadInPlace? (block label : Bytes) : Option (Except CryptoError Bytes) := do
  let first ← block[0]?
  let (_, rest) ← splitAt? 1 block
  let (maskedSeed, maskedData) ← splitAt? digestLength rest
  let seed := mask maskedData maskedSeed
  let data := mask seed maskedData
  let (digest, padding) ← splitAt? digestLength data
  let scan := Scan.start.run 0 padding
  if first = 0 ∧ digest = (sha256 label).val ∧ scan.accepted then
    let (_, message) ← splitAt? (digestLength + scan.separator.toNat + 1) data
    some (.ok message)
  else some (.error decodingError)

/-- A scan that accepts a data block stops inside it, also where the position has outgrown its
word. -/
theorem splitAt?_separator {data : Bytes}
    (h : (Scan.start.run 0 (data.drop digestLength)).accepted = true) :
    let position := digestLength + (Scan.start.run 0 (data.drop digestLength)).separator.toNat + 1
    splitAt? position data = some (data.take position, data.drop position) := by
  obtain ⟨count, message, hpadding⟩ := Scan.exists_of_accepted h
  have hlength := congrArg List.length hpadding
  rw [List.length_drop, List.length_append, List.length_replicate, List.length_cons] at hlength
  have hscan : Scan.start.run 0 (data.drop digestLength) =
      ⟨false, UInt32.ofNat count, false⟩ := by
    rw [hpadding, Scan.start, Scan.run_append_separator, Nat.zero_add]
  have hseparator : (UInt32.ofNat count).toNat = count % 2 ^ 32 := UInt32.toNat_ofNat'
  have hwraps : count % 2 ^ 32 ≤ count := Nat.mod_le _ _
  simp only [hscan, hseparator]
  exact splitAt?_of_le (by omega)

/-- No access misses the block, whatever its length. -/
theorem unpadInPlace?_eq {block : Bytes} (h : 2 * digestLength + 1 ≤ block.length)
    (label : Bytes) : unpadInPlace? block label = some (unpad block label) := by
  obtain ⟨first, rest, rfl⟩ : ∃ first rest, block = first :: rest :=
    List.exists_cons_of_length_pos (by omega)
  rw [List.length_cons] at h
  have hfirst : splitAt? 1 (first :: rest) = some ([first], rest) :=
    splitAt?_of_le (by rw [List.length_cons]; omega)
  have hrest : splitAt? digestLength rest =
      some (rest.take digestLength, rest.drop digestLength) := splitAt?_of_le (by omega)
  have hdataLength :
      (mask (mask (rest.drop digestLength) (rest.take digestLength))
        (rest.drop digestLength)).length = rest.length - digestLength := by
    rw [length_mask, List.length_drop]
  rw [unpadInPlace?, unpad]
  simp only [List.getElem?_cons_zero, hfirst, hrest, Option.bind_eq_bind, Option.bind_some]
  generalize mask (mask (rest.drop digestLength) (rest.take digestLength))
    (rest.drop digestLength) = data at hdataLength ⊢
  rw [splitAt?_of_le (by omega : digestLength ≤ data.length), Option.bind_some]
  by_cases hvalid : first = 0 ∧ data.take digestLength = (sha256 label).val ∧
      (Scan.start.run 0 (data.drop digestLength)).accepted
  · rw [if_pos hvalid, if_pos hvalid, splitAt?_separator hvalid.2.2, Option.bind_some]
  · rw [if_neg hvalid, if_neg hvalid]

/-! ## The law -/

/-- **Padding is the encoding of RFC 8017, and unpadding accepts exactly its image.** Inside a
buffer, padding finds room for all of its fields. Unpadding gives the message of an encoded message
of at most 65 + 2^32 bytes. It refuses every other block with the one error of decryption, and none
of its accesses misses the block, whatever the length is. -/
theorem padding_law {k : Nat} (hk : 66 ≤ k) (label : Bytes) :
    (∀ message seed, message.length ≤ k - 66 →
      pad k label message seed = encodedMessage k label message seed ∧
      padInPlace? k label message seed = some (encodedMessage k label message seed)) ∧
    ∀ block : Bytes, block.length = k →
      (k ≤ 65 + 2 ^ 32 → ∀ message, unpad block label = .ok message ↔
        message.length ≤ k - 66 ∧ ∃ seed, block = encodedMessage k label message seed) ∧
      ((∀ message seed, message.length ≤ k - 66 → block ≠ encodedMessage k label message seed) →
        unpad block label = .error (.decryptionFailed "OAEP decoding error")) ∧
      unpadInPlace? block label = some (unpad block label) := by
  have hoverhead : overhead = 66 := rfl
  refine ⟨fun message seed hroom => ?_, fun block hlength => ⟨fun hsmall message => ?_, ?_, ?_⟩⟩
  · have hfits : message.length + overhead ≤ k := by omega
    rw [padInPlace?_eq hfits, pad_eq_encodedMessage hfits]
    exact ⟨rfl, rfl⟩
  · rw [unpad_eq_ok_iff (by omega) hsmall hlength]
    constructor
    · rintro ⟨hfits, seed, rfl⟩
      exact ⟨by omega, seed, pad_eq_encodedMessage hfits label seed⟩
    · rintro ⟨hroom, seed, rfl⟩
      have hfits : message.length + overhead ≤ k := by omega
      exact ⟨hfits, seed, (pad_eq_encodedMessage hfits label seed).symm⟩
  · intro hother
    refine unpad_eq_error fun found hok => ?_
    obtain ⟨message, hfits, seed, hblock⟩ := exists_of_unpad (by omega) hlength hok
    exact hother message seed (by omega) (hblock.trans (pad_eq_encodedMessage hfits label seed))
  · have hdigest : digestLength = 32 := rfl
    exact unpadInPlace?_eq (by omega) label

/-- A block of 96 bytes that holds a message, and one that starts with the wrong byte. -/
theorem padding_law_certified : ∃ seed : SizedBytes digestLength,
    pad 96 [5] [1, 2, 3] seed = encodedMessage 96 [5] [1, 2, 3] seed ∧
    padInPlace? 96 [5] [1, 2, 3] seed = some (encodedMessage 96 [5] [1, 2, 3] seed) ∧
    unpad (encodedMessage 96 [5] [1, 2, 3] seed) [5] = .ok [1, 2, 3] ∧
    unpadInPlace? (encodedMessage 96 [5] [1, 2, 3] seed) [5] = some (.ok [1, 2, 3]) ∧
    unpad (List.replicate 96 1) [5] = .error (.decryptionFailed "OAEP decoding error") := by
  obtain ⟨hpad, hunpad⟩ := padding_law (k := 96) (by decide) [5]
  obtain ⟨hencoded, hinPlace⟩ :=
    hpad [1, 2, 3] ⟨List.replicate 32 7, List.length_replicate⟩ (by decide)
  have hlength : (pad 96 [5] [1, 2, 3] ⟨List.replicate 32 7, List.length_replicate⟩).length = 96 :=
    length_pad (by decide) [5] _
  rw [hencoded] at hlength
  obtain ⟨hiff, -, haccess⟩ := hunpad _ hlength
  have hmessage := (hiff (by decide) [1, 2, 3]).mpr ⟨by decide, _, rfl⟩
  rw [hmessage] at haccess
  obtain ⟨-, hrefused, -⟩ := hunpad (List.replicate 96 1) List.length_replicate
  refine ⟨_, hencoded, hinPlace, hmessage, haccess, hrefused fun message seed _ hblock => ?_⟩
  -- an encoded message starts with a zero
  cases List.head_eq_of_cons_eq hblock

/-- **Beyond the bound the separator is lost.** In the block of 66 + 2^32 bytes without a message,
2^32 zeros stand in front of the separator, whose position becomes zero. Unpadding gives what stands
behind the first of the zeros. -/
theorem separator_wraps :
    let seed : SizedBytes digestLength := ⟨List.replicate 32 0, List.length_replicate⟩
    let block := encodedMessage (66 + 2 ^ 32) [] [] seed
    block.length = 66 + 2 ^ 32 ∧
      unpad block [] = .ok (List.replicate (2 ^ 32 - 1) 0 ++ [1]) ∧ unpad block [] ≠ .ok [] := by
  intro seed block
  have hfits : ([] : Bytes).length + overhead ≤ 66 + 2 ^ 32 := by
    rw [List.length_nil, overhead, digestLength]
    omega
  have hblock : pad (66 + 2 ^ 32) [] [] seed = block := pad_eq_encodedMessage hfits [] seed
  have hcount : 66 + 2 ^ 32 - digestLength - 1 - digestLength - 1 - ([] : Bytes).length =
      2 ^ 32 - 1 + 1 := by
    rw [List.length_nil, digestLength]
    omega
  have hposition : (2 ^ 32 - 1 + 1) % 2 ^ 32 + 1 = 1 := by omega
  have hunpad : unpad block [] = .ok (List.replicate (2 ^ 32 - 1) 0 ++ [1]) := by
    rw [← hblock, unpad_pad_eq]
    simp only [hcount, hposition, if_true, List.replicate_succ, List.cons_append, List.drop_one,
      List.tail_cons]
  refine ⟨hblock ▸ length_pad hfits [] seed, hunpad, fun hempty => ?_⟩
  rw [hunpad] at hempty
  exact List.append_ne_nil_of_right_ne_nil _ (List.cons_ne_nil _ _) (Except.ok.inj hempty)

end Oaep

end KeySharing
