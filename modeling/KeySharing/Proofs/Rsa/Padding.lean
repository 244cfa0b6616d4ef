import KeySharing.Proofs.Numerals
import KeySharing.Rsa.Oaep

/-!
# The padded block

Padding masks the data block under the seed and the seed under the masked data block. A mask is an
exclusive or with a string that depends on the seed and the length alone (`Oaep.mask_eq_xor`), so
both steps undo themselves, and unpadding meets the data block again whatever label it is given. It
then accepts the block exactly if the digests of the two labels agree, and the message begins where
its scan has met the separator. The other way round, what unpads has been padded: the seed is in the
block, and the zeros in front of the message are as many as the length asks for.

The position of the separator is a word of 32 bits, so it is the right one in blocks of at most
65 + 2^32 bytes. No key has a longer one.

- `Oaep.mgf1`: the mask generation function.
- `Oaep.mask_mask`, `Oaep.length_mask`: masking undoes itself and keeps the length.
- `Oaep.Scan.run_append_separator`, `Oaep.Scan.exists_of_accepted`: the scan after a text.
- `Oaep.unpad_pad_eq`: unpadding under any label, for every length; `Oaep.unpad_pad`: the message
  comes back.
- `Oaep.unpad_eq_ok_iff`: unpadding accepts exactly the padded blocks.
- `Oaep.ofBigEndian_pad_lt`: a padded block is a residue of every modulus of its length.
-/

namespace KeySharing

namespace Oaep

open Rsa (PublicKey PrivateKey)

/-! ## Masks -/

/-- The mask generation function over SHA-256: the first bytes of the digests of the seed followed
by a counter in four bytes, most significant byte first. -/
def mgf1 (seed : Bytes) (length : Nat) : Bytes :=
  ((List.range ((length + 31) / 32)).flatMap fun counter =>
    (sha256 (seed ++ [UInt8.ofNat (counter / 16777216), UInt8.ofNat (counter / 65536),
      UInt8.ofNat (counter / 256), UInt8.ofNat counter])).val).take length

/-- The pieces of a mask are the digests of the generation function. -/
theorem flatMap_maskPiece (seed : Bytes) (length : Nat) :
    ((List.range ((length + 31) / 32)).flatMap (maskPiece seed)).take length =
      mgf1 seed length := by
  have hpiece : maskPiece seed = fun counter => (sha256 (seed ++ [UInt8.ofNat (counter / 16777216),
      UInt8.ofNat (counter / 65536), UInt8.ofNat (counter / 256), UInt8.ofNat counter])).val := by
    funext counter
    rw [maskPiece, Bytes.bigEndian_four]
  rw [hpiece, mgf1]

@[simp] theorem length_maskPiece (seed : Bytes) (counter : Nat) :
    (maskPiece seed counter).length = 32 := length_sha256 _

theorem length_flatMap_maskPiece (seed : Bytes) (first count : Nat) :
    ((List.range' first count).flatMap (maskPiece seed)).length = 32 * count := by
  induction count generalizing first with
  | zero => rfl
  | succ count ih =>
    rw [List.range'_succ, List.flatMap_cons, List.length_append, ih, length_maskPiece]
    omega

@[simp] theorem length_mgf1 (seed : Bytes) (length : Nat) : (mgf1 seed length).length = length := by
  rw [← flatMap_maskPiece, List.length_take, List.range_eq_range', length_flatMap_maskPiece]
  omega

/-- Masking piece by piece from a counter on is masking with the digests from that counter on. -/
theorem maskFrom_takePieces (seed : Bytes) : ∀ (count first : Nat) (text : Bytes),
    text.length ≤ 32 * count →
      maskFrom seed first (Bytes.takePieces 32 count text) =
        text.xor ((List.range' first count).flatMap (maskPiece seed))
  | 0, first, text, h => by
    have hnil : text = [] := List.eq_nil_of_length_eq_zero (by simpa using h)
    rw [hnil]
    rfl
  | count + 1, first, text, h => by
    have hrest : (text.drop 32).length ≤ 32 * count := by
      rw [List.length_drop]
      omega
    rw [Bytes.takePieces, maskFrom, maskFrom_takePieces seed count (first + 1) _ hrest,
      List.range'_succ, List.flatMap_cons, Bytes.xor_append_right, length_maskPiece]

/-- **A mask is an exclusive or** with the generated mask for the seed and the length. -/
theorem mask_eq_xor (seed text : Bytes) : mask seed text = text.xor (mgf1 seed text.length) := by
  have hcount : text.length ≤ 32 * ((text.length + 31) / 32) := by omega
  rw [← flatMap_maskPiece, Bytes.xor_take_right, List.range_eq_range']
  exact maskFrom_takePieces seed _ 0 text hcount

@[simp] theorem length_mask (seed text : Bytes) : (mask seed text).length = text.length := by
  rw [mask_eq_xor, Bytes.length_xor, length_mgf1, Nat.min_self]

/-- Masking twice gives the text back. -/
@[simp] theorem mask_mask (seed text : Bytes) : mask seed (mask seed text) = text := by
  rw [mask_eq_xor seed (mask seed text), length_mask, mask_eq_xor]
  exact Bytes.xor_xor_cancel_right (Nat.le_of_eq (length_mgf1 _ _).symm)

/-! ## The scan for the separator -/

namespace Scan

/-- Behind the separator, the scan goes on and changes nothing. -/
theorem run_of_found {scan : Scan} (h : scan.looking = false) (position : Nat) (bytes : Bytes) :
    scan.run position bytes = scan := by
  induction bytes generalizing position with
  | nil => rfl
  | cons b rest ih =>
    have hstep : scan.step position b = scan := by
      simp only [step, h, Bool.false_and, Bool.or_false, Bool.false_eq_true, if_false]
      rw [← h]
    rw [run, hstep, ih]

/-- Bad padding is never forgotten. -/
theorem badPadding_run {scan : Scan} (h : scan.badPadding = true) (position : Nat)
    (bytes : Bytes) : (scan.run position bytes).badPadding = true := by
  induction bytes generalizing scan position with
  | nil => exact h
  | cons b rest ih => exact ih (by rw [step, h, Bool.true_or]) (position + 1)

/-- **The scan of a padding** accepts it and stops at the separator, whatever follows. -/
theorem run_append_separator (separator : UInt32) (position count : Nat) (message : Bytes) :
    (Scan.mk true separator false).run position (List.replicate count 0 ++ 1 :: message) =
      ⟨false, UInt32.ofNat (position + count), false⟩ := by
  induction count generalizing position with
  | zero =>
    have hstep : (Scan.mk true separator false).step position 1 =
        ⟨false, UInt32.ofNat position, false⟩ := rfl
    rw [List.replicate_zero, List.nil_append, run, hstep, Nat.add_zero]
    exact run_of_found rfl _ _
  | succ count ih =>
    rw [List.replicate_succ, List.cons_append, run]
    have hstep : (Scan.mk true separator false).step position 0 = ⟨true, separator, false⟩ := rfl
    rw [hstep, ih, Nat.add_assoc, Nat.add_comm 1]

/-- **What the scan accepts is a padding**: a message stands behind zeros and a one. -/
theorem exists_of_accepted {separator : UInt32} {position : Nat} {bytes : Bytes}
    (h : ((Scan.mk true separator false).run position bytes).accepted = true) :
    ∃ count message, bytes = List.replicate count 0 ++ 1 :: message := by
  induction bytes generalizing position with
  | nil => cases h
  | cons b rest ih =>
    rw [run] at h
    by_cases hzero : b = 0
    · subst hzero
      obtain ⟨count, message, rfl⟩ := ih h
      exact ⟨count + 1, message, by rw [List.replicate_succ, List.cons_append]⟩
    · by_cases hone : b = 1
      · exact ⟨0, rest, by rw [hone, List.replicate_zero, List.nil_append]⟩
      · have hstep : ((Scan.mk true separator false).step position b).badPadding = true := by
          simp [step, hzero, hone]
        rw [accepted, badPadding_run hstep, Bool.not_true, Bool.and_false] at h
        cases h

end Scan

/-! ## Padding and unpadding -/

@[simp] theorem length_dataBlock {length : Nat} {label message : Bytes}
    (h : message.length + digestLength + 1 ≤ length) :
    (dataBlock length label message).length = length := by
  have hdigest : (sha256 label).val.length = digestLength := (sha256 label).property
  rw [dataBlock, List.length_append, List.length_append, List.length_replicate, List.length_cons,
    hdigest]
  omega

/-- A padded block has the length of the modulus, if the message leaves room for the padding. -/
theorem length_pad {k : Nat} {message : Bytes} (h : message.length + overhead ≤ k) (label : Bytes)
    (seed : SizedBytes digestLength) : (pad k label message seed).length = k := by
  have hk : message.length + digestLength + 1 ≤ k - digestLength - 1 := by
    rw [overhead] at h
    omega
  rw [pad, List.length_cons, List.length_append, length_mask, length_mask, length_dataBlock hk,
    seed.property]
  rw [overhead] at h
  omega

/-- A byte string with the digest of a label in front and a message behind a separator is the data
block of the message: its length leaves no choice for the number of zeros. -/
theorem eq_dataBlock {data label message : Bytes} {length count : Nat}
    (hlength : data.length = length) (hdigest : data.take digestLength = (sha256 label).val)
    (hpadding : data.drop digestLength = List.replicate count 0 ++ 1 :: message) :
    message.length + digestLength + 1 ≤ length ∧ data = dataBlock length label message := by
  have hdata : data = (sha256 label).val ++ (List.replicate count 0 ++ 1 :: message) := by
    rw [← hdigest, ← hpadding, List.take_append_drop]
  have hsum : length = digestLength + (count + (message.length + 1)) := by
    rw [← hlength, hdata, List.length_append, List.length_append, List.length_replicate,
      List.length_cons, (sha256 label).property]
  have hcount : length - digestLength - 1 - message.length = count := by omega
  refine ⟨by omega, ?_⟩
  rw [hdata, dataBlock, hcount, List.append_assoc]

/-- Unpadding a padded block under any label. If the digests of the labels agree, it is accepted,
and the message is taken to begin behind the position of the separator modulo 2^32. -/
theorem unpad_pad_eq (k : Nat) (label label' message : Bytes) (seed : SizedBytes digestLength) :
    let count := k - digestLength - 1 - digestLength - 1 - message.length
    unpad (pad k label message seed) label' =
      if sha256 label' = sha256 label then
        .ok ((List.replicate count 0 ++ 1 :: message).drop (count % 2 ^ 32 + 1))
      else .error decodingError := by
  intro count
  generalize hdata : dataBlock (k - digestLength - 1) label message = data
  have hmasked : (mask (mask seed.val data) seed.val).length = digestLength := by
    rw [length_mask, seed.property]
  have htake : data.take digestLength = (sha256 label).val := by
    rw [← hdata, dataBlock, List.append_assoc, List.take_left' (sha256 label).property]
  have hdrop : data.drop digestLength = List.replicate count 0 ++ 1 :: message := by
    rw [← hdata, dataBlock, List.append_assoc, List.drop_left' (sha256 label).property]
  have hscan : Scan.start.run 0 (List.replicate count 0 ++ 1 :: message) =
      ⟨false, UInt32.ofNat count, false⟩ := by
    rw [Scan.start, Scan.run_append_separator, Nat.zero_add]
  have hmessage : data.drop (digestLength + (UInt32.ofNat count).toNat + 1) =
      (List.replicate count 0 ++ 1 :: message).drop (count % 2 ^ 32 + 1) := by
    rw [Nat.add_assoc, ← List.drop_drop, hdrop, UInt32.toNat_ofNat']
  rw [pad, hdata, unpad]
  simp only [List.take_left' hmasked, List.drop_left' hmasked, mask_mask, htake, hdrop, hscan,
    hmessage, true_and]
  by_cases h : sha256 label' = sha256 label
  · rw [if_pos h, if_pos ⟨congrArg Subtype.val h.symm, rfl⟩]
  · rw [if_neg h, if_neg fun hall => h (Subtype.ext hall.1.symm)]

/-- **Unpadding a padded block** under any label gives the message if the digests of the labels
agree, and the error otherwise. -/
theorem unpad_pad {k : Nat} (hk : k ≤ 65 + 2 ^ 32) (label label' message : Bytes)
    (seed : SizedBytes digestLength) :
    unpad (pad k label message seed) label' =
      if sha256 label' = sha256 label then .ok message else .error decodingError := by
  have hcount : k - digestLength - 1 - digestLength - 1 - message.length < 2 ^ 32 := by
    rw [digestLength]
    omega
  rw [unpad_pad_eq, Nat.mod_eq_of_lt hcount, ← List.drop_drop,
    List.drop_left' List.length_replicate, List.drop_one, List.tail_cons]

/-- **What unpads has been padded.** The two halves of the block give the seed and the data block
back, and masking them again gives the two halves. -/
theorem exists_of_unpad {k : Nat} {block label found : Bytes} (hk : overhead ≤ k)
    (hlength : block.length = k) (h : unpad block label = .ok found) :
    ∃ message, message.length + overhead ≤ k ∧ ∃ seed, block = pad k label message seed := by
  match block, hlength with
  | first :: rest, hlength =>
    rw [List.length_cons] at hlength
    rw [overhead] at hk ⊢
    have hsplit : rest.take digestLength ++ rest.drop digestLength = rest :=
      List.take_append_drop digestLength rest
    have hseedLength : (rest.take digestLength).length = digestLength :=
      List.length_take_of_le (by omega)
    have hdataLength : (rest.drop digestLength).length = k - digestLength - 1 := by
      rw [List.length_drop]
      omega
    rw [unpad] at h
    generalize rest.take digestLength = maskedSeed at h hsplit hseedLength
    generalize rest.drop digestLength = maskedData at h hsplit hdataLength
    split at h
    · rename_i hvalid
      obtain ⟨rfl, hdigest, haccepted⟩ := hvalid
      obtain ⟨count, message, hpadding⟩ := Scan.exists_of_accepted haccepted
      obtain ⟨hroom, hdata⟩ :=
        eq_dataBlock ((length_mask _ _).trans hdataLength) hdigest hpadding
      refine ⟨message, by omega, ⟨mask maskedData maskedSeed, (length_mask _ _).trans hseedLength⟩,
        ?_⟩
      rw [pad, ← hdata, mask_mask, mask_mask, hsplit]
    · cases h

/-- Unpadding accepts exactly the padded blocks. -/
theorem unpad_eq_ok_iff {k : Nat} {block label message : Bytes} (hk : overhead ≤ k)
    (hsmall : k ≤ 65 + 2 ^ 32) (hlength : block.length = k) :
    unpad block label = .ok message ↔
      message.length + overhead ≤ k ∧ ∃ seed, block = pad k label message seed := by
  constructor
  · intro h
    obtain ⟨found, hroom, seed, rfl⟩ := exists_of_unpad hk hlength h
    rw [unpad_pad hsmall, if_pos rfl] at h
    cases h
    exact ⟨hroom, seed, rfl⟩
  · rintro ⟨-, seed, rfl⟩
    rw [unpad_pad hsmall, if_pos rfl]

/-- Every block that is not accepted gives the one error. -/
theorem unpad_eq_error {block label : Bytes} (h : ∀ message, unpad block label ≠ .ok message) :
    unpad block label = .error decodingError := by
  match block with
  | [] => rfl
  | first :: rest =>
    rw [unpad] at h ⊢
    split
    · rename_i hvalid
      rw [if_pos hvalid] at h
      exact absurd rfl (h _)
    · rfl

/-- No key has a block in which the position of the separator outgrows its word. -/
theorem length_le (key : PublicKey) : key.length ≤ 65 + 2 ^ 32 :=
  Nat.le_trans key.width_modulus_le (by decide)

/-! ## Padded blocks as residues -/

/-- The zero in front makes a padded block a residue, whatever bits the modulus starts with. -/
theorem ofBigEndian_pad_lt {key : PublicKey} {message : Bytes}
    (h : message.length + overhead ≤ key.length) (label : Bytes) (seed : SizedBytes digestLength) :
    Bytes.ofBigEndian (pad key.length label message seed) < key.modulus := by
  have hlength := length_pad h label seed
  generalize hblock : pad key.length label message seed = block at hlength
  obtain ⟨rest, rfl⟩ : ∃ rest, block = 0 :: rest := ⟨_, hblock.symm⟩
  rw [List.length_cons] at hlength
  have hrest : rest.length = Bytes.width key.modulus - 1 := by
    rw [PublicKey.length] at hlength
    omega
  calc Bytes.ofBigEndian (0 :: rest) = Bytes.ofBigEndian rest := Bytes.ofBigEndian_zero_cons rest
    _ < 256 ^ rest.length := Bytes.ofBigEndian_lt rest
    _ = 256 ^ (Bytes.width key.modulus - 1) := by rw [hrest]
    _ ≤ key.modulus := Bytes.pow_width_le (Nat.ne_of_gt key.modulus_pos)

end Oaep

end KeySharing
