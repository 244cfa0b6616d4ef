import KeySharing.Gcm
import KeySharing.Proofs.Aes.Field
import KeySharing.Share

/-!
# The key expansion of FIPS 197

The standard describes the key schedule word by word: the first four words are the key, and each
further word is the word four places before it and the previous one, which is turned, substituted
and added to a power of `x` at every fourth place. The library goes by round keys instead, takes
substitutes and powers from tables and keeps its words apart. Both give the same bytes.

- `Aes.ExpandedKey`: the bytes that the standard describes. There are no two of them for a key
  (`Aes.ExpandedKey.unique`).
- `Aes.getElem?_roundWords`: each word of the round keys from the words in front of it.
- `Aes.expandedKey_expand`: the key schedule is the expanded key.
- `Aes.expansion_standard`: the same for byte strings of all lengths and for the secret that is
  shared.
-/

namespace KeySharing

namespace Aes

/-! ## The standard -/

/-- Word `i` of a byte string. -/
def wordAt (i : Nat) (bytes : Bytes) : Bytes := (bytes.drop (4 * i)).take 4

/-- The substitute of a byte: the affine map of its inverse in the field. -/
noncomputable def fieldSubstitute (b : UInt8) : UInt8 := affine (ofField (toField b)⁻¹)

/-- What is added to the word four places before word `i`. At every fourth place the previous word
is turned one byte to the left and substituted, and its first byte is added to a power of `x`. -/
noncomputable def addend (i : Nat) (previous : Bytes) : Bytes :=
  if i % 4 = 0 then
    Bytes.xor ((previous.rotateLeft 1).map fieldSubstitute)
      [ofField (fieldRoot ^ (i / 4 - 1)), 0, 0, 0]
  else previous

/-- The expanded form of a key: 176 bytes, the key in front, and all further words from those before
them. -/
structure ExpandedKey (key bytes : Bytes) : Prop where
  /-- Forty-four words. -/
  length_eq : bytes.length = 176
  /-- The first four words are the key. -/
  take_eq : bytes.take 16 = key
  /-- Each further word comes from the one four places before it and the previous one. -/
  wordAt_eq : ∀ i, 4 ≤ i → i < 44 →
    wordAt i bytes = (wordAt (i - 4) bytes).xor (addend i (wordAt (i - 1) bytes))

/-- Byte strings of one length are equal if their words are. -/
theorem eq_of_wordAt : ∀ (count : Nat) {a b : Bytes}, a.length = 4 * count → b.length = 4 * count →
    (∀ i < count, wordAt i a = wordAt i b) → a = b
  | 0, a, b, ha, hb, _ => by
    rw [List.eq_nil_of_length_eq_zero ha, List.eq_nil_of_length_eq_zero hb]
  | count + 1, a, b, ha, hb, h => by
    have hfirst : a.take 4 = b.take 4 := h 0 (Nat.succ_pos count)
    have hrest : a.drop 4 = b.drop 4 := by
      refine eq_of_wordAt count ?_ ?_ fun i hi => ?_
      · rw [List.length_drop, ha]
        omega
      · rw [List.length_drop, hb]
        omega
      · have hword := h (i + 1) (Nat.succ_lt_succ hi)
        rw [wordAt, wordAt, Nat.mul_succ, Nat.add_comm (4 * i) 4] at hword
        rwa [wordAt, wordAt, List.drop_drop, List.drop_drop]
    rw [← List.take_append_drop 4 a, hfirst, hrest, List.take_append_drop]

/-- A key has one expanded form only. -/
theorem ExpandedKey.unique {key a b : Bytes} (ha : ExpandedKey key a) (hb : ExpandedKey key b) :
    a = b := by
  refine eq_of_wordAt 44 ha.length_eq hb.length_eq fun i hi => ?_
  -- each word from the words in front of it
  induction i using Nat.strongRecOn with
  | ind i ih =>
    by_cases hkey : i < 4
    · have hcut (bytes : Bytes) : wordAt i bytes = wordAt i (bytes.take 16) := by
        rw [wordAt, wordAt, List.drop_take, List.take_take, Nat.min_eq_left (by omega)]
      rw [hcut a, hcut b, ha.take_eq, hb.take_eq]
    · rw [ha.wordAt_eq i (by omega) hi, hb.wordAt_eq i (by omega) hi,
        ih (i - 4) (by omega) (by omega), ih (i - 1) (by omega) (by omega)]

/-! ## The words of the round keys -/

/-- The words of a round key and of those that follow it. -/
def roundWords (k : Block) (constants : List UInt8) : List Word :=
  (roundKeysFrom k constants).flatMap Block.words

/-- What the library adds to the word four places before word `i`. -/
def wordAddend (constants : List UInt8) (i : Nat) (previous : Word) : Word :=
  if i % 4 = 0 then previous.rotate.substitute.xor ⟨constants.getD (i / 4 - 1) 0, 0, 0, 0⟩
  else previous

/-- The words of the first round key stand in front. -/
theorem roundWords_eq_append (k : Block) (constants : List UInt8) :
    ∃ rest, roundWords k constants = k.words ++ rest := by
  cases constants with
  | nil => exact ⟨[], rfl⟩
  | cons c cs => exact ⟨roundWords (k.nextRoundKey c) cs, rfl⟩

theorem Word.xor_assoc (u v w : Word) : (u.xor v).xor w = u.xor (v.xor w) := by
  simp only [Word.xor, UInt8.xor_assoc]

/-- A round later is a constant later. -/
theorem wordAddend_cons (c : UInt8) (cs : List UInt8) {i : Nat} (h : 4 ≤ i) (previous : Word) :
    wordAddend (c :: cs) (i + 4) previous = wordAddend cs i previous := by
  have hplace : (i + 4) / 4 - 1 = i / 4 - 1 + 1 := by omega
  rw [wordAddend, wordAddend, Nat.add_mod_right, hplace, List.getD_cons_succ]

/-- **Each word of the round keys from the words in front of it.** -/
theorem getElem?_roundWords (k : Block) (constants : List UInt8) {i : Nat} (h : 4 ≤ i)
    (hi : i < 4 * (constants.length + 1)) :
    ∃ v w, (roundWords k constants)[i - 4]? = some v ∧ (roundWords k constants)[i - 1]? = some w ∧
      (roundWords k constants)[i]? = some (v.xor (wordAddend constants i w)) := by
  induction constants generalizing k i with
  | nil =>
    rw [List.length_nil] at hi
    omega
  | cons c cs ih =>
    have hwords : roundWords k (c :: cs) =
        k.w0 :: k.w1 :: k.w2 :: k.w3 :: roundWords (k.nextRoundKey c) cs := rfl
    by_cases hfirst : i < 8
    · -- the words of the next round key
      obtain ⟨rest, hrest⟩ := roundWords_eq_append (k.nextRoundKey c) cs
      have hplace : i = 4 ∨ i = 5 ∨ i = 6 ∨ i = 7 := by omega
      rw [hwords, hrest]
      rcases hplace with rfl | rfl | rfl | rfl
      · exact ⟨k.w0, k.w3, rfl, rfl, congrArg some (Word.xor_assoc ..)⟩
      · exact ⟨k.w1, _, rfl, rfl, rfl⟩
      · exact ⟨k.w2, _, rfl, rfl, rfl⟩
      · exact ⟨k.w3, _, rfl, rfl, rfl⟩
    · obtain ⟨j, rfl⟩ : ∃ j, i = j + 4 := ⟨i - 4, by omega⟩
      have hj : j < 4 * (cs.length + 1) := by
        rw [List.length_cons] at hi
        omega
      obtain ⟨v, w, hv, hw, hword⟩ := ih (k.nextRoundKey c) (by omega) hj
      refine ⟨v, w, ?_, ?_, ?_⟩
      · rwa [hwords, show j + 4 - 4 = j - 4 + 4 by omega]
      · rwa [hwords, show j + 4 - 1 = j - 1 + 4 by omega]
      · rwa [hwords, wordAddend_cons c cs (by omega)]

/-! ## Words as bytes -/

theorem wordAt_flatMap : ∀ {words : List Word} {i : Nat} {w : Word}, words[i]? = some w →
    wordAt i (words.flatMap Word.toBytes) = w.toBytes
  | v :: words, 0, w, h => by
    cases h
    rfl
  | v :: words, i + 1, w, h => by
    have hrest : wordAt i (words.flatMap Word.toBytes) = w.toBytes := wordAt_flatMap h
    rw [List.flatMap_cons, wordAt, Nat.mul_succ, Nat.add_comm, ← List.drop_drop,
      List.drop_left' (Word.length_toBytes v)]
    exact hrest

/-- A block of sixteen bytes consists of them. -/
theorem Block.toBytes_ofBytes {bytes : Bytes} (h : bytes.length = 16) :
    (Block.ofBytes bytes).toBytes = bytes := by
  have hbytes : (Block.ofBytes bytes).toBytes = (List.range 16).map fun i => bytes.getD i 0 := rfl
  rw [hbytes]
  refine List.ext_getElem ?_ fun i _ hi => ?_
  · rw [List.length_map, List.length_range, h]
  · rw [List.getElem_map, List.getElem_range, List.getD, List.getElem?_eq_getElem hi,
      Option.getD_some]

/-- The round constants are the powers of `x`. -/
theorem getD_roundConstants {r : Nat} (h : r < 10) :
    roundConstants.getD r 0 = ofField (fieldRoot ^ r) := by
  have hdoubles : ∀ r < 10, roundConstants.getD r 0 = double^[r] 1 := by decide
  have hpower : toField (double^[r] 1) = fieldRoot ^ r := by
    rw [toField_iterate_double, toField_one, mul_one]
  rw [hdoubles r h, ← hpower, ofField_toField]

/-- The library adds to a word what the standard adds. -/
theorem toBytes_wordAddend {i : Nat} (h : 4 ≤ i) (hi : i < 44) (previous : Word) :
    (wordAddend roundConstants i previous).toBytes = addend i previous.toBytes := by
  rw [wordAddend, addend]
  split
  · rw [getD_roundConstants (by omega)]
    have hsubstitute : substitute = fieldSubstitute := funext substitute_eq
    rw [← hsubstitute]
    rfl
  · rfl

theorem toBytes_expand (key : Key) :
    (expand key).toBytes =
      (roundWords (Block.ofBytes key.val) roundConstants).flatMap Word.toBytes :=
  List.flatMap_assoc.symm

/-- **The key schedule is the expanded key.** -/
theorem expandedKey_expand (key : Key) : ExpandedKey key.val (expand key).toBytes where
  length_eq := KeySchedule.length_toBytes _
  take_eq := by
    have hfront : (expand key).toBytes =
        (Block.ofBytes key.val).toBytes ++ _ := List.flatMap_cons
    rw [hfront, List.take_left' (Block.length_toBytes _), Block.toBytes_ofBytes key.property]
  wordAt_eq i h hi := by
    obtain ⟨v, w, hv, hw, hword⟩ :=
      getElem?_roundWords (Block.ofBytes key.val) roundConstants h hi
    rw [toBytes_expand, wordAt_flatMap hv, wordAt_flatMap hw, wordAt_flatMap hword,
      ← toBytes_wordAddend h hi]
    rfl

/-! ## Byte strings of all lengths -/

/-- **The key expansion is that of FIPS 197.** A byte string of sixteen bytes is expanded to the
bytes that the standard describes and to no others, and these are the secret that is shared. A byte
string of another length is refused with its length. -/
theorem expansion_standard (key : Bytes) :
    (key.length = 16 → ∃ schedule, (Key.ofBytes key).map expand = .ok schedule ∧
      (∀ bytes, ExpandedKey key bytes ↔ bytes = schedule.toBytes) ∧
      sharedSecret key .aesGcm128 .keySchedule = .ok schedule.toBytes) ∧
    (key.length ≠ 16 →
      (Key.ofBytes key).map expand = .error (.invalidKeyLength 16 key.length) ∧
      sharedSecret key .aesGcm128 .keySchedule = .error (.invalidKeyLength 16 key.length)) := by
  constructor
  · intro h
    have hkey : key.length = keyLength := h
    have halgorithm : key.length = Algorithm.aesGcm128.keyLength := h
    have hexpanded := expandedKey_expand ⟨key, hkey⟩
    refine ⟨expand ⟨key, hkey⟩, ?_, fun bytes => ⟨fun hbytes => hbytes.unique hexpanded, ?_⟩, ?_⟩
    · rw [Key.ofBytes, dif_pos hkey]
      rfl
    · rintro rfl
      exact hexpanded
    · rw [sharedSecret, dif_pos halgorithm]
  · intro h
    have hkey : ¬ key.length = keyLength := h
    have halgorithm : ¬ key.length = Algorithm.aesGcm128.keyLength := h
    constructor
    · rw [Key.ofBytes, dif_neg hkey]
      rfl
    · rw [sharedSecret, dif_neg halgorithm]
      rfl

/-- The key of appendix A.1 of the standard with its last round key, and a key that is too long. -/
theorem expansion_standard_appendix :
    let key : Bytes := [0x2b, 0x7e, 0x15, 0x16, 0x28, 0xae, 0xd2, 0xa6, 0xab, 0xf7, 0x15, 0x88,
      0x09, 0xcf, 0x4f, 0x3c]
    (∃ bytes, ExpandedKey key bytes ∧
      sharedSecret key .aesGcm128 .keySchedule = .ok bytes ∧
      bytes.drop 160 = [0xd0, 0x14, 0xf9, 0xa8, 0xc9, 0xee, 0x25, 0x89, 0xe1, 0x3f, 0x0c, 0xc8,
        0xb6, 0x63, 0x0c, 0xa6]) ∧
    sharedSecret (List.replicate 24 0) .aesGcm128 .keySchedule =
      .error (.invalidKeyLength 16 24) := by
  intro key
  constructor
  · obtain ⟨schedule, hschedule, hexpanded, hsecret⟩ := (expansion_standard key).1 rfl
    refine ⟨schedule.toBytes, (hexpanded _).mpr rfl, hsecret, ?_⟩
    have hkey : (Key.ofBytes key).map expand = .ok (expand ⟨key, rfl⟩) := rfl
    rw [hkey] at hschedule
    cases hschedule
    decide +kernel
  · exact ((expansion_standard (List.replicate 24 0)).2 (by decide)).2

end Aes

end KeySharing
