import KeySharing.Aes.Block

/-!
# The AES-128 key schedule and cipher

- `Aes.Key`: sixteen bytes.
- `Aes.KeySchedule`: the eleven round keys of a key; as bytes it is 176 bytes long
  (`Aes.KeySchedule.length_toBytes`).
- `Aes.expand`: each round key from the one before it and a round constant.
- `Aes.KeySchedule.encryptBlock`: the cipher on one block.
-/

namespace KeySharing

namespace Aes

/-- The length of a key in bytes. -/
def keyLength : Nat := 16

/-- The length of a key schedule in bytes. -/
def scheduleLength : Nat := 176

/-- An AES-128 key. -/
abbrev Key := SizedBytes keyLength

/-- The round constants: the powers of two in the field of AES. -/
def roundConstants : List UInt8 := [0x01, 0x02, 0x04, 0x08, 0x10, 0x20, 0x40, 0x80, 0x1b, 0x36]

/-- The round key after `k`: its first word takes the rotated, substituted last word of `k` and
the round constant, and every further word takes the word before it. -/
def Block.nextRoundKey (k : Block) (constant : UInt8) : Block :=
  let w0 := (k.w0.xor k.w3.rotate.substitute).xor ⟨constant, 0, 0, 0⟩
  let w1 := k.w1.xor w0
  let w2 := k.w2.xor w1
  let w3 := k.w3.xor w2
  ⟨w0, w1, w2, w3⟩

/-- A round key and those that follow it under the given constants. -/
def roundKeysFrom (k : Block) : List UInt8 → List Block
  | [] => [k]
  | constant :: constants => k :: roundKeysFrom (k.nextRoundKey constant) constants

@[simp] theorem length_roundKeysFrom (k : Block) (constants : List UInt8) :
    (roundKeysFrom k constants).length = constants.length + 1 := by
  induction constants generalizing k with
  | nil => rfl
  | cons c cs ih => simp [roundKeysFrom, ih]

/-- The eleven round keys of a key. -/
structure KeySchedule where
  /-- The round keys in order. -/
  roundKeys : List Block
  /-- One for the whitening and one for each of ten rounds. -/
  length_roundKeys : roundKeys.length = 11

/-- The key schedule of a key. -/
def expand (key : Key) : KeySchedule where
  roundKeys := roundKeysFrom (Block.ofBytes key.val) roundConstants
  length_roundKeys := by simp [roundConstants]

namespace KeySchedule

/-- The forty-four words. -/
def words (schedule : KeySchedule) : List Word := schedule.roundKeys.flatMap Block.words

/-- The bytes of the round keys, one after the other. -/
def toBytes (schedule : KeySchedule) : Bytes := schedule.roundKeys.flatMap Block.toBytes

@[simp] theorem length_toBytes (schedule : KeySchedule) :
    schedule.toBytes.length = scheduleLength := by
  have hsum : ∀ keys : List Block, (keys.flatMap Block.toBytes).length = 16 * keys.length := by
    intro keys
    induction keys with
    | nil => rfl
    | cons k ks ih => rw [List.flatMap_cons, List.length_append, ih]; simp; omega
  rw [toBytes, hsum, schedule.length_roundKeys]; rfl

/-- The rounds: all mix the columns but the last. -/
def runRounds : List Block → Block → Block
  | [], state => state
  | [k], state => state.substitute.shiftRows.xor k
  | k :: k' :: keys, state =>
    runRounds (k' :: keys) (state.substitute.shiftRows.mixColumns.xor k)

/-- The encrypted block. -/
def encryptBlock (schedule : KeySchedule) (block : Block) : Block :=
  match schedule.roundKeys with
  | [] => block
  | k :: keys => runRounds keys (block.xor k)

end KeySchedule

end Aes

end KeySharing
