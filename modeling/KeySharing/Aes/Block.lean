import KeySharing.Aes.Substitution
import KeySharing.Bytes

/-!
# Words, blocks and the round transformations

A word is four bytes: a column of the cipher state and a unit of the key schedule. A block is
four words.

- `Aes.Word`: `xor`, `substitute`, `rotate` (one byte to the left) and `mix` (the column map).
- `Aes.Block`: `ofBytes` fills a short string up with zeros, `toBytes` gives the sixteen bytes.
- `Aes.Block.substitute`, `Aes.Block.shiftRows`, `Aes.Block.mixColumns`: the parts of a round.
-/

namespace KeySharing

namespace Aes

/-- Four bytes. -/
@[ext] structure Word where
  /-- The first byte. -/
  b0 : UInt8
  /-- The second byte. -/
  b1 : UInt8
  /-- The third byte. -/
  b2 : UInt8
  /-- The fourth byte. -/
  b3 : UInt8

namespace Word

/-- Exclusive or of two words. -/
def xor (v w : Word) : Word := ⟨v.b0 ^^^ w.b0, v.b1 ^^^ w.b1, v.b2 ^^^ w.b2, v.b3 ^^^ w.b3⟩

/-- The word with every byte substituted. -/
def substitute (w : Word) : Word :=
  ⟨Aes.substitute w.b0, Aes.substitute w.b1, Aes.substitute w.b2, Aes.substitute w.b3⟩

/-- The word turned one byte to the left. -/
def rotate (w : Word) : Word := ⟨w.b1, w.b2, w.b3, w.b0⟩

/-- The bytes in order. -/
def toBytes (w : Word) : Bytes := [w.b0, w.b1, w.b2, w.b3]

@[simp] theorem length_toBytes (w : Word) : w.toBytes.length = 4 := rfl

end Word

/-- The double of a byte in the field of AES. -/
def double (b : UInt8) : UInt8 := if b &&& 0x80 = 0 then b <<< 1 else (b <<< 1) ^^^ 0x1b

/-- The triple of a byte in the field of AES. -/
def triple (b : UInt8) : UInt8 := double b ^^^ b

/-- The column map: every byte becomes a sum of the four with the factors 2, 3, 1 and 1. -/
def Word.mix (w : Word) : Word where
  b0 := double w.b0 ^^^ triple w.b1 ^^^ w.b2 ^^^ w.b3
  b1 := w.b0 ^^^ double w.b1 ^^^ triple w.b2 ^^^ w.b3
  b2 := w.b0 ^^^ w.b1 ^^^ double w.b2 ^^^ triple w.b3
  b3 := triple w.b0 ^^^ w.b1 ^^^ w.b2 ^^^ double w.b3

/-- Four words: the cipher state, a round key, a block of text. -/
@[ext] structure Block where
  /-- The first column. -/
  w0 : Word
  /-- The second column. -/
  w1 : Word
  /-- The third column. -/
  w2 : Word
  /-- The fourth column. -/
  w3 : Word

namespace Block

/-- The block of the first sixteen bytes; missing bytes are zero. -/
def ofBytes (bytes : Bytes) : Block :=
  let word (i : Nat) : Word :=
    ⟨bytes.getD i 0, bytes.getD (i + 1) 0, bytes.getD (i + 2) 0, bytes.getD (i + 3) 0⟩
  ⟨word 0, word 4, word 8, word 12⟩

/-- The words in order. -/
def words (s : Block) : List Word := [s.w0, s.w1, s.w2, s.w3]

/-- The sixteen bytes, column by column. -/
def toBytes (s : Block) : Bytes := s.words.flatMap Word.toBytes

@[simp] theorem length_toBytes (s : Block) : s.toBytes.length = 16 := rfl

/-- Exclusive or of two blocks. -/
def xor (s t : Block) : Block := ⟨s.w0.xor t.w0, s.w1.xor t.w1, s.w2.xor t.w2, s.w3.xor t.w3⟩

/-- Every byte substituted. -/
def substitute (s : Block) : Block :=
  ⟨s.w0.substitute, s.w1.substitute, s.w2.substitute, s.w3.substitute⟩

/-- Row `r` turned `r` columns to the left. -/
def shiftRows (s : Block) : Block where
  w0 := ⟨s.w0.b0, s.w1.b1, s.w2.b2, s.w3.b3⟩
  w1 := ⟨s.w1.b0, s.w2.b1, s.w3.b2, s.w0.b3⟩
  w2 := ⟨s.w2.b0, s.w3.b1, s.w0.b2, s.w1.b3⟩
  w3 := ⟨s.w3.b0, s.w0.b1, s.w1.b2, s.w2.b3⟩

/-- The column map on every column. -/
def mixColumns (s : Block) : Block := ⟨s.w0.mix, s.w1.mix, s.w2.mix, s.w3.mix⟩

end Block

end Aes

end KeySharing
