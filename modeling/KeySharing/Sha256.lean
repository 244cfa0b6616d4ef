import KeySharing.Bytes

/-!
# SHA-256

- `Sha256.pad`: the message followed by one set bit, zeros and its length in bits, a multiple of
  64 bytes.
- `Sha256.schedule`: the 64 words of one block, grown from a window of sixteen.
- `Sha256.compress`: one block folded into the eight words of the state.
- `sha256`: the digest, with its length in its type.
-/

namespace KeySharing

/-- The length of a digest in bytes. -/
def digestLength : Nat := 32

/-- A SHA-256 digest. -/
abbrev Digest := SizedBytes digestLength

namespace Sha256

/-! ## Words -/

/-- A word turned to the right. -/
def rotateRight (x : UInt32) (n : UInt32) : UInt32 := (x >>> n) ||| (x <<< (32 - n))

/-- The four bytes of a word, most significant first. -/
def wordBytes (x : UInt32) : Bytes :=
  [(x >>> 24).toUInt8, (x >>> 16).toUInt8, (x >>> 8).toUInt8, x.toUInt8]

/-- The words of a byte string; an incomplete word at the end is dropped. -/
def words : Bytes → List UInt32
  | a :: b :: c :: d :: rest =>
    ((a.toUInt32 <<< 24) ||| (b.toUInt32 <<< 16) ||| (c.toUInt32 <<< 8) ||| d.toUInt32) ::
      words rest
  | _ => []

/-- The message filled up to whole blocks. -/
def pad (message : Bytes) : Bytes :=
  message ++ 0x80 :: List.replicate ((119 - message.length % 64) % 64) 0 ++
    Bytes.bigEndian 8 (8 * message.length)

/-! ## The message schedule -/

/-- The word that follows a window of sixteen. -/
def nextWord (window : List UInt32) : UInt32 :=
  let w0 := window.getD 0 0
  let w1 := window.getD 1 0
  let w9 := window.getD 9 0
  let w14 := window.getD 14 0
  let s0 := rotateRight w1 7 ^^^ rotateRight w1 18 ^^^ (w1 >>> 3)
  let s1 := rotateRight w14 17 ^^^ rotateRight w14 19 ^^^ (w14 >>> 10)
  w0 + s0 + w9 + s1

/-- A window of words and the `count` words that follow it. -/
def schedule : (count : Nat) → (window : List UInt32) → List UInt32
  | 0, window => window
  | count + 1, window =>
    window.take 1 ++ schedule count (window.drop 1 ++ [nextWord window])

/-! ## Compression -/

/-- The eight chaining words. -/
structure State where
  /-- Word 0. -/
  a : UInt32
  /-- Word 1. -/
  b : UInt32
  /-- Word 2. -/
  c : UInt32
  /-- Word 3. -/
  d : UInt32
  /-- Word 4. -/
  e : UInt32
  /-- Word 5. -/
  f : UInt32
  /-- Word 6. -/
  g : UInt32
  /-- Word 7. -/
  h : UInt32

/-- The initial words: square roots of the first eight primes. -/
def State.initial : State where
  a := 0x6a09e667
  b := 0xbb67ae85
  c := 0x3c6ef372
  d := 0xa54ff53a
  e := 0x510e527f
  f := 0x9b05688c
  g := 0x1f83d9ab
  h := 0x5be0cd19

/-- The round constants: cube roots of the first sixty-four primes. -/
def roundConstants : List UInt32 := [
  0x428a2f98, 0x71374491, 0xb5c0fbcf, 0xe9b5dba5, 0x3956c25b, 0x59f111f1, 0x923f82a4, 0xab1c5ed5,
  0xd807aa98, 0x12835b01, 0x243185be, 0x550c7dc3, 0x72be5d74, 0x80deb1fe, 0x9bdc06a7, 0xc19bf174,
  0xe49b69c1, 0xefbe4786, 0x0fc19dc6, 0x240ca1cc, 0x2de92c6f, 0x4a7484aa, 0x5cb0a9dc, 0x76f988da,
  0x983e5152, 0xa831c66d, 0xb00327c8, 0xbf597fc7, 0xc6e00bf3, 0xd5a79147, 0x06ca6351, 0x14292967,
  0x27b70a85, 0x2e1b2138, 0x4d2c6dfc, 0x53380d13, 0x650a7354, 0x766a0abb, 0x81c2c92e, 0x92722c85,
  0xa2bfe8a1, 0xa81a664b, 0xc24b8b70, 0xc76c51a3, 0xd192e819, 0xd6990624, 0xf40e3585, 0x106aa070,
  0x19a4c116, 0x1e376c08, 0x2748774c, 0x34b0bcb5, 0x391c0cb3, 0x4ed8aa4a, 0x5b9cca4f, 0x682e6ff3,
  0x748f82ee, 0x78a5636f, 0x84c87814, 0x8cc70208, 0x90befffa, 0xa4506ceb, 0xbef9a3f7, 0xc67178f2]

/-- One round, given its constant plus its schedule word. -/
def State.round (s : State) (input : UInt32) : State :=
  let bigSigma1 := rotateRight s.e 6 ^^^ rotateRight s.e 11 ^^^ rotateRight s.e 25
  let choice := (s.e &&& s.f) ^^^ (~~~s.e &&& s.g)
  let t1 := s.h + bigSigma1 + choice + input
  let bigSigma0 := rotateRight s.a 2 ^^^ rotateRight s.a 13 ^^^ rotateRight s.a 22
  let majority := (s.a &&& s.b) ^^^ (s.a &&& s.c) ^^^ (s.b &&& s.c)
  { a := t1 + (bigSigma0 + majority), b := s.a, c := s.b, d := s.c,
    e := s.d + t1, f := s.e, g := s.f, h := s.g }

/-- Word-wise sum of two states. -/
def State.add (s t : State) : State :=
  { a := s.a + t.a, b := s.b + t.b, c := s.c + t.c, d := s.d + t.d,
    e := s.e + t.e, f := s.f + t.f, g := s.g + t.g, h := s.h + t.h }

/-- One block folded into the state. -/
def compress (state : State) (block : Bytes) : State :=
  state.add ((List.zipWith (· + ·) roundConstants (schedule 48 (words block))).foldl State.round
    state)

/-- The bytes of the eight words. -/
def State.toBytes (s : State) : Bytes :=
  wordBytes s.a ++ wordBytes s.b ++ wordBytes s.c ++ wordBytes s.d ++ wordBytes s.e ++
    wordBytes s.f ++ wordBytes s.g ++ wordBytes s.h

theorem State.length_toBytes (s : State) : s.toBytes.length = digestLength := rfl

end Sha256

/-- The SHA-256 digest of a byte string. -/
def sha256 (message : Bytes) : Digest :=
  let state := (Bytes.pieces 64 (Sha256.pad message)).foldl Sha256.compress Sha256.State.initial
  ⟨state.toBytes, state.length_toBytes⟩

@[simp] theorem length_sha256 (message : Bytes) : (sha256 message).val.length = 32 :=
  (sha256 message).property

end KeySharing
