import KeySharing.Bytes

/-!
# DER

The distinguished encoding of the few types that key files need. Writing gives one form for each
value, and reading accepts only that form: lengths and integers take no octet more than they
need.

- `Der.element`, `Der.readElement`: an element with its tag and length.
- `Der.naturalContent`, `Der.natural?`: natural numbers as integers.
-/

namespace KeySharing

namespace Der

/-! ## Tags -/

/-- The tag of an integer. -/
def integerTag : UInt8 := 0x02

/-- The tag of a bit string. -/
def bitStringTag : UInt8 := 0x03

/-- The tag of an octet string. -/
def octetStringTag : UInt8 := 0x04

/-- The tag of a null. -/
def nullTag : UInt8 := 0x05

/-- The tag of an object identifier. -/
def objectIdentifierTag : UInt8 := 0x06

/-- The tag of a sequence. -/
def sequenceTag : UInt8 := 0x30

/-- The universal types that a reader knows. -/
def universalTags : List UInt8 :=
  [0x01, 0x02, 0x03, 0x04, 0x05, 0x06, 0x09, 0x0a, 0x0c, 0x12, 0x13, 0x14, 0x15, 0x16, 0x17, 0x18,
    0x1a, 0x1b, 0x1e, 0x30, 0x31]

/-- Whether a tag is a known universal type, or one of the other classes in one octet. -/
def isKnownTag (tag : UInt8) : Bool :=
  universalTags.contains tag || (0x40 ≤ tag && tag &&& 0x1f != 0x1f)

/-- The number of a context-specific tag. -/
def contextNumber? (tag : UInt8) : Option Nat :=
  if tag &&& 0xc0 = 0x80 then some (tag &&& 0x1f).toNat else none

/-! ## Lengths and elements -/

/-- A length: one octet below 128, otherwise the count of octets and the octets. -/
def lengthOctets (n : Nat) : Bytes :=
  if n < 128 then [UInt8.ofNat n]
  else UInt8.ofNat (128 + Bytes.width n) :: Bytes.bigEndian (Bytes.width n) n

/-- An element with its tag and length. -/
def element (tag : UInt8) (content : Bytes) : Bytes :=
  tag :: (lengthOctets content.length ++ content)

/-- The longest content that a reader takes, in bytes. -/
def maxLength : Nat := 1 <<< 28 - 1

/-- A length at the start of a byte string, and the rest. At most four octets are read, the first
of them is not zero, and a length below 128 stands in one octet. -/
def readLength : Bytes → Option (Nat × Bytes)
  | [] => none
  | first :: rest =>
    if first.toNat < 128 then some (first.toNat, rest)
    else
      let count := first.toNat - 128
      let octets := rest.take count
      let n := Bytes.ofBigEndian octets
      if 1 ≤ count ∧ count ≤ 4 ∧ octets.length = count ∧ 128 ≤ n ∧ n ≤ maxLength ∧
          octets.head? ≠ some 0 then
        some (n, rest.drop count)
      else none

/-- The tag and content of the element at the start of a byte string, and the rest. -/
def readElement : Bytes → Option (UInt8 × Bytes × Bytes)
  | [] => none
  | tag :: rest =>
    if isKnownTag tag then do
      let (n, rest) ← readLength rest
      if n ≤ rest.length then some (tag, rest.take n, rest.drop n) else none
    else none

/-- The content of the element at the start, if it has the given tag, and the rest. -/
def expect (tag : UInt8) (bytes : Bytes) : Option (Bytes × Bytes) := do
  let (found, content, rest) ← readElement bytes
  if found = tag then some (content, rest) else none

/-- The content of an element with the given tag that is the whole byte string. -/
def expectOnly (tag : UInt8) (bytes : Bytes) : Option Bytes := do
  let (content, rest) ← expect tag bytes
  if rest.isEmpty then some content else none

/-! ## Values -/

/-- The content of an integer that is a natural number: as many octets as leave the sign bit
clear. -/
def naturalContent (n : Nat) : Bytes :=
  Bytes.bigEndian ((if n = 0 then 0 else n.log2 + 1) / 8 + 1) n

/-- The natural number of the content of an integer. The sign bit is clear, and a zero octet
stands in front only where the next octet needs it. -/
def natural? : Bytes → Option Nat
  | [] => none
  | [b] => if b.toNat < 128 then some b.toNat else none
  | b :: c :: rest =>
    if b.toNat < 128 ∧ (b = 0 → 128 ≤ c.toNat) then some (Bytes.ofBigEndian (b :: c :: rest))
    else none

/-- A natural number as an integer element. -/
def natural (n : Nat) : Bytes := element integerTag (naturalContent n)

/-- The natural number at the start of a byte string, and the rest. -/
def readNatural (bytes : Bytes) : Option (Nat × Bytes) := do
  let (content, rest) ← expect integerTag bytes
  let n ← natural? content
  some (n, rest)

/-- The given count of natural numbers that make up a byte string. -/
def naturals : (count : Nat) → Bytes → Option (List Nat)
  | 0, bytes => if bytes.isEmpty then some [] else none
  | count + 1, bytes => do
    let (n, rest) ← readNatural bytes
    let ns ← naturals count rest
    some (n :: ns)

/-- A byte string as a bit string element without unused bits. -/
def bitString (bytes : Bytes) : Bytes := element bitStringTag (0 :: bytes)

/-- The bytes of the content of a bit string without unused bits. -/
def bits? : Bytes → Option Bytes
  | 0 :: bytes => some bytes
  | _ => none

end Der

end KeySharing
