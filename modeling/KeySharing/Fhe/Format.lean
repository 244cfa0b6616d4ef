/-!
# Formats of encrypted results

The parts of an encrypted result travel as texts, which stand for bytes in one of two ways.
-/

namespace KeySharing

namespace Fhe

/-- How a text stands for the bytes of a part. -/
inductive Format where
  /-- The text is the URL-safe Base64 form of the bytes. -/
  | binary
  /-- The bytes are the UTF-8 form of the text. -/
  | json
deriving DecidableEq

/-- The name of a format. -/
def Format.name : Format → String
  | .binary => "binary"
  | .json => "json"

end Fhe

end KeySharing
