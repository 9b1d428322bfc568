/-!
# Bytes

A byte buffer is a list of bytes, first byte first. Its two readings are a little-endian number and
a text in UTF-8.
-/

namespace ModelLoading

/-- Raw bytes, first byte first. -/
abbrev Bytes := List UInt8

namespace Bytes

/-- The number whose little-endian digits in base 256 these are. -/
def toNat : Bytes → Nat
  | [] => 0
  | b :: rest => b.toNat + 256 * toNat rest

/-- The text that these bytes encode in UTF-8, when they encode one. -/
def text? (b : Bytes) : Option String :=
  String.fromUTF8? b.toByteArray

/-- The UTF-8 encoding of a text. -/
def ofText (s : String) : Bytes :=
  s.toByteArray.data.toList

end Bytes

end ModelLoading
