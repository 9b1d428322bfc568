import ModelLoading.Bytes
import ModelLoading.Decode.Error

/-!
# A reader over a byte buffer

A `Reader` is a buffer and a position in it that never leaves it. A `Read` is a computation that
moves the position; after an error the reader stands where the failed read left it, and reading can
go on from there.

All reads are built from `Reader.take`, which either takes exactly the bytes asked for or takes
none of them.
-/

namespace ModelLoading.Decode

/-- A position in a byte buffer. -/
structure Reader where
  /-- The whole buffer. -/
  data : Bytes
  /-- How many bytes were consumed. -/
  position : Nat := 0
  /-- The position lies in the buffer. -/
  position_le : position ≤ data.length := by exact Nat.zero_le _

/-- A computation that reads; an error keeps the position that was reached. -/
abbrev Read := ExceptT Error (StateM Reader)

namespace Reader

/-- A reader at the start of a buffer. -/
def ofBytes (data : Bytes) : Reader := { data }

/-- How many bytes are left. -/
def remaining (r : Reader) : Nat := r.data.length - r.position

/-- Whether every byte was consumed. -/
def atEnd (r : Reader) : Bool := r.data.length ≤ r.position

/-- The bytes that are left. -/
def rest (r : Reader) : Bytes := r.data.drop r.position

/-- The current position. -/
def offset : Read Nat := fun r => (.ok r.position, r)

/-- The next `count` bytes; when fewer are left, none is consumed. -/
def take (count : Nat) : Read Bytes := fun r =>
  if h : r.position + count ≤ r.data.length then
    (.ok (r.rest.take count), { r with position := r.position + count, position_le := h })
  else
    (.error (.unexpectedEnd r.position count r.remaining), r)

/-- The next `width` bytes as a little-endian number. -/
def word (width : Nat) : Read Nat := return (← take width).toNat

/-- One byte. -/
def byte : Read UInt8 := return UInt8.ofNat (← word 1)

/-- One byte; any but zero is true. -/
def boolean : Read Bool := return (← byte) != 0

/-- A signed 16-bit number in two's complement. -/
def int16 : Read Int16 := return (UInt16.ofNat (← word 2)).toInt16

/-- A signed 32-bit number in two's complement. -/
def int32 : Read Int32 := return (UInt32.ofNat (← word 4)).toInt32

/-- An unsigned 32-bit number; also the bit pattern of a single-precision number. -/
def uint32 : Read UInt32 := return UInt32.ofNat (← word 4)

/-- A signed 64-bit number in two's complement. -/
def int64 : Read Int64 := return (UInt64.ofNat (← word 8)).toInt64

/-- The bit pattern of a double-precision number. -/
def uint64 : Read UInt64 := return UInt64.ofNat (← word 8)

/-- A count stored as a signed 32-bit number. A negative one is refused after it was consumed. -/
def length : Read Nat := do
  let start ← offset
  let stored ← int32
  if stored.toInt < 0 then
    throw (.invalidLength start stored.toInt)
  else
    return stored.toInt.toNat

/-- The rest of a 7-bit number that began at `start`, after its low `shift` bits gave `low`: at
most `more` bytes that announce a successor, then a last one. A fifth byte has room for four bits
only. -/
def compactFrom (start : Nat) : (more shift low : Nat) → Read Int32
  | 0, shift, low => do
    let last ← byte
    if 0x0F < last then
      throw (.invalidLength start last.toNat)
    else
      return (UInt32.ofNat (low + last.toNat * 2 ^ shift)).toInt32
  | more + 1, shift, low => do
    let digit ← byte
    if digit < 0x80 then
      return (UInt32.ofNat (low + digit.toNat * 2 ^ shift)).toInt32
    else
      compactFrom start more (shift + 7) (low + (digit.toNat - 0x80) * 2 ^ shift)

/-- A signed 32-bit number in groups of seven bits, low group first, in at most five bytes; each
byte but the last has its high bit set. -/
def compact : Read Int32 := do
  compactFrom (← offset) 4 0 0

/-- A text in UTF-8 behind its byte length, which is a 7-bit number. -/
def text : Read String := do
  let start ← offset
  let size ← compact
  if size.toInt < 0 then
    throw (.invalidLength start size.toInt)
  else
    let encoded ← take size.toInt.toNat
    match encoded.text? with
    | some s => return s
    | none => throw (.invalidUtf8 start)

end Reader

end ModelLoading.Decode
