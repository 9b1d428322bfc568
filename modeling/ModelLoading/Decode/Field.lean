import ModelLoading.Decode.Reader

/-!
# Kinds of stored values

A `Field` names one way a value is stored, `Field.Value` is the type of what is stored, and
`Field.read` reads it. Floating-point numbers are kept as their bit patterns, so that no payload of
a NaN is lost. `Datum` is a value of any kind, as a decoder written as data returns it.
-/

namespace ModelLoading.Decode

/-- A way of storing a value in a byte buffer. -/
inductive Field where
  | byte
  | boolean
  | int16
  | int32
  | uint32
  | int64
  | single
  | double
  /-- A count, stored as a signed 32-bit number that must not be negative. -/
  | length
  /-- A signed 32-bit number in groups of seven bits. -/
  | compact
  /-- A text in UTF-8 behind its byte length. -/
  | text
  /-- A fixed number of raw bytes. -/
  | block (size : Nat)
  deriving DecidableEq, Repr

/-- The type of the values stored under a field. -/
@[reducible] def Field.Value : Field → Type
  | byte => UInt8
  | boolean => Bool
  | int16 => Int16
  | int32 => Int32
  | uint32 => UInt32
  | int64 => Int64
  | single => UInt32
  | double => UInt64
  | length => Nat
  | compact => Int32
  | text => String
  | block _ => Bytes

/-- Reads a value stored under a field. -/
def Field.read : (f : Field) → Read f.Value
  | byte => Reader.byte
  | boolean => Reader.boolean
  | int16 => Reader.int16
  | int32 => Reader.int32
  | uint32 => Reader.uint32
  | int64 => Reader.int64
  | single => Reader.uint32
  | double => Reader.uint64
  | length => Reader.length
  | compact => Reader.compact
  | text => Reader.text
  | block size => Reader.take size

/-- A value of any kind. -/
inductive Datum where
  /-- No value: the step had nothing to return. -/
  | nothing
  | integer (n : Int)
  | boolean (b : Bool)
  /-- A single-precision number by its bits. -/
  | single (bits : UInt32)
  /-- A double-precision number by its bits. -/
  | double (bits : UInt64)
  | text (s : String)
  | block (b : Bytes)
  | list (items : List Datum)

/-- A stored value as a datum. -/
def Field.datum : (f : Field) → f.Value → Datum
  | byte, v => .integer v.toNat
  | boolean, v => .boolean v
  | int16, v => .integer v.toInt
  | int32, v => .integer v.toInt
  | uint32, v => .integer v.toNat
  | int64, v => .integer v.toInt
  | single, v => .single v
  | double, v => .double v
  | length, v => .integer v
  | compact, v => .integer v.toInt
  | text, v => .text v
  | block _, v => .block v

end ModelLoading.Decode
