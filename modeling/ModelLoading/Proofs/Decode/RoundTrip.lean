import Mathlib.Algebra.Group.Nat.Defs
import ModelLoading.Proofs.Decode.Groups

/-!
# Reading what was written

`Field.write` lays a value out as bytes: numbers of a fixed width with their low byte first, a number
in groups of seven bits in as few bytes as it needs, a text behind its byte length. Each read takes
exactly the bytes that are written under its field (`takes_write`), whatever stands before and after
them, so a whole list of values is read back as it was written.
-/

namespace ModelLoading

/-! ## 1. Layouts of numbers -/

namespace Bytes

/-- A number in a fixed number of bytes, low byte first. -/
def ofNat : (width n : Nat) → Bytes
  | 0, _ => []
  | width + 1, n => UInt8.ofNat n :: ofNat width (n / 256)

@[simp] theorem length_ofNat (width n : Nat) : (ofNat width n).length = width := by
  induction width generalizing n with
  | zero => rfl
  | succ width ih => simp [ofNat, ih]

theorem toNat_ofNat {width n : Nat} (h : n < 256 ^ width) : (ofNat width n).toNat = n := by
  induction width generalizing n with
  | zero =>
    have zero : n = 0 := by simpa using h
    subst zero
    rfl
  | succ width ih =>
    have small : n / 256 < 256 ^ width := by
      rw [Nat.div_lt_iff_lt_mul (by decide), ← Nat.pow_succ]
      exact h
    have low : (UInt8.ofNat n).toNat = n % 256 := UInt8.toNat_ofNat'
    rw [ofNat, toNat, ih small, low]
    exact Nat.mod_add_div n 256

/-- What a text is encoded as is read as that text. -/
theorem text?_ofText (s : String) : (ofText s).text? = some s := by
  have same : (ofText s).toByteArray = s.toByteArray :=
    ByteArray.ext (by simp [ofText, List.data_toByteArray])
  unfold text?
  rw [same, String.fromUTF8?, dif_pos s.isValidUTF8]
  rfl

end Bytes

namespace Decode

/-! ## 2. The layout of a value -/

/-- Whether a value can be stored under a field: counts and the lengths of texts are signed 32-bit
numbers, and a block has the size of its field. -/
def Field.Fits : (f : Field) → f.Value → Prop
  | length, n => n < 2 ^ 31
  | text, s => (Bytes.ofText s).length < 2 ^ 31
  | block size, b => b.length = size
  | byte, _ | boolean, _ | int16, _ | int32, _ | uint32, _ | int64, _ | single, _ | double, _
  | compact, _ => True

/-- The bytes that a value is stored as. -/
def Field.write : (f : Field) → f.Value → Bytes
  | byte, v => [v]
  | boolean, v => [if v then 1 else 0]
  | int16, v => .ofNat 2 v.toUInt16.toNat
  | int32, v => .ofNat 4 v.toUInt32.toNat
  | uint32, v | single, v => .ofNat 4 v.toNat
  | int64, v => .ofNat 8 v.toUInt64.toNat
  | double, v => .ofNat 8 v.toNat
  | length, n => .ofNat 4 n
  | compact, v => .compact v.toUInt32.toNat
  | text, s => .compact (Bytes.ofText s).length ++ .ofText s
  | block _, b => b

/-! ## 3. Each read takes what is written -/

section Takes

variable (before : Bytes)

/-- A value that is made from a number of a fixed width. -/
theorem takes_number {α : Type} {width n : Nat} {make : Nat → α} {v : α} (h : n < 256 ^ width)
    (same : make n = v) :
    Takes before (do return make (← Reader.word width)) (.ofNat width n) v := by
  have taken := takes_take before (.ofNat width n)
  rw [Bytes.length_ofNat] at taken
  have word := taken.map Bytes.toNat
  rw [Bytes.toNat_ofNat h] at word
  exact same ▸ word.map make

/-- A number below `2 ^ 31` is the same number with a sign. -/
theorem toInt_of_lt {n : Nat} (h : n < 2 ^ 31) : (UInt32.ofNat n).toInt32.toInt = n := by
  rw [UInt32.toInt32_ofNat', Int32.toInt_ofNat_of_lt h]

theorem takes_length {n : Nat} (h : n < 2 ^ 31) : Takes before Reader.length (.ofNat 4 n) n := by
  have stored : Takes before Reader.int32 (.ofNat 4 n) (UInt32.ofNat n).toInt32 :=
    takes_number before (by omega) rfl
  refine takes_offset_bind (stored.bind_nil ?_)
  rw [toInt_of_lt h, if_neg (by omega)]
  exact takes_pure

theorem takes_text {s : String} (h : (Bytes.ofText s).length < 2 ^ 31) :
    Takes before Reader.text (.compact (Bytes.ofText s).length ++ .ofText s) s := by
  have size := takes_compact before (UInt32.ofNat (Bytes.ofText s).length).toInt32
  rw [UInt32.toUInt32_toInt32, UInt32.toNat_ofNat_of_lt' (by simp only [UInt32.size]; omega)] at size
  refine takes_offset_bind (size.bind ?_)
  rw [toInt_of_lt h, if_neg (by omega), Int.toNat_natCast]
  refine (takes_take _ _).bind_nil ?_
  rw [Bytes.text?_ofText]
  exact takes_pure

/-- Every read takes exactly the bytes that are written under its field. -/
theorem takes_write (f : Field) (v : f.Value) (fits : f.Fits v) :
    Takes before f.read (f.write v) v := by
  cases f with
  | byte => exact takes_byte before v
  | boolean =>
    have byte := takes_byte before (if v then 1 else 0)
    have read := byte.map (· != 0)
    cases v <;> exact read
  | int16 => exact takes_number before v.toUInt16.toNat_lt (by simp)
  | int32 => exact takes_number before v.toUInt32.toNat_lt (by simp)
  | uint32 | single => exact takes_number before v.toNat_lt UInt32.ofNat_toNat
  | int64 => exact takes_number before v.toUInt64.toNat_lt (by simp)
  | double => exact takes_number before v.toNat_lt UInt64.ofNat_toNat
  | length => exact takes_length before fits
  | compact => exact takes_compact before v
  | text => exact takes_text before fits
  | block size =>
    have taken := takes_take before v
    rwa [show v.length = size from fits] at taken

end Takes

/-! ## 4. Lists of values -/

/-- A value together with the field under which it can be stored. -/
structure Stored where
  field : Field
  value : field.Value
  fits : field.Fits value

/-- The bytes of values one after another. -/
def Stored.writeAll (l : List Stored) : Bytes := l.flatMap fun s => s.field.write s.value

/-- Reads values under fields one after another. -/
def Field.readAll : List Field → Read (List ((f : Field) × f.Value))
  | [] => pure []
  | f :: rest => do
    let v ← f.read
    return ⟨f, v⟩ :: (← readAll rest)

theorem takes_writeAll (before : Bytes) (l : List Stored) :
    Takes before (Field.readAll (l.map (·.field))) (Stored.writeAll l)
      (l.map fun s => ⟨s.field, s.value⟩) := by
  induction l generalizing before with
  | nil => exact takes_pure
  | cons s l ih =>
    have first := takes_write before s.field s.value s.fits
    exact first.bind ((ih _).map (⟨s.field, s.value⟩ :: ·))

/-- **What was written is read back.** Values of any kinds, written one after another with any bytes
before and after them, are read back by the matching reads: each of these succeeds, the values are those
that were written, and the reader stops where the written bytes end. -/
theorem read_what_was_written (l : List Stored) (before after : Bytes) :
    Field.readAll (l.map (·.field)) (.between before (Stored.writeAll l ++ after)) =
      (.ok (l.map fun s => ⟨s.field, s.value⟩), .between (before ++ Stored.writeAll l) after) :=
  takes_writeAll before l after

end Decode

end ModelLoading
