import ModelLoading.Proofs.Decode.Groups

/-!
# Reading on machine words

A `Reader` cannot leave its buffer, by its type. Here the same reads work on a cursor whose position is any
64-bit word, with the steps of a machine: a difference below zero, a sum beyond the word, a slice outside
the buffer, an index that is not there, a copy of another size and a shift by more bits than there are
stop the program. On every buffer whose length is a word none of this happens: each read comes to the same
answer and the same place as the read of the reader (`follows_read`), because `Reader.take` does
(`follows_take`) and the rest is put together in the same way.
-/

namespace ModelLoading.Decode

variable {α β : Type}

/-! ## 1. The machine -/

namespace Machine

/-- A buffer and a position, of which nothing says that it lies in the buffer. -/
structure Cursor where
  data : Bytes
  position : UInt64

/-- A computation that reads. It has no answer where the program stops. -/
abbrev Read := ExceptT Error (StateT Cursor Option)

/-- One step of the machine. -/
def step (answer : Option α) : Read α := fun c => answer.map fun v => (.ok v, c)

def subtract (a b : UInt64) : Option UInt64 := if b ≤ a then some (a - b) else none

def add (a b : UInt64) : Option UInt64 :=
  if a.toNat + b.toNat < 2 ^ 64 then some (a + b) else none

def slice (b : Bytes) (start stop : UInt64) : Option Bytes :=
  if start ≤ stop ∧ stop.toNat ≤ b.length then
    some ((b.drop start.toNat).take (stop - start).toNat)
  else none

/-- Copies bytes into an array, whose size must be their number. -/
def copy (width : Nat) (b : Bytes) : Option Bytes := if b.length = width then some b else none

def shiftLeft (n : UInt32) (bits : Nat) : Option UInt32 :=
  if bits < 32 then some (n <<< UInt32.ofNat bits) else none

def offset : Read Nat := fun c => some (.ok c.position.toNat, c)

def take (count : UInt64) : Read Bytes := fun c => do
  let left ← subtract (UInt64.ofNat c.data.length) c.position
  if left < count then
    return (.error (.unexpectedEnd c.position.toNat count.toNat left.toNat), c)
  else
    let stop ← add c.position count
    let bytes ← slice c.data c.position stop
    return (.ok bytes, { c with position := stop })

def word (width : Nat) : Read Nat := do
  let bytes ← take (UInt64.ofNat width)
  let digits ← step (copy width bytes)
  return digits.toNat

def byte : Read UInt8 := do
  let bytes ← take 1
  step bytes[0]?

def int32 : Read Int32 := return (UInt32.ofNat (← word 4)).toInt32

def length : Read Nat := do
  let start ← offset
  let stored ← int32
  if stored.toInt < 0 then
    throw (.invalidLength start stored.toInt)
  else
    return stored.toInt.toNat

/-- The rounds of the loop over the shifts. -/
def rounds (start : Nat) : List Nat → UInt32 → Read Int32
  | [], result => throw (.invalidLength start result.toNat)
  | shift :: shifts, result => do
    let digit ← byte
    if shift = 28 ∧ 0x0F < digit then
      throw (.invalidLength start digit.toNat)
    else
      let group ← step (shiftLeft (digit &&& 0x7F).toUInt32 shift)
      if digit &&& 0x80 = 0 then
        return (result ||| group).toInt32
      else
        rounds start shifts (result ||| group)

def compact : Read Int32 := do
  rounds (← offset) (List.range' 0 5 7) 0

def text : Read String := do
  let start ← offset
  let size ← compact
  if size.toInt < 0 then
    throw (.invalidLength start size.toInt)
  else
    let encoded ← take (UInt64.ofNat size.toInt.toNat)
    match encoded.text? with
    | some s => return s
    | none => throw (.invalidUtf8 start)

/-- Reads a value stored under a field. -/
def read : (f : Field) → Read f.Value
  | .byte => byte
  | .boolean => return (← byte) != 0
  | .int16 => return (UInt16.ofNat (← word 2)).toInt16
  | .int32 => int32
  | .uint32 | .single => return UInt32.ofNat (← word 4)
  | .int64 => return (UInt64.ofNat (← word 8)).toInt64
  | .double => return UInt64.ofNat (← word 8)
  | .length => length
  | .compact => compact
  | .text => text
  | .block size => take (UInt64.ofNat size)

/-! ### Its steps on numbers that fit -/

section Words

variable {a b : Nat}

theorem toNat_of_lt (h : a < 2 ^ 64) : (UInt64.ofNat a).toNat = a := UInt64.toNat_ofNat_of_lt' h

theorem le_of_words (fits : b < 2 ^ 64) (h : a ≤ b) : UInt64.ofNat a ≤ UInt64.ofNat b := by
  rw [UInt64.le_iff_toNat_le, toNat_of_lt fits, toNat_of_lt (Nat.lt_of_le_of_lt h fits)]
  exact h

theorem sub_of_words (fits : b < 2 ^ 64) (h : a ≤ b) :
    UInt64.ofNat b - UInt64.ofNat a = UInt64.ofNat (b - a) := by
  rw [← UInt64.toNat_inj, UInt64.toNat_sub_of_le _ _ (le_of_words fits h), toNat_of_lt fits,
    toNat_of_lt (Nat.lt_of_le_of_lt h fits), toNat_of_lt (Nat.lt_of_le_of_lt (Nat.sub_le ..) fits)]

theorem subtract_of_le (fits : b < 2 ^ 64) (h : a ≤ b) :
    subtract (UInt64.ofNat b) (UInt64.ofNat a) = some (UInt64.ofNat (b - a)) := by
  rw [subtract, if_pos (le_of_words fits h), sub_of_words fits h]

theorem add_of_lt (fits : a + b < 2 ^ 64) :
    add (UInt64.ofNat a) (UInt64.ofNat b) = some (UInt64.ofNat (a + b)) := by
  rw [add, toNat_of_lt (by omega), toNat_of_lt (by omega), if_pos fits, UInt64.ofNat_add]

theorem slice_of_le {bytes : Bytes} (fits : b < 2 ^ 64) (h : a ≤ b) (inside : b ≤ bytes.length) :
    slice bytes (UInt64.ofNat a) (UInt64.ofNat b) = some ((bytes.drop a).take (b - a)) := by
  rw [slice, sub_of_words fits h, toNat_of_lt fits, toNat_of_lt (Nat.lt_of_le_of_lt h fits),
    toNat_of_lt (Nat.lt_of_le_of_lt (Nat.sub_le ..) fits), if_pos ⟨le_of_words fits h, inside⟩]

end Words

theorem bind_of_ok {read : Read α} {next : α → Read β} {c c' : Cursor} {v : α}
    (h : read c = some (.ok v, c')) : (read >>= next) c = next v c' := by
  show (read c).bind (fun answer => ExceptT.bindCont next answer.1 answer.2) = next v c'
  rw [h]
  rfl

theorem bind_of_error {read : Read α} {next : α → Read β} {c c' : Cursor} {e : Error}
    (h : read c = some (.error e, c')) : (read >>= next) c = some (.error e, c') := by
  show (read c).bind (fun answer => ExceptT.bindCont next answer.1 answer.2) = some (.error e, c')
  rw [h]
  rfl

end Machine

/-! ## 2. Agreement -/

namespace Reader

/-- Another reader is in the same buffer, and not before this one. -/
structure Onward (r s : Reader) : Prop where
  data : s.data = r.data
  position : r.position ≤ s.position

variable {r s t : Reader}

theorem onward_refl (r : Reader) : r.Onward r := ⟨rfl, Nat.le_refl _⟩

theorem Onward.trans (h : r.Onward s) (k : s.Onward t) : r.Onward t :=
  ⟨k.data.trans h.data, Nat.le_trans h.position k.position⟩

theorem onward_take (count : Nat) (r : Reader) : r.Onward (take count r).2 := by
  unfold take
  split
  · exact ⟨rfl, Nat.le_add_right ..⟩
  · exact r.onward_refl

/-- The cursor of a reader. -/
def cursor (r : Reader) : Machine.Cursor where
  data := r.data
  position := UInt64.ofNat r.position

end Reader

/-- On every buffer whose length is a word, a read of the machine comes to the answer of a read of the
reader, which stays in the buffer and does not go back. -/
structure Follows (machine : Machine.Read α) (read : Read α) : Prop where
  onward : ∀ r : Reader, r.Onward (read r).2
  agrees : ∀ r : Reader, r.data.length < 2 ^ 64 →
    machine r.cursor = some ((read r).1, (read r).2.cursor)

section Follows

variable {machine other : Machine.Read α} {machine' : α → Machine.Read β} {read read' : Read α}
  {next : α → Read β}

theorem follows_pure (v : α) : Follows (pure v) (pure v) :=
  ⟨fun r => r.onward_refl, fun _ _ => rfl⟩

theorem follows_throw (e : Error) : Follows (throw e : Machine.Read α) (throw e) :=
  ⟨fun r => r.onward_refl, fun _ _ => rfl⟩

/-- What follows a read has to agree on the values that the read returns. -/
theorem Follows.bind_of_ok (first : Follows machine read)
    (then_ : ∀ r v s, read r = (.ok v, s) → Follows (machine' v) (next v)) :
    Follows (machine >>= machine') (read >>= next) := by
  have cases_ : ∀ r, r.Onward ((read >>= next) r).2 ∧ (r.data.length < 2 ^ 64 →
      (machine >>= machine') r.cursor =
        some (((read >>= next) r).1, ((read >>= next) r).2.cursor)) := by
    intro r
    have onward := first.onward r
    have agrees := first.agrees r
    cases outcome : read r with
    | mk answer s =>
      rw [outcome] at onward agrees
      cases answer with
      | ok v =>
        have later := then_ r v s outcome
        rw [Read.bind_of_ok outcome]
        refine ⟨onward.trans (later.onward s), fun fits => ?_⟩
        rw [Machine.bind_of_ok (agrees fits), later.agrees s (by rw [onward.data]; exact fits)]
      | error e =>
        rw [Read.bind_of_error outcome]
        exact ⟨onward, fun fits => Machine.bind_of_error (agrees fits)⟩
  exact ⟨fun r => (cases_ r).1, fun r => (cases_ r).2⟩

theorem Follows.bind (first : Follows machine read) (then_ : ∀ v, Follows (machine' v) (next v)) :
    Follows (machine >>= machine') (read >>= next) :=
  first.bind_of_ok fun _ v _ _ => then_ v

theorem Follows.map (h : Follows machine read) (f : α → β) :
    Follows (do return f (← machine)) (do return f (← read)) :=
  h.bind fun v => follows_pure (f v)

theorem follows_ite {c : Prop} [Decidable c] (h : Follows machine read) (k : Follows other read') :
    Follows (if c then machine else other) (if c then read else read') := by
  split
  · exact h
  · exact k

theorem follows_offset : Follows Machine.offset Reader.offset := by
  refine ⟨fun r => r.onward_refl, fun r fits => ?_⟩
  have position : (UInt64.ofNat r.position).toNat = r.position :=
    UInt64.toNat_ofNat_of_lt' (Nat.lt_of_le_of_lt r.position_le fits)
  exact congrArg (fun n => some (Except.ok n, r.cursor)) position

/-- Bytes are taken without a step that stops the program. -/
theorem follows_take {count : Nat} (word : count < 2 ^ 64) :
    Follows (Machine.take (UInt64.ofNat count)) (Reader.take count) := by
  refine ⟨Reader.onward_take count, fun r fits => ?_⟩
  have inside := r.position_le
  have left := Machine.subtract_of_le fits inside
  have few : UInt64.ofNat (r.data.length - r.position) < UInt64.ofNat count ↔
      ¬r.position + count ≤ r.data.length := by
    rw [UInt64.lt_iff_toNat_lt, Machine.toNat_of_lt word, Machine.toNat_of_lt (by omega)]
    omega
  unfold Machine.take Reader.take
  simp only [Reader.cursor, left, Option.bind_eq_bind, Option.bind_some, few]
  by_cases enough : r.position + count ≤ r.data.length
  · have bound := Nat.lt_of_le_of_lt enough fits
    have slice := Machine.slice_of_le bound (Nat.le_add_right r.position count) enough
    rw [if_neg (not_not_intro enough), dif_pos enough, Machine.add_of_lt bound, Option.bind_some,
      slice, Nat.add_sub_cancel_left]
    rfl
  · rw [if_pos enough, dif_neg enough, Machine.toNat_of_lt word,
      Machine.toNat_of_lt (Nat.lt_of_le_of_lt inside fits), Machine.toNat_of_lt (by omega)]
    rfl

theorem length_of_take_eq_ok {count : Nat} {r s : Reader} {bytes : Bytes}
    (h : Reader.take count r = (.ok bytes, s)) : bytes.length = count := by
  unfold Reader.take at h
  split at h
  · rename_i enough
    cases h
    simp [Reader.rest]
    omega
  · cases h

theorem follows_step (v : α) : Follows (Machine.step (some v)) (pure v) := follows_pure v

theorem follows_word {width : Nat} (word : width < 2 ^ 64) :
    Follows (Machine.word width) (Reader.word width) := by
  refine (follows_take word).bind_of_ok fun r bytes s taken => ?_
  rw [Machine.copy, if_pos (length_of_take_eq_ok taken)]
  exact (follows_step bytes).map Bytes.toNat

theorem follows_byte : Follows Machine.byte Reader.byte := by
  have whole : Reader.byte = (do return UInt8.ofNat (Bytes.toNat (← Reader.take 1))) := by
    simp only [Reader.byte, Reader.word, bind_assoc, pure_bind]
  rw [whole]
  refine (follows_take (by decide)).bind_of_ok fun r bytes s taken => ?_
  obtain ⟨digit, rfl⟩ := List.length_eq_one_iff.mp (length_of_take_eq_ok taken)
  have value : UInt8.ofNat (Bytes.toNat [digit]) = digit := by simp [Bytes.toNat]
  rw [value]
  exact follows_step digit

theorem follows_int32 : Follows Machine.int32 Reader.int32 :=
  (follows_word (by decide)).map fun n => (UInt32.ofNat n).toInt32

theorem follows_length : Follows Machine.length Reader.length := by
  refine follows_offset.bind fun start => follows_int32.bind fun stored => ?_
  exact follows_ite (follows_throw _) (follows_pure _)

theorem follows_rounds (start : Nat) {shifts : List Nat} (small : ∀ shift ∈ shifts, shift < 32)
    (result : UInt32) : Follows (Machine.rounds start shifts result)
      (Reader.rounds start (fun result => throw (.invalidLength start result.toNat)) shifts result) := by
  induction shifts generalizing result with
  | nil => exact follows_throw _
  | cons shift shifts ih =>
    obtain ⟨inside, small⟩ := List.forall_mem_cons.mp small
    refine follows_byte.bind fun digit => follows_ite (follows_throw _) ?_
    rw [Machine.shiftLeft, if_pos inside]
    exact follows_ite (follows_pure _) (ih small _)

theorem follows_compact : Follows Machine.compact Reader.compact := by
  refine follows_offset.bind fun start => ?_
  have small : ∀ shift ∈ List.range' 0 5 7, shift < 32 := by decide
  have loop := follows_rounds start small 0
  rw [rounds_eq_compactFrom start _ 4 0 0 rfl Nat.one_pos] at loop
  exact loop

theorem follows_text : Follows Machine.text Reader.text := by
  refine follows_offset.bind fun start => follows_compact.bind fun size => ?_
  have word : size.toInt.toNat < 2 ^ 64 := by have := size.toInt_lt; omega
  refine follows_ite (follows_throw _) ((follows_take word).bind fun encoded => ?_)
  cases encoded.text? with
  | some s => exact follows_pure s
  | none => exact follows_throw _

/-- A field whose size, if it has one, is a word. -/
def Field.IsWord : Field → Prop
  | block size => size < 2 ^ 64
  | _ => True

instance : DecidablePred Field.IsWord
  | .block size => inferInstanceAs (Decidable (size < 2 ^ 64))
  | .byte | .boolean | .int16 | .int32 | .uint32 | .int64 | .single | .double | .length | .compact
  | .text => isTrue trivial

/-- No read of the machine stops the program. -/
theorem follows_read (f : Field) (word : f.IsWord) : Follows (Machine.read f) f.read := by
  cases f with
  | byte => exact follows_byte
  | boolean => exact follows_byte.map (· != 0)
  | int16 => exact (follows_word (by decide)).map fun n => (UInt16.ofNat n).toInt16
  | int32 => exact follows_int32
  | uint32 | single => exact (follows_word (by decide)).map UInt32.ofNat
  | int64 => exact (follows_word (by decide)).map fun n => (UInt64.ofNat n).toInt64
  | double => exact (follows_word (by decide)).map UInt64.ofNat
  | length => exact follows_length
  | compact => exact follows_compact
  | text => exact follows_text
  | block size => exact follows_take word

theorem Field.onward (f : Field) (r : Reader) : r.Onward (f.read r).2 := by
  by_cases word : f.IsWord
  · exact (follows_read f word).onward r
  · cases f with
    | block size => exact Reader.onward_take size r
    | _ => exact absurd trivial word

end Follows

end ModelLoading.Decode
