import Mathlib.Data.List.Chain
import ModelLoading.Proofs.Decode.Machine

/-!
# Reading on after failures

A failed read leaves the reader where it got to, and the next one goes on from there. This module follows a
sequence of reads of any kinds through all their failures (`attempts`). What is true of each of them is
`Attempt.Safe`: the position stays in the buffer and does not go back; a value of a fixed width is made from
the bytes at the old position, all of which are consumed, or none are and the error counts those that are
left; a count and a number in groups of seven bits may fail behind bytes that they consumed. The lemmas are
about one read each, and the run of the sequence adds their positions up.
-/

namespace ModelLoading

theorem Bytes.toNat_lt {b : Bytes} {width : Nat} (h : b.length = width) : b.toNat < 256 ^ width := by
  subst h
  induction b with
  | nil => exact Nat.one_pos
  | cons digit rest ih =>
    have low := digit.toNat_lt
    rw [toNat, List.length_cons, Nat.pow_succ]
    omega

namespace Decode

/-! ## 1. Fixed widths -/

/-- How many bytes a value takes, if its field says so. -/
def Field.width? : Field → Option Nat
  | byte | boolean => some 1
  | int16 => some 2
  | int32 | uint32 | single => some 4
  | int64 | double => some 8
  | block size => some size
  | length | compact | text => none

/-- Which value bytes stand for, low byte first. -/
def Field.StandsFor : (f : Field) → Bytes → f.Value → Prop
  | byte, b, v => v.toNat = b.toNat
  | boolean, b, v => v = true ↔ b.toNat ≠ 0
  | int16, b, v => v.toUInt16.toNat = b.toNat
  | int32, b, v => v.toUInt32.toNat = b.toNat
  | uint32, b, v | single, b, v => v.toNat = b.toNat
  | int64, b, v => v.toUInt64.toNat = b.toNat
  | double, b, v => v.toNat = b.toNat
  | length, b, v => v = b.toNat
  | block _, b, v => v = b
  | compact, _, _ | text, _, _ => False

theorem word_eq_take {α : Type} (width : Nat) (make : Nat → α) :
    (do return make (← Reader.word width)) =
      (do return make (Bytes.toNat (← Reader.take width)) : Read α) := by
  simp only [Reader.word, bind_assoc, pure_bind]

/-- A value of a fixed width is made from the bytes that are taken. -/
theorem Field.read_eq_take {f : Field} {width : Nat} (h : f.width? = some width) :
    ∃ make : Bytes → f.Value, f.read = (do return make (← Reader.take width)) ∧
      ∀ b : Bytes, b.length = width → f.StandsFor b (make b) := by
  have digit : ∀ {b : Bytes}, b.length = 1 → (UInt8.ofNat b.toNat).toNat = b.toNat :=
    fun single => UInt8.toNat_ofNat_of_lt' (Bytes.toNat_lt single)
  have quad : ∀ {b : Bytes}, b.length = 4 → (UInt32.ofNat b.toNat).toNat = b.toNat :=
    fun four => UInt32.toNat_ofNat_of_lt' (Bytes.toNat_lt four)
  have octet : ∀ {b : Bytes}, b.length = 8 → (UInt64.ofNat b.toNat).toNat = b.toNat :=
    fun eight => UInt64.toNat_ofNat_of_lt' (Bytes.toNat_lt eight)
  cases f with
  | byte =>
    cases h
    exact ⟨_, word_eq_take 1 UInt8.ofNat, fun b single => digit single⟩
  | boolean =>
    cases h
    refine ⟨fun b => UInt8.ofNat b.toNat != 0, ?_, fun b single => ?_⟩
    · show (do return (← Reader.byte) != 0) = _
      simp only [Reader.byte, Reader.word, bind_assoc, pure_bind]
    · show (UInt8.ofNat b.toNat != 0) = true ↔ b.toNat ≠ 0
      rw [bne_iff_ne, ne_eq, ← UInt8.toNat_inj, digit single]
      rfl
  | int16 =>
    cases h
    refine ⟨_, word_eq_take 2 fun n => (UInt16.ofNat n).toInt16, fun b pair => ?_⟩
    exact UInt16.toNat_ofNat_of_lt' (Bytes.toNat_lt pair)
  | int32 =>
    cases h
    exact ⟨_, word_eq_take 4 fun n => (UInt32.ofNat n).toInt32, fun b four => quad four⟩
  | uint32 | single =>
    cases h
    exact ⟨_, word_eq_take 4 UInt32.ofNat, fun b four => quad four⟩
  | int64 =>
    cases h
    exact ⟨_, word_eq_take 8 fun n => (UInt64.ofNat n).toInt64, fun b eight => octet eight⟩
  | double =>
    cases h
    exact ⟨_, word_eq_take 8 UInt64.ofNat, fun b eight => octet eight⟩
  | block size =>
    cases h
    exact ⟨id, (bind_pure _).symm, fun b _ => rfl⟩
  | length | compact | text => cases h

section Reads

variable {f : Field} {r s : Reader} {e : Error}

/-- Either a value is made from all the bytes at the position, or the buffer has too few and none is
consumed. -/
theorem Field.fixed_cases {width : Nat} (h : f.width? = some width) (r : Reader) :
    (∃ v s, f.read r = (.ok v, s) ∧ width ≤ r.remaining ∧ f.StandsFor (r.rest.take width) v ∧
      r.Past width s) ∨
    r.remaining < width ∧ f.read r = (.error (.unexpectedEnd r.position width r.remaining), r) := by
  obtain ⟨make, read, stands⟩ := Field.read_eq_take h
  rw [read]
  rcases Nat.lt_or_ge r.remaining width with few | enough
  · exact .inr ⟨few, Read.bind_of_error (Reader.take_of_few few)⟩
  · obtain ⟨s, past, taken⟩ := Reader.take_of_enough enough
    exact .inl ⟨_, s, Read.bind_of_ok taken, enough, stands _ (length_of_take_eq_ok taken), past⟩

/-! ## 2. Counts and numbers in groups of seven bits -/

/-- A number that is not negative is that of its bits. -/
theorem toNat_toInt {v : Int32} (h : 0 ≤ v.toInt) : v.toInt.toNat = v.toUInt32.toNat :=
  (Int32.toNat_toUInt32_of_le (Int32.le_iff_toInt_le.mpr h)).symm

/-- A count is the number in four bytes. It is refused where fewer are left, of which none is consumed,
or where the number is negative, which is consumed. -/
theorem Reader.length_cases (r : Reader) :
    (∃ n s, length r = (.ok n, s) ∧ n = Bytes.toNat (r.rest.take 4) ∧ r.Past 4 s) ∨
    (r.remaining < 4 ∧ length r = (.error (.unexpectedEnd r.position 4 r.remaining), r)) ∨
    ∃ (stored : Int32) (s : Reader), stored.toUInt32.toNat = Bytes.toNat (r.rest.take 4) ∧
      stored.toInt < 0 ∧ length r = (.error (.invalidLength r.position stored.toInt), s) ∧
      r.Past 4 s := by
  have whole : length r = (Field.int32.read >>= fun stored : Int32 =>
      if stored.toInt < 0 then throw (.invalidLength r.position stored.toInt)
      else return stored.toInt.toNat) r := rfl
  have fixed : Field.int32.width? = some 4 := rfl
  rw [whole]
  rcases Field.fixed_cases fixed r with ⟨stored, s, read, enough, bits, past⟩ | ⟨few, read⟩
  · rw [Read.bind_of_ok read]
    rcases Int.lt_or_le stored.toInt 0 with negative | natural
    · rw [if_pos negative]
      exact .inr (.inr ⟨stored, s, bits, negative, rfl, past⟩)
    · rw [if_neg (Int.not_lt.mpr natural)]
      exact .inl ⟨_, s, rfl, (toNat_toInt natural).trans bits, past⟩
  · exact .inr (.inl ⟨few, Read.bind_of_error read⟩)

/-- Where a number in groups of seven bits is refused, at most five bytes were consumed. -/
theorem Reader.position_of_compact_error (h : compact r = (.error e, s)) :
    s.position ≤ r.position + 5 := by
  rcases (compact_eq_error_iff r s e).mp h with ⟨few, -, -, past⟩ | ⟨_, _, _, -, -, -, -, -, past⟩
  · rw [past.position]
    omega
  · exact Nat.le_of_eq past.position

end Reads

/-! ## 3. Sequences of reads -/

/-- One read of a sequence: where it began, what came of it, and where the reader stood then. -/
structure Attempt where
  field : Field
  start : Reader
  outcome : Except Error field.Value
  stop : Reader

/-- Reads under one field after another, behind failed reads too. -/
def attempts : List Field → Reader → List Attempt
  | [], _ => []
  | f :: fields, r => ⟨f, r, (f.read r).1, (f.read r).2⟩ :: attempts fields (f.read r).2

/-- What is true of one read, whatever came of it. -/
structure Attempt.Safe (a : Attempt) : Prop where
  /-- The reader is in the same buffer and does not go back. -/
  onward : a.start.Onward a.stop
  /-- The position does not leave the buffer. -/
  inside : a.stop.position ≤ a.stop.data.length
  /-- What is consumed and what is left make the buffer. -/
  adds : a.stop.position + a.stop.remaining = a.stop.data.length
  /-- A value of a fixed width is that of the bytes at the old position, which are consumed. -/
  fixed_ok : ∀ width v, a.field.width? = some width → a.outcome = .ok v →
    width ≤ a.start.remaining ∧ a.field.StandsFor (a.start.rest.take width) v ∧
      a.start.Past width a.stop
  /-- Where there are too few bytes for it, the reader stays and the error counts them. -/
  fixed_error : ∀ width e, a.field.width? = some width → a.outcome = .error e →
    a.start.remaining < width ∧ e = .unexpectedEnd a.start.position width a.start.remaining ∧
      a.stop = a.start
  /-- A count is refused behind its four bytes if it is negative, and otherwise before them. -/
  length_error : ∀ e, a.field = .length → a.outcome = .error e →
    (a.start.remaining < 4 ∧ e = .unexpectedEnd a.start.position 4 a.start.remaining ∧
      a.stop = a.start) ∨
    ∃ stored : Int32, stored.toUInt32.toNat = Bytes.toNat (a.start.rest.take 4) ∧
      stored.toInt < 0 ∧ e = .invalidLength a.start.position stored.toInt ∧ a.start.Past 4 a.stop
  /-- A number in groups of seven bits is refused behind at most five bytes. -/
  compact_error : ∀ e, a.field = .compact → a.outcome = .error e →
    a.stop.position ≤ a.start.position + 5

theorem Reader.position_add_remaining (r : Reader) : r.position + r.remaining = r.data.length :=
  Nat.add_sub_cancel' r.position_le

/-- Every read is safe. -/
theorem safe_read (f : Field) (r : Reader) :
    Attempt.Safe ⟨f, r, (f.read r).1, (f.read r).2⟩ where
  onward := f.onward r
  inside := (f.read r).2.position_le
  adds := Reader.position_add_remaining _
  fixed_ok := by
    intro width v fixed ok
    rcases Field.fixed_cases fixed r with ⟨w, s, read, enough, stands, past⟩ | ⟨few, read⟩
    · obtain rfl : (f.read r).2 = s := congrArg Prod.snd read
      cases ok.symm.trans (congrArg Prod.fst read)
      exact ⟨enough, stands, past⟩
    · cases ok.symm.trans (congrArg Prod.fst read)
  fixed_error := by
    intro width e fixed fails
    rcases Field.fixed_cases fixed r with ⟨w, s, read, enough, stands, past⟩ | ⟨few, read⟩
    · cases fails.symm.trans (congrArg Prod.fst read)
    · cases fails.symm.trans (congrArg Prod.fst read)
      exact ⟨few, rfl, congrArg Prod.snd read⟩
  length_error := by
    rintro e ⟨⟩ fails
    rcases r.length_cases with ⟨n, s, read, -⟩ | ⟨few, read⟩ | ⟨stored, s, bits, negative, read, past⟩
    · cases fails.symm.trans (congrArg Prod.fst read)
    · cases fails.symm.trans (congrArg Prod.fst read)
      exact .inl ⟨few, rfl, congrArg Prod.snd read⟩
    · obtain rfl : (Reader.length r).2 = s := congrArg Prod.snd read
      cases fails.symm.trans (congrArg Prod.fst read)
      exact .inr ⟨stored, bits, negative, rfl, past⟩
  compact_error := by
    rintro e ⟨⟩ fails
    exact Reader.position_of_compact_error (Prod.ext fails rfl)

/-! ### A whole sequence -/

section Sequences

variable (fields : List Field) (r : Reader)

theorem fields_attempts : (attempts fields r).map (·.field) = fields := by
  induction fields generalizing r with
  | nil => rfl
  | cons f fields ih => rw [attempts, List.map_cons, ih]

theorem start_of_mem_head? : ∀ a ∈ (attempts fields r).head?, a.start = r := by
  intro a first
  cases fields with
  | nil => cases first
  | cons f fields =>
    cases first
    rfl

theorem isChain_attempts : (attempts fields r).IsChain fun a b => b.start = a.stop := by
  induction fields generalizing r with
  | nil => exact List.IsChain.nil
  | cons f fields ih =>
    rw [attempts, List.isChain_cons]
    exact ⟨start_of_mem_head? fields _, ih _⟩

theorem safe_of_mem_attempts {a : Attempt} (h : a ∈ attempts fields r) : a.Safe := by
  induction fields generalizing r with
  | nil => cases h
  | cons f fields ih =>
    rcases List.mem_cons.mp h with rfl | later
    · exact safe_read f r
    · exact ih _ later

/-- No read begins before the sequence does. -/
theorem onward_of_mem_attempts {a : Attempt} (h : a ∈ attempts fields r) : r.Onward a.start := by
  induction fields generalizing r with
  | nil => cases h
  | cons f fields ih =>
    rcases List.mem_cons.mp h with rfl | later
    · exact r.onward_refl
    · exact (f.onward r).trans (ih _ later)

theorem pairwise_attempts : (attempts fields r).Pairwise fun a b => a.stop.Onward b.start := by
  induction fields generalizing r with
  | nil => exact List.Pairwise.nil
  | cons f fields ih =>
    rw [attempts, List.pairwise_cons]
    exact ⟨fun b later => onward_of_mem_attempts fields _ later, ih _⟩

/-- What a machine is left with after one read: the answer and the cursor. -/
def Attempt.answer (a : Attempt) : (f : Field) × Except Error f.Value × Machine.Cursor :=
  ⟨a.field, a.outcome, a.stop.cursor⟩

/-- The reads on machine words, behind failed reads too. -/
def Machine.answers : List Field → Cursor →
    Option (List ((f : Field) × Except Error f.Value × Cursor))
  | [], _ => some []
  | f :: fields, c => do
    let answer ← (Machine.read f c : Option (Except Error f.Value × Cursor))
    let later ← answers fields answer.2
    return ⟨f, answer⟩ :: later

theorem answers_eq (fits : r.data.length < 2 ^ 64) (words : ∀ f ∈ fields, f.IsWord) :
    Machine.answers fields r.cursor = some ((attempts fields r).map Attempt.answer) := by
  induction fields generalizing r with
  | nil => rfl
  | cons f fields ih =>
    obtain ⟨word, words⟩ := List.forall_mem_cons.mp words
    have onward := f.onward r
    rw [Machine.answers, (follows_read f word).agrees r fits]
    simp only [Option.bind_eq_bind, Option.bind_some]
    rw [ih _ (by rw [onward.data]; exact fits) words]
    rfl

end Sequences

/-- **Reading goes on safely behind failures.** In every sequence of reads each one is made, begins where
the one before it stopped and is safe, whatever came of those before; the positions do not go back from one
to any later one. With sizes that are words, on a buffer whose length is one, no step on machine words
overflows or leaves the buffer, and the answers are the same. -/
theorem reading_goes_on_safely (fields : List Field) (r : Reader) :
    let reads := attempts fields r
    (reads.map (·.field) = fields ∧ (∀ a ∈ reads.head?, a.start = r) ∧
      reads.IsChain fun a b => b.start = a.stop) ∧
    (∀ a ∈ reads, r.Onward a.start ∧ a.Safe) ∧
    (reads.Pairwise fun a b => a.stop.Onward b.start) ∧
    (r.data.length < 2 ^ 64 → (∀ f ∈ fields, f.IsWord) →
      Machine.answers fields r.cursor = some (reads.map Attempt.answer)) := by
  intro reads
  refine ⟨⟨fields_attempts fields r, start_of_mem_head? fields r, isChain_attempts fields r⟩, ?_,
    pairwise_attempts fields r, answers_eq fields r⟩
  intro a mem
  exact ⟨onward_of_mem_attempts fields r mem, safe_of_mem_attempts fields r mem⟩

/-- A negative count is consumed, a block that is as large as a word can say is not, and the byte behind
them is read. -/
theorem reading_goes_on_safely_of_huge_block :
    let r := Reader.ofBytes [0xFF, 0xFF, 0xFF, 0xFF, 7]
    let fields := [.length, .block (2 ^ 64 - 1), .byte]
    r.data.length < 2 ^ 64 ∧ (∀ f ∈ fields, Field.IsWord f) ∧
      (Machine.answers fields r.cursor).map (·.map fun answer => answer.2.2.position) =
        some [4, 4, 5] := by
  intro r fields
  obtain ⟨-, -, -, machine⟩ := reading_goes_on_safely fields r
  have fits : r.data.length < 2 ^ 64 := by decide
  have words : ∀ f ∈ fields, f.IsWord := by decide
  refine ⟨fits, words, ?_⟩
  rw [machine fits words]
  decide +kernel

end Decode

end ModelLoading
