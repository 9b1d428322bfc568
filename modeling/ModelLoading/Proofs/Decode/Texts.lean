import ModelLoading.Proofs.Decode.Machine
import ModelLoading.Proofs.Decode.RoundTrip

/-!
# Texts behind their length

A text is stored as a signed number in groups of seven bits, which is its length in bytes, and its
encoding. `Reader.text` reads three things one inside the other, and each fails in its own way: the length
may be malformed or cut off, it may be negative, there may be fewer bytes than it says, and these may
encode no text. There is one lemma for each way the read can go on behind the length; the theorem is their
sum, over all readers.
-/

namespace ModelLoading

/-! ## 1. Encodings -/

namespace Bytes

/-- A text is encoded character by character. -/
theorem ofText_eq_flatMap (s : String) : ofText s = s.toList.flatMap String.utf8EncodeChar := by
  rw [ofText, ← String.utf8Encode_toList, List.utf8Encode, List.data_toByteArray, List.toList_toArray]

/-- Bytes are read as a text exactly if they encode its characters. -/
theorem text?_eq_some_iff {b : Bytes} {s : String} :
    b.text? = some s ↔ b = s.toList.flatMap String.utf8EncodeChar := by
  rw [← ofText_eq_flatMap]
  constructor
  · intro h
    unfold text? String.fromUTF8? at h
    split at h
    · cases h
      show b = b.toByteArray.data.toList
      rw [List.data_toByteArray, List.toList_toArray]
    · cases h
  · rintro rfl
    exact text?_ofText s

theorem text?_eq_none_iff {b : Bytes} :
    b.text? = none ↔ ∀ s : String, b ≠ s.toList.flatMap String.utf8EncodeChar := by
  simp only [Option.eq_none_iff_forall_ne_some, ne_eq, text?_eq_some_iff]

end Bytes

namespace Decode

/-! ## 2. Lengths -/

/-- The bytes ahead begin with a number in groups of seven bits, and another reader stands behind it. -/
def Reader.Prefixed (r : Reader) (v : Int32) (s : Reader) : Prop :=
  ∃ more last rest, r.rest = more ++ last :: rest ∧ Grouped 4 more last ∧
    v.toUInt32.toNat = Bytes.groups (more ++ [last]) ∧ r.Past (more.length + 1) s

namespace Reader

variable {r s t : Reader} {v : Int32} {e : Error}

theorem prefixed_iff : r.Prefixed v s ↔ compact r = (.ok v, s) := (compact_eq_ok_iff r s v).symm

/-! ## 3. The ways a text is read -/

/-- The text behind a length that was read. -/
def textOf (start : Nat) (size : Int32) : Read String := do
  if size.toInt < 0 then
    throw (.invalidLength start size.toInt)
  else
    let encoded ← take size.toInt.toNat
    match encoded.text? with
    | some s => return s
    | none => throw (.invalidUtf8 start)

theorem text_eq (r : Reader) : text r = (compact >>= textOf r.position) r := rfl

theorem text_of_error (h : compact r = (.error e, s)) : text r = (.error e, s) :=
  (text_eq r).trans (Read.bind_of_error h)

theorem text_of_prefixed (h : r.Prefixed v s) : text r = textOf r.position v s :=
  (text_eq r).trans (Read.bind_of_ok (prefixed_iff.mp h))

theorem text_of_negative (h : r.Prefixed v s) (negative : v.toInt < 0) :
    text r = (.error (.invalidLength r.position v.toInt), s) := by
  rw [text_of_prefixed h, textOf, if_pos negative]
  rfl

theorem text_of_few (h : r.Prefixed v s) (natural : 0 ≤ v.toInt) (few : s.remaining < v.toInt.toNat) :
    text r = (.error (.unexpectedEnd s.position v.toInt.toNat s.remaining), s) := by
  rw [text_of_prefixed h, textOf, if_neg (Int.not_lt.mpr natural), Read.bind_of_error (take_of_few few)]

theorem text_of_encoding {string : String} (h : r.Prefixed v s) (natural : 0 ≤ v.toInt)
    (enough : v.toInt.toNat ≤ s.remaining)
    (bytes : s.rest.take v.toInt.toNat = string.toList.flatMap String.utf8EncodeChar) :
    ∃ t, s.Past v.toInt.toNat t ∧ text r = (.ok string, t) := by
  obtain ⟨t, past, taken⟩ := take_of_enough enough
  refine ⟨t, past, ?_⟩
  rw [text_of_prefixed h, textOf, if_neg (Int.not_lt.mpr natural), Read.bind_of_ok taken,
    Bytes.text?_eq_some_iff.mpr bytes]
  rfl

theorem text_of_no_encoding (h : r.Prefixed v s) (natural : 0 ≤ v.toInt)
    (enough : v.toInt.toNat ≤ s.remaining) (bytes : ∀ string : String,
      s.rest.take v.toInt.toNat ≠ string.toList.flatMap String.utf8EncodeChar) :
    ∃ t, s.Past v.toInt.toNat t ∧ text r = (.error (.invalidUtf8 r.position), t) := by
  obtain ⟨t, past, taken⟩ := take_of_enough enough
  refine ⟨t, past, ?_⟩
  rw [text_of_prefixed h, textOf, if_neg (Int.not_lt.mpr natural), Read.bind_of_ok taken,
    Bytes.text?_eq_none_iff.mpr bytes]
  rfl

/-- There is no other way. -/
theorem text_cases (r : Reader) :
    (∃ e s, compact r = (.error e, s)) ∨
    ∃ v s, r.Prefixed v s ∧ (v.toInt < 0 ∨ 0 ≤ v.toInt ∧ (s.remaining < v.toInt.toNat ∨
      v.toInt.toNat ≤ s.remaining ∧
        ((∃ string : String,
          s.rest.take v.toInt.toNat = string.toList.flatMap String.utf8EncodeChar) ∨
        ∀ string : String,
          s.rest.take v.toInt.toNat ≠ string.toList.flatMap String.utf8EncodeChar))) := by
  cases outcome : compact r with
  | mk answer s =>
    cases answer with
    | ok v =>
      refine .inr ⟨v, s, prefixed_iff.mpr outcome, ?_⟩
      have sign := Int.lt_or_le v.toInt 0
      have room := Nat.lt_or_ge s.remaining v.toInt.toNat
      refine sign.imp_right fun natural => ⟨natural, room.imp_right fun enough => ⟨enough, ?_⟩⟩
      rw [← not_exists]
      exact em _
    | error e => exact .inl ⟨e, s, rfl⟩

/-! ## 4. What is read and what is refused -/

theorem text_eq_ok_iff (r t : Reader) (string : String) : text r = (.ok string, t) ↔
    ∃ v s, r.Prefixed v s ∧ 0 ≤ v.toInt ∧ v.toInt.toNat ≤ s.remaining ∧
      s.rest.take v.toInt.toNat = string.toList.flatMap String.utf8EncodeChar ∧
      s.Past v.toInt.toNat t := by
  constructor
  · intro h
    rcases text_cases r with ⟨e, s, fails⟩ | ⟨v, s, begins, negative |
      ⟨natural, few | ⟨enough, ⟨other, bytes⟩ | bytes⟩⟩⟩
    · cases (text_of_error fails).symm.trans h
    · cases (text_of_negative begins negative).symm.trans h
    · cases (text_of_few begins natural few).symm.trans h
    · obtain ⟨t', past, read⟩ := text_of_encoding begins natural enough bytes
      cases read.symm.trans h
      exact ⟨v, s, begins, natural, enough, bytes, past⟩
    · obtain ⟨t', past, read⟩ := text_of_no_encoding begins natural enough bytes
      cases read.symm.trans h
  · rintro ⟨v, s, begins, natural, enough, bytes, past⟩
    obtain ⟨t', past', read⟩ := text_of_encoding begins natural enough bytes
    rw [read, past'.unique past]

theorem text_eq_error_iff (r t : Reader) (e : Error) : text r = (.error e, t) ↔
    compact r = (.error e, t) ∨
    ∃ v s, r.Prefixed v s ∧
      (v.toInt < 0 ∧ e = .invalidLength r.position v.toInt ∧ t = s ∨
       0 ≤ v.toInt ∧ s.remaining < v.toInt.toNat ∧
         e = .unexpectedEnd s.position v.toInt.toNat s.remaining ∧ t = s ∨
       0 ≤ v.toInt ∧ v.toInt.toNat ≤ s.remaining ∧
         (∀ string : String,
           s.rest.take v.toInt.toNat ≠ string.toList.flatMap String.utf8EncodeChar) ∧
         e = .invalidUtf8 r.position ∧ s.Past v.toInt.toNat t) := by
  constructor
  · intro h
    rcases text_cases r with ⟨e', s, fails⟩ | ⟨v, s, begins, negative |
      ⟨natural, few | ⟨enough, ⟨string, bytes⟩ | bytes⟩⟩⟩
    · cases (text_of_error fails).symm.trans h
      exact .inl fails
    · cases (text_of_negative begins negative).symm.trans h
      exact .inr ⟨v, t, begins, .inl ⟨negative, rfl, rfl⟩⟩
    · cases (text_of_few begins natural few).symm.trans h
      exact .inr ⟨v, t, begins, .inr (.inl ⟨natural, few, rfl, rfl⟩)⟩
    · obtain ⟨t', past, read⟩ := text_of_encoding begins natural enough bytes
      cases read.symm.trans h
    · obtain ⟨t', past, read⟩ := text_of_no_encoding begins natural enough bytes
      cases read.symm.trans h
      exact .inr ⟨v, s, begins, .inr (.inr ⟨natural, enough, bytes, rfl, past⟩)⟩
  · rintro (fails | ⟨v, s, begins, ⟨negative, rfl, rfl⟩ | ⟨natural, few, rfl, rfl⟩ |
      ⟨natural, enough, bytes, rfl, past⟩⟩)
    · exact text_of_error fails
    · exact text_of_negative begins negative
    · exact text_of_few begins natural few
    · obtain ⟨t', past', read⟩ := text_of_no_encoding begins natural enough bytes
      rw [read, past'.unique past]

end Reader

/-- **A text is read from its length and its encoding, and each other input is refused for its reason.**
It is returned exactly if the bytes ahead begin with a length that is not negative, that many bytes follow
and they encode the text; then just these are consumed. Otherwise the reasons are, in this order: what is
wrong with the length as a number; that it is negative, with the place where the text begins; that fewer
bytes are left behind it, with the place behind it; that they encode no text, with the place where the text
begins. The reader stays in its buffer and does not go back, and on machine words no step stops the program. -/
theorem text_reads_its_encoding (r : Reader) :
    (∀ string t, Reader.text r = (.ok string, t) ↔
      ∃ v s, r.Prefixed v s ∧ 0 ≤ v.toInt ∧ v.toInt.toNat ≤ s.remaining ∧
        s.rest.take v.toInt.toNat = string.toList.flatMap String.utf8EncodeChar ∧
        s.Past v.toInt.toNat t) ∧
    (∀ e t, Reader.text r = (.error e, t) ↔
      Reader.compact r = (.error e, t) ∨
      ∃ v s, r.Prefixed v s ∧
        (v.toInt < 0 ∧ e = .invalidLength r.position v.toInt ∧ t = s ∨
         0 ≤ v.toInt ∧ s.remaining < v.toInt.toNat ∧
           e = .unexpectedEnd s.position v.toInt.toNat s.remaining ∧ t = s ∨
         0 ≤ v.toInt ∧ v.toInt.toNat ≤ s.remaining ∧
           (∀ string : String,
             s.rest.take v.toInt.toNat ≠ string.toList.flatMap String.utf8EncodeChar) ∧
           e = .invalidUtf8 r.position ∧ s.Past v.toInt.toNat t)) ∧
    r.Onward (Reader.text r).2 ∧ (Reader.text r).2.position ≤ r.data.length ∧
    (r.data.length < 2 ^ 64 →
      Machine.text r.cursor = some ((Reader.text r).1, (Reader.text r).2.cursor)) := by
  have onward := follows_text.onward r
  refine ⟨fun string t => Reader.text_eq_ok_iff r t string, fun e t => Reader.text_eq_error_iff r t e,
    onward, ?_, follows_text.agrees r⟩
  rw [← onward.data]
  exact (Reader.text r).2.position_le

/-- Two bytes are announced, and they encode no text. -/
theorem text_reads_its_encoding_of_two_bytes :
    let r := Reader.ofBytes [2, 0xC3, 0x28, 7]
    r.data.length < 2 ^ 64 ∧ ∃ t, Reader.text r = (.error (.invalidUtf8 0), t) ∧ t.position = 3 ∧
      Machine.text r.cursor = some (.error (.invalidUtf8 0), t.cursor) := by
  intro r
  obtain ⟨-, -, -, -, agrees⟩ := text_reads_its_encoding r
  have answer : (Reader.text r).1 = .error (.invalidUtf8 0) := by decide +kernel
  have place : (Reader.text r).2.position = 3 := by decide +kernel
  refine ⟨by decide, (Reader.text r).2, Prod.ext answer rfl, place, ?_⟩
  rw [agrees (by decide), answer]

end Decode

end ModelLoading
