import ModelLoading.Proofs.Decode.Reads

/-!
# Truncated buffers

A `Plan` is a sequence of reads each of which may depend on the values read before. A read is local if
what it does to a buffer is decided by the bytes that it takes: with these bytes ahead it returns the
same value whatever follows, and when the buffer ends among them it reports that end (`Local`). Every
read is local because `Reader.take` is and because locality survives composition. So a plan is, too: the
bytes behind its last read play no part, and no cut in the bytes before goes unnoticed.
-/

namespace ModelLoading.Decode

variable {α β : Type}

/-! ## 1. Local reads -/

/-- In a buffer that ends too early a read reports that end. -/
def Starves (before : Bytes) (read : Read α) (ahead : Bytes) : Prop :=
  ∃ offset needed remaining s,
    read (.between before ahead) = (.error (.unexpectedEnd offset needed remaining), s) ∧
      offset + remaining = before.length + ahead.length ∧ remaining < needed

/-- Whenever a read returns a value, it takes the bytes up to where it ends, and a buffer that ends
among these starves it. -/
def Local (read : Read α) : Prop :=
  ∀ before ahead v s, read (.between before ahead) = (.ok v, s) →
    ∃ bytes rest, ahead = bytes ++ rest ∧ s = .between (before ++ bytes) rest ∧
      Takes before read bytes v ∧
      ∀ short, short <+: bytes → short ≠ bytes → Starves before read short

theorem local_pure (v : α) : Local (pure v) := by
  intro before ahead w s h
  cases h
  refine ⟨[], ahead, rfl, by rw [List.append_nil], takes_pure, ?_⟩
  intro short isPrefix ne
  exact absurd (List.prefix_nil.mp isPrefix) ne

theorem local_throw (e : Error) : Local (throw e : Read α) := by
  intro before ahead v s h
  cases h

theorem length_lt_of_short {short bytes : Bytes} (h : short <+: bytes) (ne : short ≠ bytes) :
    short.length < bytes.length :=
  Nat.lt_of_le_of_ne h.length_le fun same => ne (h.eq_of_length same)

theorem local_take (count : Nat) : Local (Reader.take count) := by
  intro before ahead v s h
  rcases Nat.lt_or_ge ahead.length count with few | enough
  · rw [Reader.take_between_of_lt few] at h
    cases h
  · -- the bytes that are there, cut at the count
    obtain ⟨bytes, rest, rfl, rfl⟩ : ∃ bytes rest, ahead = bytes ++ rest ∧ count = bytes.length :=
      ⟨ahead.take count, ahead.drop count, (List.take_append_drop ..).symm, by simp [enough]⟩
    rw [Reader.take_between] at h
    cases h
    refine ⟨_, rest, rfl, rfl, takes_take _ _, ?_⟩
    intro short isPrefix ne
    have few := length_lt_of_short isPrefix ne
    exact ⟨_, _, _, _, Reader.take_between_of_lt few, rfl, few⟩

/-- A proper beginning of two lists of bytes either ends in the second one or in the first. -/
theorem short_cases {short bytes bytes' : Bytes} (h : short <+: bytes ++ bytes')
    (ne : short ≠ bytes ++ bytes') :
    (∃ short', short = bytes ++ short' ∧ short' <+: bytes' ∧ short' ≠ bytes') ∨
      short <+: bytes ∧ short ≠ bytes := by
  by_cases covers : bytes <+: short
  · obtain ⟨short', rfl⟩ := covers
    exact .inl ⟨short', rfl, (List.prefix_append_right_inj bytes).mp h, fun same => ne (by rw [same])⟩
  · have inside : short <+: bytes :=
      (List.prefix_or_prefix_of_prefix h (List.prefix_append ..)).resolve_right covers
    refine .inr ⟨inside, ?_⟩
    rintro rfl
    exact covers List.prefix_rfl

theorem Local.bind {read : Read α} {next : α → Read β} (first : Local read)
    (then_ : ∀ v, Local (next v)) : Local (read >>= next) := by
  intro before ahead w t h
  obtain ⟨v, s, read_ok, next_ok⟩ := Read.of_bind_eq_ok h
  obtain ⟨bytes, rest, rfl, rfl, taken, starved⟩ := first _ _ _ _ read_ok
  obtain ⟨bytes', rest', rfl, rfl, taken', starved'⟩ := then_ v _ _ _ _ next_ok
  refine ⟨bytes ++ bytes', rest', by rw [List.append_assoc], by rw [List.append_assoc],
    taken.bind taken', ?_⟩
  intro short isPrefix ne
  rcases short_cases isPrefix ne with ⟨short', rfl, inside, other⟩ | ⟨inside, other⟩
  · -- the first read finds its bytes, and the second one lacks some
    obtain ⟨offset, needed, remaining, s, fails, place, lacks⟩ := starved' short' inside other
    refine ⟨offset, needed, remaining, s, ?_, ?_, lacks⟩
    · rw [Read.bind_of_ok (taken short'), fails]
    · rw [place, List.length_append, List.length_append, Nat.add_assoc]
  · obtain ⟨offset, needed, remaining, s, fails, place, lacks⟩ := starved short inside other
    exact ⟨offset, needed, remaining, s, Read.bind_of_error fails, place, lacks⟩

theorem Local.map {read : Read α} (h : Local read) (f : α → β) : Local (do return f (← read)) :=
  h.bind fun v => local_pure (f v)

theorem local_ite {c : Prop} [Decidable c] {read other : Read α} (h : Local read)
    (k : Local other) : Local (if c then read else other) := by
  split
  · exact h
  · exact k

theorem local_offset : Local Reader.offset := by
  intro before ahead v s h
  cases h
  refine ⟨[], ahead, rfl, by rw [List.append_nil], fun more => ?_, ?_⟩
  · rw [List.append_nil]
    rfl
  · intro short isPrefix ne
    exact absurd (List.prefix_nil.mp isPrefix) ne

/-! ## 2. Every read is local -/

theorem local_word (width : Nat) : Local (Reader.word width) :=
  (local_take width).map Bytes.toNat

theorem local_byte : Local Reader.byte := (local_word 1).map UInt8.ofNat

theorem local_int32 : Local Reader.int32 := (local_word 4).map fun n => (UInt32.ofNat n).toInt32

theorem local_length : Local Reader.length := by
  refine local_offset.bind fun start => local_int32.bind fun stored => ?_
  exact local_ite (local_throw _) (local_pure _)

theorem local_compactFrom (start more shift low : Nat) :
    Local (Reader.compactFrom start more shift low) := by
  induction more generalizing shift low with
  | zero =>
    refine local_byte.bind fun last => ?_
    exact local_ite (local_throw _) (local_pure _)
  | succ more ih =>
    refine local_byte.bind fun digit => ?_
    exact local_ite (local_pure _) (ih _ _)

theorem local_compact : Local Reader.compact :=
  local_offset.bind fun start => local_compactFrom start 4 0 0

theorem local_text : Local Reader.text := by
  refine local_offset.bind fun start => local_compact.bind fun size => ?_
  refine local_ite (local_throw _) ((local_take _).bind fun encoded => ?_)
  -- whether the bytes are a text is decided when all of them are there
  cases encoded.text? with
  | some s => exact local_pure s
  | none => exact local_throw _

theorem local_read (f : Field) : Local f.read := by
  cases f with
  | byte => exact local_byte
  | boolean => exact local_byte.map (· != 0)
  | int16 => exact (local_word 2).map fun n => (UInt16.ofNat n).toInt16
  | int32 => exact local_int32
  | uint32 | single => exact (local_word 4).map UInt32.ofNat
  | int64 => exact (local_word 8).map fun n => (UInt64.ofNat n).toInt64
  | double => exact (local_word 8).map UInt64.ofNat
  | length => exact local_length
  | compact => exact local_compact
  | text => exact local_text
  | block size => exact local_take size

/-! ## 3. Plans -/

/-- A sequence of reads; which one comes next may depend on the values read before. -/
inductive Plan where
  | stop
  | read (field : Field) (next : field.Value → Plan)

/-- A value that was read, and the position after it. -/
structure Reading where
  field : Field
  value : field.Value
  position : Nat

/-- What a plan comes to: the values that were read, the error that ended it, if one did, and the
reader then. -/
structure Course where
  readings : List Reading
  failure : Option Error
  reader : Reader

/-- Reads until the plan stops or a read fails. -/
def Plan.run : Plan → Reader → Course
  | stop, r => ⟨[], none, r⟩
  | read f next, r =>
    match f.read r with
    | (.ok v, r) =>
      let course := (next v).run r
      { course with readings := ⟨f, v, r.position⟩ :: course.readings }
    | (.error e, r) => ⟨[], some e, r⟩

section Plans

variable {before ahead bytes more : Bytes} {f : Field} {next : f.Value → Plan} {v : f.Value}

theorem Plan.run_read_of_takes (h : Takes before f.read bytes v) :
    (Plan.read f next).run (.between before (bytes ++ more)) =
      let course := (next v).run (.between (before ++ bytes) more)
      { course with readings := ⟨f, v, (before ++ bytes).length⟩ :: course.readings } := by
  simp only [Plan.run, h more, Reader.position_between]

theorem Plan.run_read_of_error {r s : Reader} {e : Error} (h : f.read r = (.error e, s)) :
    (Plan.read f next).run r = ⟨[], some e, s⟩ := by
  simp only [Plan.run, h]

end Plans

/-- A plan that comes to its end takes certain bytes. With these ahead it always comes to the same end;
and where a buffer stops among them, just the values that end before are read, and the next read reports
the end of the buffer. -/
theorem Plan.run_local (plan : Plan) (before : Bytes) {ahead : Bytes}
    (success : (plan.run (.between before ahead)).failure = none) :
    ∃ bytes rest, ahead = bytes ++ rest ∧
      (∀ more, plan.run (.between before (bytes ++ more)) =
        ⟨(plan.run (.between before ahead)).readings, none, .between (before ++ bytes) more⟩) ∧
      ∀ short, short <+: bytes → short ≠ bytes → ∃ offset needed remaining s,
        plan.run (.between before short) =
          ⟨(plan.run (.between before ahead)).readings.takeWhile
              (·.position ≤ before.length + short.length),
            some (.unexpectedEnd offset needed remaining), s⟩ ∧
          offset + remaining = before.length + short.length ∧ remaining < needed := by
  induction plan generalizing before ahead with
  | stop =>
    refine ⟨[], ahead, rfl, fun more => ?_, fun short isPrefix ne => ?_⟩
    · rw [List.append_nil]
      rfl
    · exact absurd (List.prefix_nil.mp isPrefix) ne
  | read f next ih =>
    obtain ⟨v, s, first⟩ : ∃ v s, f.read (.between before ahead) = (.ok v, s) := by
      cases first : f.read (.between before ahead) with
      | mk outcome s =>
        cases outcome with
        | ok v => exact ⟨v, s, rfl⟩
        | error e =>
          rw [Plan.run_read_of_error first] at success
          cases success
    obtain ⟨bytes, rest, rfl, rfl, taken, starved⟩ := local_read f _ _ _ _ first
    rw [Plan.run_read_of_takes taken] at success ⊢
    obtain ⟨bytes', rest', rfl, same, cut⟩ := ih v _ success
    refine ⟨bytes ++ bytes', rest', by rw [List.append_assoc], fun more => ?_,
      fun short isPrefix ne => ?_⟩
    · rw [List.append_assoc, Plan.run_read_of_takes taken, same more, List.append_assoc]
    · rcases short_cases isPrefix ne with ⟨short', rfl, inside, other⟩ | ⟨inside, other⟩
      · obtain ⟨offset, needed, remaining, s, course, place, lacks⟩ := cut short' inside other
        have length : before.length + (bytes ++ short').length =
            (before ++ bytes).length + short'.length := by
          simp only [List.length_append]; omega
        have ends : (before ++ bytes).length ≤ (before ++ bytes).length + short'.length :=
          Nat.le_add_right ..
        refine ⟨offset, needed, remaining, s, ?_, by rw [place, length], lacks⟩
        rw [Plan.run_read_of_takes taken, course, length]
        simp only [List.takeWhile_cons, ends, decide_true, if_true]
      · obtain ⟨offset, needed, remaining, s, fails, place, lacks⟩ := starved short inside other
        have few := length_lt_of_short inside other
        have ends : ¬(before ++ bytes).length ≤ before.length + short.length := by
          simp only [List.length_append]; omega
        refine ⟨offset, needed, remaining, s, ?_, place, lacks⟩
        rw [Plan.run_read_of_error fails]
        simp only [List.takeWhile_cons, ends, decide_false, Bool.false_eq_true, if_false]

/-- **Every truncation is noticed, and nothing behind the last read matters.** Let a plan come to its end
on a buffer. On every buffer that begins with the bytes that were consumed it reads the same values and
ends at the same place. On the buffer cut anywhere before that place it reads just the values that end
before the cut, and the next read reports the end of the data and nothing else. -/
theorem truncation_is_noticed (plan : Plan) (data : Bytes)
    (success : (plan.run (.ofBytes data)).failure = none) :
    let course := plan.run (.ofBytes data)
    let consumed := course.reader.position
    (∀ other : Bytes, other.take consumed = data.take consumed →
      let again := plan.run (.ofBytes other)
      again.readings = course.readings ∧ again.failure = none ∧
        again.reader.position = consumed) ∧
    ∀ length < consumed,
      let short := plan.run (.ofBytes (data.take length))
      short.readings = course.readings.takeWhile (·.position ≤ length) ∧
        ∃ offset needed remaining,
          short.failure = some (.unexpectedEnd offset needed remaining) ∧
          offset + remaining = length ∧ remaining < needed := by
  intro course consumed
  obtain ⟨bytes, rest, rfl, same, cut⟩ := plan.run_local [] success
  have ends : consumed = bytes.length := by
    show (plan.run (.between [] (bytes ++ rest))).reader.position = bytes.length
    rw [same rest]
    rfl
  rw [ends, List.take_left]
  refine ⟨fun other start => ?_, fun length few => ?_⟩
  · have split : other = bytes ++ other.drop bytes.length := by
      calc other = other.take bytes.length ++ other.drop bytes.length :=
          (List.take_append_drop ..).symm
        _ = bytes ++ other.drop bytes.length := by rw [start]
    have again := same (other.drop bytes.length)
    rw [← split] at again
    rw [Reader.ofBytes_eq_between, again]
    exact ⟨rfl, rfl, rfl⟩
  · have short : (bytes ++ rest).take length = bytes.take length :=
      List.take_append_of_le_length (Nat.le_of_lt few)
    have shorter : (bytes.take length).length = length := List.length_take_of_le (Nat.le_of_lt few)
    have other : bytes.take length ≠ bytes := by
      intro whole
      rw [whole] at shorter
      omega
    obtain ⟨offset, needed, remaining, s, short', place, lacks⟩ :=
      cut _ (List.take_prefix ..) other
    rw [shorter] at short' place
    rw [List.length_nil, Nat.zero_add] at short' place
    rw [short, Reader.ofBytes_eq_between, short']
    exact ⟨rfl, offset, needed, remaining, rfl, place, lacks⟩

/-- A block is read whose size is the byte before it; the byte behind it plays no part, and without its
last byte the block is missed. -/
theorem truncation_is_noticed_of_block :
    let plan : Plan := .read .byte fun size => .read (.block size.toNat) fun _ => .stop
    let course := plan.run (.ofBytes [2, 7, 8, 9])
    let short := plan.run (.ofBytes [2, 7])
    course.failure = none ∧
      (plan.run (.ofBytes [2, 7, 8, 5, 6])).readings = course.readings ∧
      short.readings = course.readings.takeWhile (·.position ≤ 2) ∧
      ∃ offset needed remaining,
        short.failure = some (.unexpectedEnd offset needed remaining) ∧ offset + remaining = 2 := by
  intro plan course short
  obtain ⟨same, cut⟩ := truncation_is_noticed plan [2, 7, 8, 9] rfl
  obtain ⟨readings, offset, needed, remaining, failure, place, -⟩ := cut 2 (by decide)
  exact ⟨rfl, (same [2, 7, 8, 5, 6] rfl).1, readings, offset, needed, remaining, failure, place⟩

end ModelLoading.Decode
