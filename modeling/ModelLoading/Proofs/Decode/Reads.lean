import ModelLoading.Decode.Field

/-!
# What a read takes

A reader is determined by the bytes behind it and the bytes ahead of it (`Reader.between`). A read takes
certain bytes at a place if it returns one value whenever these bytes come next, whatever follows them,
and ends behind them (`Takes`). Reads that follow one another take the bytes of each in turn, so a law
about a read is put together from the laws of its parts.
-/

namespace ModelLoading.Decode

variable {α β : Type}

/-! ## 1. Computations -/

namespace Read

theorem bind_of_ok {read : Read α} {next : α → Read β} {r r' : Reader} {v : α}
    (h : read r = (.ok v, r')) : (read >>= next) r = next v r' := by
  show ExceptT.bindCont next (read r).1 (read r).2 = next v r'
  rw [h]
  rfl

theorem bind_of_error {read : Read α} {next : α → Read β} {r r' : Reader} {e : Error}
    (h : read r = (.error e, r')) : (read >>= next) r = (.error e, r') := by
  show ExceptT.bindCont next (read r).1 (read r).2 = (.error e, r')
  rw [h]
  rfl

/-- A computation returns a value only if its first part does. -/
theorem of_bind_eq_ok {read : Read α} {next : α → Read β} {r r' : Reader} {w : β}
    (h : (read >>= next) r = (.ok w, r')) :
    ∃ v s, read r = (.ok v, s) ∧ next v s = (.ok w, r') := by
  cases first : read r with
  | mk outcome s =>
    cases outcome with
    | ok v =>
      rw [bind_of_ok first] at h
      exact ⟨v, s, rfl, h⟩
    | error e =>
      rw [bind_of_error first] at h
      cases h

end Read

/-! ## 2. Places -/

/-- A reader that has certain bytes behind it and others ahead of it. -/
def Reader.between (before ahead : Bytes) : Reader where
  data := before ++ ahead
  position := before.length
  position_le := by simp

namespace Reader

variable {before ahead bytes more : Bytes}

@[simp] theorem data_between : (between before ahead).data = before ++ ahead := rfl

@[simp] theorem position_between : (between before ahead).position = before.length := rfl

@[simp] theorem rest_between : (between before ahead).rest = ahead := by
  simp [rest]

@[simp] theorem remaining_between : (between before ahead).remaining = ahead.length := by
  simp [remaining]

theorem ofBytes_eq_between (data : Bytes) : ofBytes data = between [] data := rfl

theorem offset_between : offset (between before ahead) = (.ok before.length, between before ahead) :=
  rfl

/-- Every reader is at a place. -/
theorem exists_between (r : Reader) : ∃ before ahead, r = between before ahead := by
  obtain ⟨data, position, inside⟩ := r
  exact ⟨data.take position, data.drop position, by simp [between, inside]⟩

/-- Bytes that are there are taken. -/
theorem take_between : take bytes.length (between before (bytes ++ more)) =
    (.ok bytes, between (before ++ bytes) more) := by
  have enough : (between before (bytes ++ more)).position + bytes.length ≤
      (between before (bytes ++ more)).data.length := by simp
  unfold take
  rw [dif_pos enough, rest_between]
  simp [between]

/-- Too few bytes are left as they are. -/
theorem take_between_of_lt {count : Nat} (h : ahead.length < count) :
    take count (between before ahead) =
      (.error (.unexpectedEnd before.length count ahead.length), between before ahead) := by
  have few : ¬(between before ahead).position + count ≤ (between before ahead).data.length := by
    simp; omega
  unfold take
  rw [dif_neg few]
  simp

theorem byte_between_nil : byte (between before []) =
    (.error (.unexpectedEnd before.length 1 0), between before []) := by
  have few : take 1 (between before []) =
      (.error (.unexpectedEnd before.length 1 0), between before []) :=
    take_between_of_lt Nat.one_pos
  exact Read.bind_of_error (Read.bind_of_error few)

/-- Another reader stands a number of bytes further on in the same buffer. -/
structure Past (r : Reader) (count : Nat) (s : Reader) : Prop where
  data : s.data = r.data
  position : s.position = r.position + count

theorem past_between (before bytes more : Bytes) :
    (between before (bytes ++ more)).Past bytes.length (between (before ++ bytes) more) :=
  ⟨by simp, by simp⟩

/-- There is one reader that many bytes further on. -/
theorem Past.unique {r s t : Reader} {count : Nat} (h : r.Past count s) (k : r.Past count t) :
    s = t := by
  obtain ⟨data, position, _⟩ := s
  obtain ⟨data', position', _⟩ := t
  obtain rfl : data = data' := h.data.trans k.data.symm
  obtain rfl : position = position' := h.position.trans k.position.symm
  rfl

/-- The bytes asked for are taken if there are that many. -/
theorem take_of_enough {r : Reader} {count : Nat} (enough : count ≤ r.remaining) :
    ∃ s, r.Past count s ∧ take count r = (.ok (r.rest.take count), s) := by
  have inside := r.position_le
  unfold remaining at enough
  have fits : r.position + count ≤ r.data.length := by omega
  refine ⟨{ r with position := r.position + count, position_le := fits }, ⟨rfl, rfl⟩, ?_⟩
  unfold take
  rw [dif_pos fits]

theorem take_of_few {r : Reader} {count : Nat} (few : r.remaining < count) :
    take count r = (.error (.unexpectedEnd r.position count r.remaining), r) := by
  obtain ⟨before, ahead, rfl⟩ := r.exists_between
  rw [remaining_between] at few
  rw [take_between_of_lt few, position_between, remaining_between]

end Reader

/-! ## 3. The bytes of a read -/

/-- At a place with certain bytes behind it, a read takes the given bytes and returns a value. -/
def Takes (before : Bytes) (read : Read α) (bytes : Bytes) (v : α) : Prop :=
  ∀ more, read (.between before (bytes ++ more)) = (.ok v, .between (before ++ bytes) more)

section Takes

variable {before bytes bytes' : Bytes} {read : Read α} {next : α → Read β} {v : α} {w : β}

theorem takes_pure : Takes before (pure v : Read α) [] v := by
  intro more
  rw [List.append_nil]
  rfl

theorem takes_take (before bytes : Bytes) :
    Takes before (Reader.take bytes.length) bytes bytes :=
  fun _ => Reader.take_between

theorem Takes.bind (first : Takes before read bytes v)
    (then_ : Takes (before ++ bytes) (next v) bytes' w) :
    Takes before (read >>= next) (bytes ++ bytes') w := by
  intro more
  rw [List.append_assoc, Read.bind_of_ok (first (bytes' ++ more)), then_ more, List.append_assoc]

/-- What follows a read may take no more bytes. -/
theorem Takes.bind_nil (first : Takes before read bytes v)
    (then_ : Takes (before ++ bytes) (next v) [] w) : Takes before (read >>= next) bytes w := by
  have both := first.bind then_
  rwa [List.append_nil] at both

theorem Takes.map (h : Takes before read bytes v) (f : α → β) :
    Takes before (do return f (← read)) bytes (f v) := by
  refine h.bind_nil ?_
  exact takes_pure

theorem takes_byte (before : Bytes) (b : UInt8) : Takes before Reader.byte [b] b := by
  have read := ((takes_take before [b]).map Bytes.toNat).map UInt8.ofNat
  have same : UInt8.ofNat (Bytes.toNat [b]) = b := by simp [Bytes.toNat]
  rw [same] at read
  exact read

/-- To ask for the position takes nothing. -/
theorem takes_offset_bind {next : Nat → Read β} (h : Takes before (next before.length) bytes w) :
    Takes before (Reader.offset >>= next) bytes w := by
  intro more
  rw [Read.bind_of_ok Reader.offset_between]
  exact h more

end Takes

end ModelLoading.Decode
