import Mathlib.Algebra.BigOperators.Ring.List
import Mathlib.Algebra.Ring.Nat
import Mathlib.Data.Nat.Bitwise
import ModelLoading.Proofs.Decode.Reads

/-!
# Numbers in groups of seven bits

A 32-bit number is stored in at most five bytes: each but the last announces another one by its high
bit, and the fifth has room for four bits (`Grouped`). Any bytes begin with such a number, or they end
in it, or they have a fifth byte with more bits (`grouped_cases`); `Reader.compact` tells the three apart
and loses no bit of a number (`Grouped.groups_lt`). The same loop on machine words, with shifts and masks,
reads the same (`rounds_eq_compactFrom`) and never comes to its end without an answer.
-/

namespace ModelLoading

/-! ## 1. Layouts -/

namespace Bytes

/-- The number that bytes stand for in groups of seven bits: the low seven bits of each, times
`2 ^ (7 * j)` for the byte with `j` bytes before it. -/
def groups (b : Bytes) : Nat := (b.zipIdx.map fun d => d.1.toNat % 128 * 2 ^ (7 * d.2)).sum

@[simp] theorem groups_nil : groups [] = 0 := rfl

theorem groups_cons (digit : UInt8) (rest : Bytes) :
    groups (digit :: rest) = digit.toNat % 128 + 128 * groups rest := by
  have later : ((rest.zipIdx 1).map fun d => d.1.toNat % 128 * 2 ^ (7 * d.2)).sum =
      128 * groups rest := by
    rw [List.zipIdx_eq_map_add, List.map_map, groups, ← List.sum_map_mul_left]
    refine congrArg List.sum (List.map_congr_left fun d _ => ?_)
    calc d.1.toNat % 128 * 2 ^ (7 * (1 + d.2))
        = d.1.toNat % 128 * (2 ^ 7 * 2 ^ (7 * d.2)) := by rw [Nat.mul_add, Nat.pow_add]
      _ = 128 * (d.1.toNat % 128 * 2 ^ (7 * d.2)) := by grind
  rw [groups, List.zipIdx_cons, List.map_cons, List.sum_cons, later]
  simp

/-- A number in groups of seven bits, low group first, without empty groups at the end; each byte but
the last has its high bit set. -/
def compact (n : Nat) : Bytes :=
  if n < 128 then [UInt8.ofNat n] else UInt8.ofNat (n % 128 + 128) :: compact (n / 128)
termination_by n
decreasing_by omega

theorem compact_of_lt {n : Nat} (h : n < 128) : compact n = [UInt8.ofNat n] := by
  rw [compact, if_pos h]

theorem compact_of_le {n : Nat} (h : 128 ≤ n) :
    compact n = UInt8.ofNat (n % 128 + 128) :: compact (n / 128) := by
  rw [compact, if_neg (by omega)]

end Bytes

namespace Decode

/-! ## 2. The form of a number -/

/-- Every byte announces another one by its high bit. -/
def Announcing (b : Bytes) : Prop := ∀ digit ∈ b, 0x80 ≤ digit

/-- The bytes of a number in groups of seven bits: at most so many that announce another one, and a
last one, which has room for four bits behind that many others. -/
structure Grouped (most : Nat) (more : Bytes) (last : UInt8) : Prop where
  announcing : Announcing more
  ends : last < 0x80
  few : more.length ≤ most
  room : more.length = most → last ≤ 0x0F

section Forms

variable {most : Nat} {more ahead : Bytes} {digit last : UInt8}

theorem announcing_nil : Announcing [] := by simp [Announcing]

theorem announcing_cons : Announcing (digit :: more) ↔ 0x80 ≤ digit ∧ Announcing more := by
  simp [Announcing]

/-- The last byte alone. -/
theorem grouped_nil : Grouped most [] last ↔ last < 0x80 ∧ (most = 0 → last ≤ 0x0F) := by
  refine ⟨fun h => ⟨h.ends, fun full => h.room full.symm⟩, fun h => ?_⟩
  exact ⟨announcing_nil, h.1, Nat.zero_le _, fun full => h.2 full.symm⟩

theorem Grouped.cons (announces : 0x80 ≤ digit) (h : Grouped most more last) :
    Grouped (most + 1) (digit :: more) last :=
  ⟨announcing_cons.mpr ⟨announces, h.announcing⟩, h.ends, Nat.succ_le_succ h.few,
    fun full => h.room (Nat.succ.inj full)⟩

/-- What follows the first of several bytes has the form with one byte less. -/
theorem Grouped.of_cons (h : Grouped most (digit :: more) last) :
    ∃ fewer, most = fewer + 1 ∧ 0x80 ≤ digit ∧ Grouped fewer more last := by
  obtain ⟨announcing, ends, few, room⟩ := h
  obtain ⟨announces, announcing⟩ := announcing_cons.mp announcing
  cases most with
  | zero => cases few
  | succ fewer =>
    exact ⟨fewer, rfl, announces, announcing, ends, Nat.le_of_succ_le_succ few,
      fun full => room (congrArg (· + 1) full)⟩

theorem toNat_mod_of_le (h : 0x80 ≤ digit) : digit.toNat % 128 = digit.toNat - 0x80 := by
  have low := UInt8.le_iff_toNat_le.mp h
  have high := digit.toNat_lt
  simp only [UInt8.reduceToNat] at low
  omega

theorem toNat_mod_of_lt (h : digit < 0x80) : digit.toNat % 128 = digit.toNat := by
  have low := UInt8.lt_iff_toNat_lt.mp h
  exact Nat.mod_eq_of_lt low

theorem groups_singleton (h : last < 0x80) : Bytes.groups [last] = last.toNat := by
  rw [Bytes.groups_cons, Bytes.groups_nil, toNat_mod_of_lt h, Nat.mul_zero, Nat.add_zero]

/-- The groups have room in four bits more than seven for each byte that announces another one. -/
theorem Grouped.groups_lt (h : Grouped most more last) :
    Bytes.groups (more ++ [last]) < 2 ^ (7 * most + 4) := by
  induction more generalizing most with
  | nil =>
    obtain ⟨ends, room⟩ := grouped_nil.mp h
    rw [List.nil_append, groups_singleton ends]
    cases most with
    | zero => exact Nat.lt_succ_of_le (UInt8.le_iff_toNat_le.mp (room rfl))
    | succ most =>
      calc last.toNat < 2 ^ 7 := UInt8.lt_iff_toNat_lt.mp ends
        _ ≤ 2 ^ (7 * (most + 1) + 4) := Nat.pow_le_pow_right (by decide) (by omega)
  | cons digit more ih =>
    obtain ⟨fewer, rfl, -, later⟩ := h.of_cons
    have small := ih later
    have bits : 2 ^ (7 * (fewer + 1) + 4) = 128 * 2 ^ (7 * fewer + 4) := by
      rw [show 7 * (fewer + 1) + 4 = 7 + (7 * fewer + 4) by omega, Nat.pow_add]
    rw [List.cons_append, Bytes.groups_cons, bits]
    omega

/-- Bytes begin with a number, or they end in it, or they have too many bits for one. -/
theorem grouped_cases (most : Nat) (ahead : Bytes) :
    (∃ more last rest, ahead = more ++ last :: rest ∧ Grouped most more last) ∨
    (ahead.length ≤ most ∧ Announcing ahead) ∨
    ∃ more last rest, ahead = more ++ last :: rest ∧ more.length = most ∧ Announcing more ∧
      0x0F < last := by
  induction ahead generalizing most with
  | nil => exact .inr (.inl ⟨Nat.zero_le _, announcing_nil⟩)
  | cons digit ahead ih =>
    cases most with
    | zero =>
      rcases UInt8.lt_or_le 0x0F digit with large | small
      · exact .inr (.inr ⟨[], digit, ahead, rfl, rfl, announcing_nil, large⟩)
      · have ends : digit < 0x80 := UInt8.lt_of_le_of_lt small (by decide)
        exact .inl ⟨[], digit, ahead, rfl, grouped_nil.mpr ⟨ends, fun _ => small⟩⟩
    | succ most =>
      rcases UInt8.lt_or_le digit 0x80 with ends | announces
      · exact .inl ⟨[], digit, ahead, rfl, grouped_nil.mpr ⟨ends, by simp⟩⟩
      · rcases ih most with ⟨more, last, rest, rfl, form⟩ | ⟨few, announcing⟩ |
          ⟨more, last, rest, rfl, full, announcing, large⟩
        · exact .inl ⟨digit :: more, last, rest, rfl, form.cons announces⟩
        · exact .inr (.inl ⟨Nat.succ_le_succ few, announcing_cons.mpr ⟨announces, announcing⟩⟩)
        · exact .inr (.inr ⟨digit :: more, last, rest, rfl, congrArg (· + 1) full,
            announcing_cons.mpr ⟨announces, announcing⟩, large⟩)

/-- A number that has room in the groups is laid out in their form. -/
theorem grouped_compact {n : Nat} (h : n < 2 ^ (7 * most + 4)) :
    ∃ more last, Bytes.compact n = more ++ [last] ∧ Grouped most more last ∧
      Bytes.groups (more ++ [last]) = n := by
  induction most generalizing n with
  | zero =>
    have digit : (UInt8.ofNat n).toNat = n := by rw [UInt8.toNat_ofNat']; omega
    have room : UInt8.ofNat n ≤ 0x0F := by
      rw [UInt8.le_iff_toNat_le, digit]
      exact Nat.le_of_lt_succ h
    have ends : UInt8.ofNat n < 0x80 := UInt8.lt_of_le_of_lt room (by decide)
    refine ⟨[], UInt8.ofNat n, Bytes.compact_of_lt (by omega), grouped_nil.mpr ⟨ends, fun _ => room⟩, ?_⟩
    rw [List.nil_append, groups_singleton ends, digit]
  | succ most ih =>
    rcases Nat.lt_or_ge n 128 with small | large
    · have digit : (UInt8.ofNat n).toNat = n := by rw [UInt8.toNat_ofNat']; omega
      have ends : UInt8.ofNat n < 0x80 := by
        rw [UInt8.lt_iff_toNat_lt, digit]
        exact small
      refine ⟨[], UInt8.ofNat n, Bytes.compact_of_lt small, grouped_nil.mpr ⟨ends, by simp⟩, ?_⟩
      rw [List.nil_append, groups_singleton ends, digit]
    · have digit : (UInt8.ofNat (n % 128 + 128)).toNat = n % 128 + 128 := by
        rw [UInt8.toNat_ofNat']; omega
      have announces : 0x80 ≤ UInt8.ofNat (n % 128 + 128) := by
        rw [UInt8.le_iff_toNat_le, digit]
        simp only [UInt8.reduceToNat]
        omega
      have left : n / 128 < 2 ^ (7 * most + 4) := by
        have bits : 7 * (most + 1) + 4 = 7 * most + 4 + 7 := by omega
        rw [Nat.div_lt_iff_lt_mul (by decide)]
        calc n < 2 ^ (7 * (most + 1) + 4) := h
          _ = 2 ^ (7 * most + 4) * 128 := by rw [bits, Nat.pow_add]
      obtain ⟨more, last, layout, form, value⟩ := ih left
      refine ⟨UInt8.ofNat (n % 128 + 128) :: more, last, ?_, form.cons announces, ?_⟩
      · rw [Bytes.compact_of_le large, layout, List.cons_append]
      · rw [List.cons_append, Bytes.groups_cons, value, digit]
        omega

end Forms

/-! ## 3. What is made of the bytes -/

section Outcomes

variable {most : Nat} {more ahead rest : Bytes} {last : UInt8}

/-- Seven bits a time, low group first: bytes of the form are the number that their groups stand for. -/
theorem takes_groups (before : Bytes) (start shift low : Nat) (h : Grouped most more last) :
    Takes before (Reader.compactFrom start most shift low) (more ++ [last])
      (UInt32.ofNat (low + Bytes.groups (more ++ [last]) * 2 ^ shift)).toInt32 := by
  induction more generalizing most before shift low with
  | nil =>
    obtain ⟨ends, room⟩ := grouped_nil.mp h
    rw [List.nil_append, groups_singleton ends]
    cases most with
    | zero =>
      have fits : ¬0x0F < last := UInt8.not_lt.mpr (room rfl)
      refine (takes_byte before last).bind_nil ?_
      simp only [if_neg fits]
      exact takes_pure
    | succ most =>
      refine (takes_byte before last).bind_nil ?_
      simp only [if_pos ends]
      exact takes_pure
  | cons digit more ih =>
    obtain ⟨fewer, rfl, announces, later⟩ := h.of_cons
    have goesOn : ¬digit < 0x80 := UInt8.not_lt.mpr announces
    have value : low + (digit.toNat - 0x80) * 2 ^ shift +
        Bytes.groups (more ++ [last]) * 2 ^ (shift + 7) =
          low + Bytes.groups (digit :: (more ++ [last])) * 2 ^ shift := by
      rw [Bytes.groups_cons, toNat_mod_of_le announces, Nat.pow_add]
      grind
    have rest := ih (before ++ [digit]) (shift + 7) (low + (digit.toNat - 0x80) * 2 ^ shift) later
    rw [value] at rest
    rw [List.cons_append, ← List.singleton_append (l := more ++ [last])]
    refine (takes_byte before digit).bind ?_
    simp only [if_neg goesOn]
    exact rest

/-- The buffer ends among bytes that announce another one. -/
theorem compactFrom_of_few (before : Bytes) (start shift low : Nat) (few : ahead.length ≤ most)
    (announcing : Announcing ahead) :
    Reader.compactFrom start most shift low (.between before ahead) =
      (.error (.unexpectedEnd (before ++ ahead).length 1 0), .between (before ++ ahead) []) := by
  induction ahead generalizing most before shift low with
  | nil =>
    rw [List.append_nil]
    cases most <;> exact Read.bind_of_error Reader.byte_between_nil
  | cons digit ahead ih =>
    obtain ⟨announces, announcing⟩ := announcing_cons.mp announcing
    cases most with
    | zero => cases few
    | succ most =>
      have goesOn : ¬digit < 0x80 := UInt8.not_lt.mpr announces
      have first := takes_byte before digit ahead
      rw [List.singleton_append] at first
      refine (Read.bind_of_ok first).trans ?_
      simp only [if_neg goesOn]
      rw [ih _ _ _ (Nat.le_of_succ_le_succ few) announcing, List.append_assoc, List.singleton_append]

/-- Behind as many bytes as may announce another one, a byte with more than four bits is refused. -/
theorem compactFrom_of_large (before : Bytes) (start shift low : Nat) (full : more.length = most)
    (announcing : Announcing more) (large : 0x0F < last) :
    Reader.compactFrom start most shift low (.between before (more ++ last :: rest)) =
      (.error (.invalidLength start last.toNat), .between (before ++ (more ++ [last])) rest) := by
  induction more generalizing most before shift low with
  | nil =>
    subst full
    have first := takes_byte before last rest
    rw [List.singleton_append] at first
    rw [List.nil_append, List.length_nil]
    refine (Read.bind_of_ok first).trans ?_
    simp only [if_pos large]
    rfl
  | cons digit more ih =>
    obtain ⟨announces, announcing⟩ := announcing_cons.mp announcing
    subst full
    have goesOn : ¬digit < 0x80 := UInt8.not_lt.mpr announces
    have first := takes_byte before digit (more ++ last :: rest)
    rw [List.singleton_append] at first
    rw [List.length_cons, List.cons_append]
    refine (Read.bind_of_ok first).trans ?_
    simp only [if_neg goesOn]
    rw [ih _ _ _ rfl announcing]
    simp

theorem compact_between (before ahead : Bytes) : Reader.compact (.between before ahead) =
    Reader.compactFrom before.length 4 0 0 (.between before ahead) :=
  Read.bind_of_ok Reader.offset_between

/-- The bits of the number are those of the groups, and no bit is lost. -/
theorem takes_compact_of_grouped (before : Bytes) (h : Grouped 4 more last) :
    ∃ v : Int32, v.toUInt32.toNat = Bytes.groups (more ++ [last]) ∧
      Takes before Reader.compact (more ++ [last]) v := by
  have taken := takes_groups before before.length 0 0 h
  rw [Nat.zero_add, Nat.pow_zero, Nat.mul_one] at taken
  refine ⟨_, ?_, takes_offset_bind taken⟩
  rw [UInt32.toUInt32_toInt32, UInt32.toNat_ofNat_of_lt' h.groups_lt]

theorem eq_of_bits {v w : Int32} (h : v.toUInt32.toNat = w.toUInt32.toNat) : v = w := by
  have same : v.toUInt32 = w.toUInt32 := UInt32.toNat_inj.mp h
  rw [← Int32.toInt32_toUInt32 v, same, Int32.toInt32_toUInt32]

theorem takes_compact (before : Bytes) (v : Int32) :
    Takes before Reader.compact (.compact v.toUInt32.toNat) v := by
  have fits : v.toUInt32.toNat < 2 ^ (7 * 4 + 4) := v.toUInt32.toNat_lt
  obtain ⟨more, last, layout, form, value⟩ := grouped_compact fits
  obtain ⟨w, bits, taken⟩ := takes_compact_of_grouped before form
  rw [layout, ← eq_of_bits (bits.trans value)]
  exact taken

/-- A number is returned for bytes of its form, and the reader stands behind them. -/
theorem compact_eq_ok_iff (r s : Reader) (v : Int32) : Reader.compact r = (.ok v, s) ↔
    ∃ more last rest, r.rest = more ++ last :: rest ∧ Grouped 4 more last ∧
      v.toUInt32.toNat = Bytes.groups (more ++ [last]) ∧ r.Past (more.length + 1) s := by
  obtain ⟨before, ahead, rfl⟩ := r.exists_between
  have read : ∀ (more : Bytes) last rest, Grouped 4 more last →
      ∃ w : Int32, w.toUInt32.toNat = Bytes.groups (more ++ [last]) ∧
        Reader.compact (.between before (more ++ last :: rest)) =
          (.ok w, .between (before ++ (more ++ [last])) rest) ∧
        (Reader.between before (more ++ last :: rest)).Past (more.length + 1)
          (.between (before ++ (more ++ [last])) rest) := by
    intro more last rest form
    obtain ⟨w, bits, taken⟩ := takes_compact_of_grouped before form
    have taken := taken rest
    have past := Reader.past_between before (more ++ [last]) rest
    rw [List.append_assoc, List.singleton_append] at taken past
    rw [List.length_append, List.length_singleton] at past
    exact ⟨w, bits, taken, past⟩
  rw [Reader.rest_between]
  constructor
  · intro h
    rcases grouped_cases 4 ahead with ⟨more, last, rest, rfl, form⟩ | ⟨few, announcing⟩ |
      ⟨more, last, rest, rfl, full, announcing, large⟩
    · obtain ⟨w, bits, reads, past⟩ := read more last rest form
      cases reads.symm.trans h
      exact ⟨more, last, rest, rfl, form, bits, past⟩
    · rw [compact_between, compactFrom_of_few _ _ _ _ few announcing] at h
      cases h
    · rw [compact_between, compactFrom_of_large _ _ _ _ full announcing large] at h
      cases h
  · rintro ⟨more, last, rest, rfl, form, bits, past⟩
    obtain ⟨w, bits', reads, past'⟩ := read more last rest form
    rw [reads, eq_of_bits (bits'.trans bits.symm), past'.unique past]

/-- There is no number where the buffer ends too early or a fifth byte has too many bits. -/
theorem compact_eq_error_iff (r s : Reader) (e : Error) : Reader.compact r = (.error e, s) ↔
    r.remaining ≤ 4 ∧ Announcing r.rest ∧ e = .unexpectedEnd r.data.length 1 0 ∧
        r.Past r.remaining s ∨
    ∃ more fifth rest, r.rest = more ++ fifth :: rest ∧ more.length = 4 ∧ Announcing more ∧
      0x0F < fifth ∧ e = .invalidLength r.position fifth.toNat ∧ r.Past 5 s := by
  obtain ⟨before, ahead, rfl⟩ := r.exists_between
  have ends : ahead.length ≤ 4 → Announcing ahead → Reader.compact (.between before ahead) =
      (.error (.unexpectedEnd (before ++ ahead).length 1 0), .between (before ++ ahead) []) ∧
      (Reader.between before ahead).Past ahead.length (.between (before ++ ahead) []) := by
    intro few announcing
    have past := Reader.past_between before ahead []
    rw [List.append_nil] at past
    exact ⟨(compact_between ..).trans (compactFrom_of_few _ _ _ _ few announcing), past⟩
  have refused : ∀ (more : Bytes) fifth rest, more.length = 4 → Announcing more → 0x0F < fifth →
      Reader.compact (.between before (more ++ fifth :: rest)) =
        (.error (.invalidLength before.length fifth.toNat),
          .between (before ++ (more ++ [fifth])) rest) ∧
      (Reader.between before (more ++ fifth :: rest)).Past 5
        (.between (before ++ (more ++ [fifth])) rest) := by
    intro more fifth rest full announcing large
    have past := Reader.past_between before (more ++ [fifth]) rest
    rw [List.append_assoc, List.singleton_append, List.length_append, full] at past
    exact ⟨(compact_between ..).trans (compactFrom_of_large _ _ _ _ full announcing large), past⟩
  rw [Reader.rest_between, Reader.remaining_between, Reader.data_between, Reader.position_between]
  constructor
  · intro h
    rcases grouped_cases 4 ahead with ⟨more, last, rest, rfl, form⟩ | ⟨few, announcing⟩ |
      ⟨more, fifth, rest, rfl, full, announcing, large⟩
    · obtain ⟨w, -, taken⟩ := takes_compact_of_grouped before form
      have taken := taken rest
      rw [List.append_assoc, List.singleton_append, h] at taken
      cases taken
    · obtain ⟨reads, past⟩ := ends few announcing
      cases reads.symm.trans h
      exact .inl ⟨few, announcing, rfl, past⟩
    · obtain ⟨reads, past⟩ := refused more fifth rest full announcing large
      cases reads.symm.trans h
      exact .inr ⟨more, fifth, rest, rfl, full, announcing, large, rfl, past⟩
  · rintro (⟨few, announcing, rfl, past⟩ | ⟨more, fifth, rest, rfl, full, announcing, large, rfl, past⟩)
    · obtain ⟨reads, past'⟩ := ends few announcing
      rw [reads, past'.unique past]
    · obtain ⟨reads, past'⟩ := refused more fifth rest full announcing large
      rw [reads, past'.unique past]

end Outcomes

/-! ## 4. The loop on machine words -/

/-- A number in groups of seven bits, read on machine words: for each shift a byte, the low seven bits
of which are put into their place, until one announces no other. A byte at shift 28 has room for four
bits only. What is done behind the last shift is left open. -/
def Reader.rounds (start : Nat) (behind : UInt32 → Read Int32) : List Nat → UInt32 → Read Int32
  | [], result => behind result
  | shift :: shifts, result => do
    let digit ← byte
    if shift = 28 ∧ 0x0F < digit then
      throw (.invalidLength start digit.toNat)
    else
      let result := result ||| (digit &&& 0x7F).toUInt32 <<< UInt32.ofNat shift
      if digit &&& 0x80 = 0 then
        return result.toInt32
      else
        rounds start behind shifts result

theorem and_high_eq_zero_iff (digit : UInt8) : digit &&& 0x80 = 0 ↔ digit < 0x80 := by
  have bit : (digit &&& 0x80).toNat = digit.toNat / 128 % 2 * 128 := by
    rw [UInt8.toNat_and]
    calc digit.toNat &&& 2 ^ 7 = (digit.toNat.testBit 7).toNat * 2 ^ 7 := Nat.and_two_pow _ 7
      _ = digit.toNat / 2 ^ 7 % 2 * 2 ^ 7 := by rw [Nat.toNat_testBit]
  rw [← UInt8.toNat_inj, bit, UInt8.lt_iff_toNat_lt]
  have high := digit.toNat_lt
  simp only [UInt8.reduceToNat]
  omega

/-- Bits that are put into an empty place are added. -/
theorem toNat_or_shiftLeft {result : UInt32} {shift : Nat} (digit : UInt8)
    (empty : result.toNat < 2 ^ shift) (fits : digit.toNat % 128 * 2 ^ shift < 2 ^ 32)
    (inside : shift < 32) :
    (result ||| (digit &&& 0x7F).toUInt32 <<< UInt32.ofNat shift).toNat =
      result.toNat + digit.toNat % 128 * 2 ^ shift := by
  have low : (digit &&& 0x7F).toNat = digit.toNat % 128 := by
    rw [UInt8.toNat_and]
    exact Nat.and_two_pow_sub_one_eq_mod digit.toNat 7
  have place : (UInt32.ofNat shift).toNat % 32 = shift := by
    rw [UInt32.toNat_ofNat_of_lt' (by simp only [UInt32.size]; omega), Nat.mod_eq_of_lt inside]
  rw [UInt32.toNat_or, UInt32.toNat_shiftLeft, UInt8.toNat_toUInt32, low, place, Nat.shiftLeft_eq,
    Nat.mod_eq_of_lt fits, Nat.or_comm, Nat.mul_comm, ← Nat.two_pow_add_eq_or_of_lt empty, Nat.add_comm]

/-- The loop reads the same. Its last round is at shift 28, where a byte that is not refused announces
no other one. -/
theorem rounds_eq_compactFrom (start : Nat) (behind : UInt32 → Read Int32) (more shift : Nat)
    (result : UInt32) (bits : shift + 7 * more = 28) (empty : result.toNat < 2 ^ shift) :
    Reader.rounds start behind (List.range' shift (more + 1) 7) result =
      Reader.compactFrom start more shift result.toNat := by
  induction more generalizing shift result with
  | zero =>
    obtain rfl : shift = 28 := bits
    refine congrArg (Reader.byte >>= ·) (funext fun digit => ?_)
    by_cases large : 0x0F < digit
    · simp only [large, and_self, if_true]
    · have small := UInt8.le_iff_toNat_le.mp (UInt8.not_lt.mp large)
      simp only [UInt8.reduceToNat] at small
      have ends : digit < 0x80 := UInt8.lt_of_le_of_lt (UInt8.not_lt.mp large) (by decide)
      have value := toNat_or_shiftLeft digit empty (by omega) (by decide)
      simp only [large, and_false, if_false, (and_high_eq_zero_iff digit).mpr ends, if_true]
      rw [← UInt32.ofNat_toNat (x := _ ||| _), value, Nat.mod_eq_of_lt (by omega)]
  | succ more ih =>
    rw [List.range'_succ]
    refine congrArg (Reader.byte >>= ·) (funext fun digit => ?_)
    have early : ¬(shift = 28 ∧ 0x0F < digit) := by omega
    have fits : digit.toNat % 128 * 2 ^ shift < 2 ^ 32 := by
      calc digit.toNat % 128 * 2 ^ shift < 2 ^ 7 * 2 ^ shift :=
            Nat.mul_lt_mul_of_pos_right (Nat.mod_lt _ (by decide)) (Nat.two_pow_pos _)
        _ = 2 ^ (7 + shift) := (Nat.pow_add ..).symm
        _ ≤ 2 ^ 32 := Nat.pow_le_pow_right (by decide) (by omega)
    have value := toNat_or_shiftLeft digit empty fits (by omega)
    simp only [if_neg early, and_high_eq_zero_iff]
    split
    · rename_i ends
      rw [← UInt32.ofNat_toNat (x := _ ||| _), value, toNat_mod_of_lt ends]
    · rename_i goesOn
      have filled : (result ||| (digit &&& 0x7F).toUInt32 <<< UInt32.ofNat shift).toNat <
          2 ^ (shift + 7) := by
        have group : digit.toNat % 128 * 2 ^ shift ≤ 127 * 2 ^ shift :=
          Nat.mul_le_mul_right _ (Nat.le_of_lt_succ (Nat.mod_lt _ (by decide)))
        rw [value, Nat.pow_add]
        omega
      rw [ih _ _ (by omega) filled, value, toNat_mod_of_le (UInt8.not_lt.mp goesOn)]

theorem compact_eq_rounds (behind : UInt32 → Read Int32) :
    Reader.compact = (do Reader.rounds (← Reader.offset) behind (List.range' 0 5 7) 0) :=
  congrArg (Reader.offset >>= ·) (funext fun start =>
    (rounds_eq_compactFrom start behind 4 0 0 rfl Nat.one_pos).symm)

/-- **A number in groups of seven bits is read by its form, and by nothing else.** It is returned with
all bits of its groups, and the reader stands behind it. Where the buffer ends before the form is
decided, that end is reported; otherwise a fifth byte with too many bits is, with the place where the
number began, and five bytes are consumed. Nothing is ever done behind the five rounds of the loop, and
every 32-bit number is read back from some bytes. -/
theorem compact_reads_its_form (r : Reader) :
    (∀ v s, Reader.compact r = (.ok v, s) ↔
      ∃ more last rest, r.rest = more ++ last :: rest ∧ Grouped 4 more last ∧
        v.toUInt32.toNat = Bytes.groups (more ++ [last]) ∧ r.Past (more.length + 1) s) ∧
    (∀ e s, Reader.compact r = (.error e, s) ↔
      r.remaining ≤ 4 ∧ Announcing r.rest ∧ e = .unexpectedEnd r.data.length 1 0 ∧
          r.Past r.remaining s ∨
      ∃ more fifth rest, r.rest = more ++ fifth :: rest ∧ more.length = 4 ∧ Announcing more ∧
        0x0F < fifth ∧ e = .invalidLength r.position fifth.toNat ∧ r.Past 5 s) ∧
    (∀ behind, Reader.compact =
      (do Reader.rounds (← Reader.offset) behind (List.range' 0 5 7) 0)) ∧
    ∀ v, ∃ bytes, ∀ before, Takes before Reader.compact bytes v :=
  ⟨fun v s => compact_eq_ok_iff r s v, fun e s => compact_eq_error_iff r s e, compact_eq_rounds,
    fun v => ⟨_, fun before => takes_compact before v⟩⟩

/-- Three bytes where one would do, and all bits of a negative number. -/
example : (Reader.compact (.ofBytes [0x81, 0x80, 0x00])).1.toOption = some 1 ∧
    (Reader.compact (.ofBytes [0xFF, 0xFF, 0xFF, 0xFF, 0x0F])).1.toOption = some (-1) := by
  decide +kernel

end Decode

end ModelLoading
