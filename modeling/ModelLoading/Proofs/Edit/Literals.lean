import Mathlib.Data.List.Infix
import ModelLoading.Edit.Rule
import ModelLoading.Proofs.Text.Cutting

/-!
# Literal changes

What a literal change does is said by places in the text: every occurrence that is replaced is the first one at
or behind the end of the one before, and there is none behind the last (`Text.SplitsAt`). This is the cut that
counting and replacing are read off (`Text.splitsAt_iff_cutAt`), so there is exactly one such split. Numbers that
add up along a text, like its length in characters or in bytes, grow by the same amount with every occurrence
(`Text.measure_replaceAll`).
-/

namespace ModelLoading.Text

variable {what front gap s last : List Char} {gaps : List (List Char)} {start place : Nat}

/-! ## 1. Places -/

/-- The first occurrence of `what` at or behind `start` begins at `place`. -/
structure FirstFrom (what s : List Char) (start place : Nat) : Prop where
  behind : start ≤ place
  here : what <+: s.drop place
  none : ∀ earlier, start ≤ earlier → earlier < place → ¬what <+: s.drop earlier

/-- The place where a gap begins: behind the gaps before it, with an occurrence behind each. -/
def startOf (what : List Char) (gaps : List (List Char)) (k : Nat) : Nat :=
  ((gaps.take k).flatMap (· ++ what)).length

/-- A text is split at the occurrences of another: the gaps with an occurrence behind each, and what is left, are
the text, every occurrence is the first one at or behind the end of the one before, and what is left has none. -/
structure SplitsAt (what s : List Char) (gaps : List (List Char)) (last : List Char) : Prop where
  written : gaps.flatMap (· ++ what) ++ last = s
  first : ∀ (k : Nat) (gap : List Char), gaps[k]? = some gap →
    FirstFrom what s (startOf what gaps k) (startOf what gaps k + gap.length)
  none : ¬what <:+: last

/-- Places count from the beginning, whatever stands in front. -/
theorem firstFrom_append : FirstFrom what (front ++ s) (front.length + start) (front.length + place) ↔
    FirstFrom what s start place := by
  constructor
  · rintro ⟨behind, here, none⟩
    refine ⟨by omega, by rwa [List.drop_length_add_append] at here, fun earlier bound before => ?_⟩
    have absent := none (front.length + earlier) (by omega) (by omega)
    rwa [List.drop_length_add_append] at absent
  · rintro ⟨behind, here, none⟩
    refine ⟨by omega, by rwa [List.drop_length_add_append], fun earlier bound before => ?_⟩
    obtain ⟨k, rfl⟩ : ∃ k, earlier = front.length + k := ⟨earlier - front.length, by omega⟩
    rw [List.drop_length_add_append]
    exact none k (by omega) (by omega)

/-- An occurrence behind a gap is the first one if none begins in the gap. -/
theorem firstFrom_zero (nonempty : what ≠ []) (s : List Char) :
    FirstFrom what (gap ++ (what ++ s)) 0 gap.length ↔ ¬what <:+: gap ++ what.dropLast := by
  have length := List.length_pos_of_ne_nil nonempty
  have begins : gap ++ what.dropLast <+: gap ++ (what ++ s) := begins_with_dropLast what gap s
  constructor
  · rintro first ⟨front, rest, split⟩
    have place : front.length + what.length + rest.length = gap.length + (what.length - 1) := by
      simpa [Nat.add_assoc] using congrArg List.length split
    refine first.none front.length (Nat.zero_le _) (by omega) ?_
    have stands : what <+: (gap ++ what.dropLast).drop front.length := by
      rw [← split, List.append_assoc, List.drop_left]
      exact List.prefix_append ..
    exact stands.trans (begins.drop _)
  · refine fun absent => ⟨Nat.zero_le _, ⟨s, by rw [List.drop_left]⟩, fun earlier _ before stands => absent ?_⟩
    -- an occurrence that begins in the gap ends before the last character of the one behind it
    have inside : what <+: (gap ++ what.dropLast).drop earlier := by
      refine List.prefix_of_prefix_length_le stands (begins.drop earlier) ?_
      simp only [List.length_drop, List.length_append, List.length_dropLast]
      omega
    exact inside.isInfix.trans (List.drop_suffix ..).isInfix

theorem startOf_cons (what gap : List Char) (gaps : List (List Char)) (k : Nat) :
    startOf what (gap :: gaps) (k + 1) = (gap ++ what).length + startOf what gaps k := by
  rw [startOf, List.take_succ_cons, List.flatMap_cons, List.length_append]
  rfl

/-- The first gap of a split ends at the first occurrence, and the others split the text behind it. -/
theorem splitsAt_cons : SplitsAt what (gap ++ (what ++ s)) (gap :: gaps) last ↔
    FirstFrom what (gap ++ (what ++ s)) 0 gap.length ∧ SplitsAt what s gaps last := by
  have zero : startOf what (gap :: gaps) 0 = 0 := rfl
  have later : ∀ k length, FirstFrom what (gap ++ (what ++ s)) (startOf what (gap :: gaps) (k + 1))
      (startOf what (gap :: gaps) (k + 1) + length) ↔
      FirstFrom what s (startOf what gaps k) (startOf what gaps k + length) := by
    intro k length
    rw [startOf_cons, ← List.append_assoc, Nat.add_assoc, firstFrom_append]
  constructor
  · rintro ⟨written, first, none⟩
    refine ⟨by simpa [zero] using first 0 gap rfl, ?_, fun k gap there => ?_, none⟩
    · rw [List.flatMap_cons, List.append_assoc, List.append_assoc] at written
      exact List.append_cancel_left (List.append_cancel_left written)
    · exact (later k gap.length).mp (first (k + 1) gap there)
  · rintro ⟨here, written, first, none⟩
    refine ⟨?_, fun k gap' there => ?_, none⟩
    · rw [List.flatMap_cons, List.append_assoc, List.append_assoc, written]
    · cases k with
      | zero =>
        obtain rfl : gap = gap' := Option.some.inj there
        simpa [zero] using here
      | succ k => exact (later k gap'.length).mpr (first k gap' there)

/-- A text is split at occurrences as it is cut at them. -/
theorem splitsAt_iff_cutAt : SplitsAt what s gaps last ↔ CutAt what s gaps last := by
  induction gaps generalizing s with
  | nil =>
    constructor
    · rintro ⟨rfl, -, none⟩
      exact .rest none
    · intro cut
      obtain ⟨none⟩ := cut
      exact ⟨rfl, fun _ _ there => by simp at there, none⟩
  | cons gap gaps ih =>
    constructor
    · intro split
      have nonempty : what ≠ [] := by
        rintro rfl
        exact split.none List.nil_infix
      obtain rfl : gap ++ (what ++ (gaps.flatMap (· ++ what) ++ last)) = s := by
        simpa using split.written
      obtain ⟨first, later⟩ := splitsAt_cons.mp split
      exact .found ((firstFrom_zero nonempty _).mp first) (ih.mp later)
    · intro cut
      have nonempty := cut.ne_nil
      obtain _ | ⟨first, later⟩ := cut
      exact splitsAt_cons.mpr ⟨(firstFrom_zero nonempty _).mpr first, ih.mpr later⟩

/-! ## 2. Texts that are found everywhere -/

/-- An empty text is replaced before every character and at the end. -/
theorem replaceAll_empty (replacement s : List Char) :
    replaceAll [] replacement s = (s.flatMap fun c => replacement ++ [c]) ++ replacement ∧
      occurrences [] s = s.length + 1 := by
  obtain ⟨text, count⟩ := replaceAll_of_pieces (pieces_empty s) replacement
  refine ⟨text.trans ?_, count.trans (by simp)⟩
  clear text count
  rw [List.append_nil, List.flatMap_cons, List.flatMap_map, List.nil_append]
  induction s with
  | nil => simp
  | cons c s ih =>
    rw [List.flatMap_cons, List.flatMap_cons, List.append_assoc, List.append_assoc, ← ih]
    simp

/-! ## 3. Lengths -/

/-- Replacing alters a number that adds up along a text alike with every occurrence. -/
theorem measure_replaceAll {f : List Char → Int} (append : ∀ a b, f (a ++ b) = f a + f b)
    (what replacement s : List Char) :
    f (replaceAll what replacement s) = f s + occurrences what s * (f replacement - f what) := by
  by_cases nonempty : what = []
  · subst nonempty
    have nothing : f [] = 0 := by simpa using append [] []
    have between : f (s.flatMap fun c => replacement ++ [c]) = f s + s.length * f replacement := by
      induction s with
      | nil => simp [nothing]
      | cons c s ih =>
        have first : f (c :: s) = f [c] + f s := append [c] s
        rw [List.flatMap_cons, append, append, ih, first, List.length_cons]
        push_cast
        ring
    obtain ⟨text, count⟩ := replaceAll_empty replacement s
    rw [text, count, append, between, nothing]
    push_cast
    ring
  · refine (sweep_replaceAll replacement nonempty none s).measure append ?_
    rintro _ _ _ _ ⟨rfl, rfl⟩
    ring

end ModelLoading.Text

namespace ModelLoading.Edit

/-! ## 4. Literal changes -/

/-- **A literal change replaces the occurrences of a text from left to right.** A text is split in exactly one way
at the occurrences of another that is not empty, if each is the first one at or behind the end of the one before
and none is left behind the last. The change puts the replacement in the place of each of them, and counts them.
An empty text is found before every character and at the end. With every occurrence the text grows by what the
replacement is longer, in characters and in bytes. -/
theorem literal_replaces_first_occurrences (what replacement : String) (s : List Char) : ∃ out count,
    (Change.literal what replacement).apply s = (out, count) ∧
    (what ≠ "" → ∃ gaps last, Text.SplitsAt what.toList s gaps last ∧
      (∀ gaps' last', Text.SplitsAt what.toList s gaps' last' → gaps' = gaps ∧ last' = last) ∧
      out = gaps.flatMap (· ++ replacement.toList) ++ last ∧ count = gaps.length) ∧
    (what = "" → out = (s.flatMap fun c => replacement.toList ++ [c]) ++ replacement.toList ∧
      count = s.length + 1) ∧
    (out.length : Int) = s.length + count * (replacement.length - what.length : Int) ∧
    ((String.ofList out).utf8ByteSize : Int) =
      (String.ofList s).utf8ByteSize + count * (replacement.utf8ByteSize - what.utf8ByteSize : Int) := by
  refine ⟨_, _, rfl, fun nonempty => ?_, ?_, ?_, ?_⟩
  · have some : what.toList ≠ [] := fun nil => nonempty (String.toList_eq_nil_iff.mp nil)
    obtain ⟨gaps, last, cut⟩ := Text.exists_cutAt some s
    obtain ⟨text, count⟩ := Text.replaceAll_of_pieces cut.pieces_eq replacement.toList
    refine ⟨gaps, last, Text.splitsAt_iff_cutAt.mpr cut, fun gaps' last' split => ?_, text, count⟩
    have same := (Text.splitsAt_iff_cutAt.mp split).pieces_eq.symm.trans cut.pieces_eq
    obtain ⟨rfl, last_eq⟩ := List.append_inj' same rfl
    exact ⟨rfl, List.singleton_inj.mp last_eq⟩
  · rintro rfl
    exact Text.replaceAll_empty replacement.toList s
  · have measured := Text.measure_replaceAll (f := fun s => (s.length : Int)) (by simp)
      what.toList replacement.toList s
    rwa [String.length_toList, String.length_toList] at measured
  · have measured := Text.measure_replaceAll (f := fun s => ((String.ofList s).utf8ByteSize : Int))
      (fun a b => by rw [String.ofList_append, String.utf8ByteSize_append, Nat.cast_add])
      what.toList replacement.toList s
    rwa [String.ofList_toList, String.ofList_toList] at measured

/-- An occurrence that begins inside another one is passed, and a character of two bytes is one place. -/
theorem literal_replaces_first_occurrences_of_overlap :
    ("aa" ≠ "" ∧ Text.SplitsAt "aa".toList "aaaé".toList [[]] ['a', 'é'] ∧
      ∃ out count, (Change.literal "aa" "ß").apply "aaaé".toList = (out, count) ∧
        out = ['ß', 'a', 'é'] ∧ count = 1 ∧ (String.ofList out).utf8ByteSize = 5) ∧
    ("" = "" ∧ ∃ out count, (Change.literal "" "ß").apply "é".toList = (out, count) ∧
      out = ['ß', 'é', 'ß'] ∧ count = 2) := by
  have nonempty : "aa" ≠ "" := by decide
  have first : ¬"aa".toList <:+: [] ++ "aa".toList.dropLast := by decide
  have split : Text.SplitsAt "aa".toList "aaaé".toList [[]] ['a', 'é'] :=
    Text.splitsAt_iff_cutAt.mpr (.found first (.rest (by decide)))
  refine ⟨⟨nonempty, split, ?_⟩, rfl, ?_⟩
  · obtain ⟨out, count, applied, occurrences, -, -, bytes⟩ :=
      literal_replaces_first_occurrences "aa" "ß" "aaaé".toList
    obtain ⟨gaps, last, -, unique, text, number⟩ := occurrences nonempty
    obtain ⟨rfl, rfl⟩ := unique _ _ split
    refine ⟨out, count, applied, text, number, ?_⟩
    rw [number] at bytes
    have before : (String.ofList "aaaé".toList).utf8ByteSize = 5 := by decide
    have what : "aa".utf8ByteSize = 2 := by decide
    have replacement : "ß".utf8ByteSize = 2 := by decide
    rw [before, what, replacement] at bytes
    exact Int.ofNat_inj.mp bytes
  · obtain ⟨out, count, applied, -, empty, -⟩ := literal_replaces_first_occurrences "" "ß" "é".toList
    obtain ⟨text, number⟩ := empty rfl
    exact ⟨out, count, applied, text, number⟩

end ModelLoading.Edit
