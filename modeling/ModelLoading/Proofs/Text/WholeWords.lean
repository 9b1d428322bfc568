import ModelLoading.Proofs.Text.Placed

/-!
# Replacing whole words

A sweep that replaces the whole words that are a given one goes through a text part by part: a character
that no word goes on with, and that the word lacks, stays where it is, and what stands before it and behind
it is changed as if it stood alone (`Sweep.cut`). So of a text of words with such a character between them
each word is changed alone (`Sweep.intercalate_words`).
-/

namespace ModelLoading.Text

variable {old new s t a b : List Char} {c z : Char} {before : Option Char} {count : Nat}

/-- What replacing whole words puts in the place of what. -/
def wordSwap (old new : List Char) : Swap :=
  fun before o n rest => o = old ∧ n = new ∧ Begins wholeWord old before (old ++ rest)

/-- Where a whole word does not stand. -/
def wordStay (old : List Char) : Stay := fun before s => ¬Begins wholeWord old before s

/-- A word stands as a whole in front of a character that no word goes on with if it does so at the end. -/
theorem Begins.append_cons (ends : isWord c = false) (h : Begins wholeWord old before a) (b : List Char) :
    Begins wholeWord old before (a ++ c :: b) := by
  obtain ⟨r, rfl, left, right⟩ := h
  refine ⟨r ++ c :: b, by simp, left, fun isRight => ?_⟩
  cases r with
  | nil => simpa [inWord] using ends
  | cons d r => exact right isRight

/-- A word that stands in front of a character that it lacks ends before it. -/
theorem Begins.of_append_cons (lacks : c ∉ old) {rest : List Char} (split : a ++ c :: b = old ++ rest)
    (h : Begins wholeWord old before (old ++ rest)) :
    ∃ k, a = old ++ k ∧ rest = k ++ c :: b ∧ Begins wholeWord old before (old ++ k) := by
  obtain ⟨r, same, left, right⟩ := h
  obtain rfl := List.append_cancel_left same
  obtain ⟨k, rfl⟩ | ⟨k, rfl⟩ := cases_of_append_cons (m := []) lacks (by simpa using split)
  · obtain rfl : rest = k ++ c :: b := by simpa using split.symm
    refine ⟨k, rfl, rfl, k, rfl, left, fun isRight => ?_⟩
    cases k with
    | nil => rfl
    | cons d k => exact right isRight
  · have lengths := congrArg List.length split
    simp only [List.length_append, List.length_cons] at lengths
    omega

namespace Sweep

/-- A sweep that replaces whole words is cut at a character that no word goes on with. -/
theorem cut (ends : isWord c = false) (lacks : c ∉ old)
    (h : Sweep (wordSwap old new) (wordStay old) before (a ++ c :: b) t count) : ∃ a' b' m n,
    t = a' ++ c :: b' ∧ Sweep (wordSwap old new) (wordStay old) before a a' m ∧
      Sweep (wordSwap old new) (wordStay old) (some c) b b' n := by
  generalize whole : a ++ c :: b = s at h
  induction h generalizing a with
  | done => simp at whole
  | @keep before d s t count here rest ih =>
    cases a with
    | nil =>
      obtain ⟨rfl, rfl⟩ := List.cons.inj whole
      exact ⟨[], t, 0, count, rfl, .done, rest⟩
    | cons e a =>
      obtain ⟨rfl, rfl⟩ := List.cons.inj whole
      obtain ⟨a', b', m, n, rfl, first, second⟩ := ih rfl
      refine ⟨e :: a', b', m, n, rfl, .keep (fun begins => here ?_) first, second⟩
      exact begins.append_cons ends b
  | @swap before o n s t count here some rest ih =>
    obtain ⟨rfl, rfl, begins⟩ := here
    obtain ⟨k, rfl, rfl, inside⟩ := begins.of_append_cons lacks whole
    obtain ⟨a', b', m, n', rfl, first, second⟩ := ih rfl
    exact ⟨n ++ a', b', m + 1, n', by simp, .swap ⟨rfl, rfl, inside⟩ some first, second⟩

/-- Nothing is replaced where the word does not stand. -/
theorem eq_of_not_occurs (absent : ¬Occurs wholeWord old s)
    (h : Sweep (wordSwap old new) (wordStay old) before s t count) : t = s := by
  refine (h.eq_of_nowhere ?_).1
  rintro l _ _ rest rfl ⟨rfl, rfl, r, split, left, right⟩
  refine absent ⟨l, _, rfl, r, split, fun isLeft => ?_, right⟩
  cases last : l.getLast? with
  | none => rfl
  | some d => simpa [last] using left isLeft

/-- One word is replaced if it is the word, and only then. -/
theorem eq_of_word (some : old ≠ []) (bound : inWord before = false) (word : ∀ c ∈ s, isWord c = true)
    (h : Sweep (wordSwap old new) (wordStay old) before s t count) : t = if s = old then new else s := by
  by_cases same : s = old
  · rw [if_pos same]
    cases h with
    | done => exact absurd same.symm some
    | keep here => exact absurd ⟨[], by simp [same], fun _ => bound, fun _ => rfl⟩ here
    | swap here _ behind =>
      obtain ⟨rfl, rfl, -⟩ := here
      obtain rfl := List.append_right_eq_self.mp same
      rw [behind.eq_nil.1, List.append_nil]
  · rw [if_neg same]
    exact h.eq_of_not_occurs fun occurs => same ((occurs_wholeWord_iff word).mp occurs).symm

/-- Each of several words is replaced alone, with a character between them that no word goes on with. -/
theorem intercalate_words (some : old ≠ []) (ends : isWord z = false) (lacks : z ∉ old)
    {parts : List (List Char)} (bound : inWord before = false) (words : ∀ part ∈ parts, ∀ c ∈ part, isWord c = true)
    (h : Sweep (wordSwap old new) (wordStay old) before ([z].intercalate parts) t count) :
    t = [z].intercalate (parts.map fun part => if part = old then new else part) := by
  induction parts generalizing before t count with
  | nil => exact h.eq_nil.1
  | cons first others ih =>
    obtain ⟨word, words⟩ := List.forall_mem_cons.mp words
    cases others with
    | nil =>
      rw [List.intercalate_singleton] at h
      simpa using h.eq_of_word some bound word
    | cons second others =>
      rw [List.intercalate_cons_cons, List.append_assoc] at h
      obtain ⟨a', b', m, n, rfl, one, rest⟩ := h.cut ends lacks
      rw [one.eq_of_word some bound word, ih (by simpa [inWord] using ends) words rest]
      simp [List.intercalate_cons_cons]

end Sweep

end ModelLoading.Text
