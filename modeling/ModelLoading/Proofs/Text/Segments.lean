import ModelLoading.Proofs.Text.Apart
import ModelLoading.Proofs.Text.Occurrences

/-!
# Parts of a text in parentheses

A segment is a text between parentheses with none inside. Segments never overlap, so where a text is put in
the place of another, a segment lies before it or behind it, or reaches over all of it, or is it
(`segment_cases`, `segment_cases_of_segment`). A sweep that puts segments in the place of something makes
no others: a segment was put there, or it was there and nothing was found at its beginning
(`Sweep.segment_cases`).
-/

namespace ModelLoading.Text

/-- A text in parentheses. -/
def parenthesized (m : List Char) : List Char := '(' :: (m ++ [')'])

variable {m k x y n o : List Char}

/-! ## 1. Changes -/

/-- A segment reaches over a text without parentheses, or lies before it or behind it. -/
theorem segment_cases (opening : '(' ∉ k) (closing : ')' ∉ k) (occurs : parenthesized m <:+: x ++ (k ++ y)) :
    parenthesized m <:+: x ∨ parenthesized m <:+: y ∨
      ∃ a b, m = a ++ (k ++ b) ∧ '(' :: a <:+ x ∧ b ++ [')'] <+: y := by
  obtain ⟨l, r, split⟩ := occurs
  have split : l ++ '(' :: (m ++ ')' :: r) = x ++ (k ++ y) := by simpa [parenthesized] using split
  rcases cases_of_append_cons opening split with ⟨j, rfl⟩ | ⟨j, inside⟩
  · have behind : y = j ++ '(' :: (m ++ ')' :: r) := by simpa using split.symm
    exact .inr (.inl ⟨j, r, by rw [behind]; simp [parenthesized]⟩)
  · have before : x = l ++ '(' :: j := by
      rw [inside] at split
      exact List.append_cancel_right (by simpa using split.symm)
    rcases cases_of_append_cons closing inside with ⟨i, rfl⟩ | ⟨i, rfl⟩
    · have behind : y = i ++ ')' :: r := by simpa using inside.symm
      exact .inr (.inr ⟨j, i, rfl, ⟨l, before.symm⟩, ⟨r, by rw [behind]; simp⟩⟩)
    · have early : j = m ++ ')' :: i :=
        List.append_cancel_right (by simpa using inside.symm)
      exact .inl ⟨l, i, by rw [before, early]; simp [parenthesized]⟩

/-- A segment is another one, or lies before it or behind it. -/
theorem segment_cases_of_segment (opening : '(' ∉ m) (closing : ')' ∉ m) (closing' : ')' ∉ k)
    (opening' : '(' ∉ k) (occurs : parenthesized m <:+: x ++ (parenthesized k ++ y)) :
    parenthesized m <:+: x ∨ m = k ∨ parenthesized m <:+: y := by
  obtain ⟨l, r, split⟩ := occurs
  have split : x ++ '(' :: (k ++ ')' :: y) = (l ++ ['(']) ++ (m ++ ')' :: r) := by
    simpa [parenthesized] using split.symm
  rcases cases_of_append_cons opening split with ⟨j, rfl⟩ | ⟨j, inside⟩
  · have behind : j ++ '(' :: (k ++ ')' :: y) = ')' :: r := by simpa using split
    cases j with
    | nil => exact absurd (List.cons.inj behind).1 (by decide)
    | cons c j =>
      obtain ⟨rfl, -⟩ := List.cons.inj behind
      exact .inl ⟨l, j, by simp [parenthesized]⟩
  · have before : l ++ ['('] = (x ++ ['(']) ++ j := by
      rw [inside] at split
      exact List.append_cancel_right (by simpa using split.symm)
    rcases List.eq_nil_or_concat j with rfl | ⟨j, c, rfl⟩
    · exact .inr (.inl (eq_of_append_cons closing' closing (by simpa using inside)).1.symm)
    · obtain ⟨-, same⟩ := List.append_inj' (by simpa using before : l ++ ['('] = (x ++ '(' :: j) ++ [c]) rfl
      obtain rfl : '(' = c := by simpa using same
      have whole : '(' :: m <:+: k ++ ')' :: y := ⟨j, ')' :: r, by rw [inside]; simp⟩
      have closing : ')' ∉ '(' :: m := by simp [closing]
      rcases cases_of_append_cons (w := '(' :: m) closing
          (by simpa using inside : k ++ ')' :: y = j ++ ('(' :: m ++ ')' :: r)) with ⟨i, rfl⟩ | ⟨i, rfl⟩
      · exact absurd (by simp) opening'
      · exact .inr (.inr ⟨i, r, by simp [parenthesized]⟩)

/-- What ends with an opening parenthesis makes no segment in the place of something that also does. -/
theorem safe_of_opening (opening : '(' ∉ m) (opening' : '(' ∉ n) (closing' : ')' ∉ n) (o : List Char) :
    Safe free (parenthesized m) (o ++ ['(']) (n ++ ['(']) := by
  intro x y occurs
  rw [occurs_free] at occurs ⊢
  obtain ⟨l, r, split⟩ := occurs
  have split : (x ++ n) ++ '(' :: y = (l ++ ['(']) ++ (m ++ ')' :: r) := by
    simpa [parenthesized] using split.symm
  rcases cases_of_append_cons opening split with ⟨j, before⟩ | ⟨j, rfl⟩
  · have behind : j ++ '(' :: y = ')' :: r := by
      rw [before] at split
      simpa using split
    cases j with
    | nil => exact absurd (List.cons.inj behind).1 (by decide)
    | cons c j =>
      obtain ⟨rfl, -⟩ := List.cons.inj behind
      have inside : parenthesized m <:+: x ++ (n ++ []) := ⟨l, j, by simp [before, parenthesized]⟩
      rcases segment_cases opening' closing' inside with early | late | ⟨a, b, -, -, late⟩
      · exact early.trans (List.prefix_append ..).isInfix
      · simp [parenthesized] at late
      · simp at late
  · have before : l ++ ['('] = (x ++ n) ++ '(' :: j :=
      List.append_cancel_right (by simpa using split.symm)
    rcases List.eq_nil_or_concat j with rfl | ⟨j, c, rfl⟩
    · exact ⟨x ++ o, r, by simp [parenthesized]⟩
    · obtain ⟨-, same⟩ := List.append_inj'
        (by simpa using before : l ++ ['('] = (x ++ (n ++ '(' :: j)) ++ [c]) rfl
      obtain rfl : '(' = c := by simpa using same
      exact ⟨x ++ (o ++ '(' :: j), r, by simp [parenthesized]⟩

/-! ## 2. Sweeps -/

section Sweeps

variable {swap : Swap} {stay : Stay} {before : Option Char} {s t : List Char} {count : Nat}
  (h : Sweep swap stay before s t count)
  (swaps : ∀ before old new rest, swap before old new rest → ∃ k, new = parenthesized k ∧ '(' ∉ k ∧ ')' ∉ k)

include h swaps

/-- Every segment behind a sweep was put there, or was there where nothing was found. -/
theorem Sweep.segment_cases (opening : '(' ∉ m) (closing : ')' ∉ m) (occurs : parenthesized m <:+: t) :
    (∃ before old rest, swap before old (parenthesized m) rest ∧ old <:+: s) ∨
      (parenthesized m <:+: s ∧ ∃ before rest, stay before (parenthesized m ++ rest)) := by
  have opens : ∀ before old new rest, swap before old new rest → new.head? = some '(' := by
    intro before old new rest put
    obtain ⟨k, rfl, -, -⟩ := swaps _ _ _ _ put
    rfl
  induction h with
  | done => simp [parenthesized] at occurs
  | @keep before c s t n here rest ih =>
    rcases List.infix_cons_iff.mp occurs with first | later
    · obtain ⟨rfl, stands⟩ := List.cons_prefix_cons.mp first
      have there := rest.prefix_of_left opens (m := m ++ [')']) (by simp [opening]) stands
      obtain ⟨r, rfl⟩ := there
      exact .inr ⟨⟨[], r, rfl⟩, before, r, here⟩
    · rcases ih later with ⟨before, old, r, put, inside⟩ | ⟨inside, stays⟩
      · exact .inl ⟨before, old, r, put, List.infix_cons inside⟩
      · exact .inr ⟨List.infix_cons inside, stays⟩
  | @swap before old new s t n here _ rest ih =>
    obtain ⟨k, rfl, opening', closing'⟩ := swaps _ _ _ _ here
    rcases segment_cases_of_segment (x := []) opening closing closing' opening' occurs with
      none | rfl | later
    · simp [parenthesized] at none
    · exact .inl ⟨before, old, s, here, (List.prefix_append ..).isInfix⟩
    · have behind : s <:+: old ++ s := (List.suffix_append ..).isInfix
      rcases ih later with ⟨before, old', r, put, inside⟩ | ⟨inside, stays⟩
      · exact .inl ⟨before, old', r, put, inside.trans behind⟩
      · exact .inr ⟨inside.trans behind, stays⟩

end Sweeps

end ModelLoading.Text
