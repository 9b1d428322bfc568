import ModelLoading.Proofs.Text.Apart
import ModelLoading.Proofs.Text.Occurrences

/-!
# Texts that are put in place

A sweep that replaces a text puts the other one in the place of each occurrence, unless it is overlapped by
an occurrence further in front. So behind a context that no occurrence can end in, every occurrence is
replaced (`Sweep.infix_replaced`). An occurrence that may not touch a word does not reach over a character
that it lacks (`Occurs.cases`), and stays one between characters that no word goes on with (`Occurs.between`).
-/

namespace ModelLoading.Text

variable {b : Bounds} {w x y s t a old new : List Char} {z : Char} {before : Option Char} {count : Nat}

/-! ## 1. Occurrences that touch no word -/

/-- An occurrence does not reach over a character that it lacks. -/
theorem Occurs.cases (lacks : z ∉ w) (h : Occurs b w (x ++ z :: y)) : Occurs b w x ∨ Occurs b w y := by
  obtain ⟨l, -, split, r, rfl, left, right⟩ := h
  rcases cases_of_append_cons lacks split with ⟨k, rfl⟩ | ⟨k, rfl⟩
  · obtain rfl : k ++ z :: y = r := by simpa using split
    refine .inl ⟨l, w ++ k, rfl, k, rfl, left, fun isRight => ?_⟩
    cases k with
    | nil => rfl
    | cons c k => exact right isRight
  · have whole : (x ++ z :: k) ++ (w ++ r) = l ++ (w ++ r) := by simpa using split
    have before : x ++ z :: k = l := List.append_cancel_right whole
    refine .inr ⟨k, w ++ r, rfl, r, rfl, fun isLeft => ?_, right⟩
    have bound := left isLeft
    rw [← before, List.getLast?_append, List.getLast?_cons] at bound
    cases last : k.getLast? with
    | none => rfl
    | some c => simpa [last] using bound

/-- An occurrence stays one between characters that no word goes on with. -/
theorem Occurs.between (h : Occurs b w s) (left : inWord x.getLast? = false)
    (right : inWord y.head? = false) : Occurs b w (x ++ (s ++ y)) := by
  obtain ⟨l, -, rfl, r, rfl, left', right'⟩ := h
  refine ⟨x ++ l, w ++ (r ++ y), by simp, r ++ y, rfl, fun isLeft => ?_, fun isRight => ?_⟩
  · have bound := left' isLeft
    rw [List.getLast?_append]
    cases last : l.getLast? with
    | none => exact left
    | some c => simpa [last] using bound
  · have bound := right' isRight
    cases r with
    | nil => exact right
    | cons c r => exact bound

/-- An occurrence in a text between characters that no word goes on with and that it lacks is one inside, if
there is none around it. -/
theorem Occurs.inside {c d : Char} (first : c ∉ w) (last : d ∉ w) (before : ¬Occurs b w x)
    (behind : ¬Occurs b w y) (h : Occurs b w (x ++ c :: (s ++ d :: y))) : Occurs b w s :=
  ((h.cases first).resolve_left before).cases last |>.resolve_right behind

/-- What occurs in a text of several, with a character between them that no word goes on with, occurs in one
of them. -/
theorem occurs_intercalate (some : w ≠ []) (lacks : z ∉ w) (ends : isWord z = false) (parts : List (List Char)) :
    Occurs b w ([z].intercalate parts) ↔ ∃ part ∈ parts, Occurs b w part := by
  have empty : ¬Occurs b w [] := fun occurs => some (List.infix_nil.mp occurs.infix)
  induction parts with
  | nil => simpa using empty
  | cons first others ih =>
    cases others with
    | nil => simp
    | cons second others =>
      rw [List.intercalate_cons_cons, List.exists_mem_cons_iff, List.append_assoc]
      constructor
      · exact fun occurs => (occurs.cases lacks).imp_right ih.mp
      · rintro (here | later)
        · exact here.between (x := []) rfl (by simpa [inWord] using ends)
        · have behind := (ih.mpr later).between (x := first ++ [z]) (y := []) (by simpa [inWord] using ends) rfl
          simpa using behind

/-- In a word, only the word itself stands as a whole word. -/
theorem occurs_wholeWord_iff (word : ∀ c ∈ s, isWord c = true) : Occurs wholeWord w s ↔ w = s := by
  constructor
  · rintro ⟨l, -, rfl, r, rfl, left, right⟩
    have before : l = [] := by
      by_contra some
      obtain ⟨c, last⟩ := Option.ne_none_iff_exists'.mp (mt List.getLast?_eq_none_iff.mp some)
      have bound := left rfl
      rw [last] at bound
      exact absurd (word c (List.mem_append_left _ (List.mem_of_getLast? last))) (by simpa [inWord] using bound)
    have behind : r = [] := by
      cases r with
      | nil => rfl
      | cons c r => exact absurd (word c (by simp)) (by simpa [inWord] using right rfl)
    simp [before, behind]
  · rintro rfl
    exact ⟨[], w, rfl, [], by simp, fun _ => rfl, fun _ => rfl⟩

/-- Where a text is put in front of the whole words that are another one, an occurrence of a third text that
ends differently and does not have the word stays. -/
theorem Occurs.of_inserted (last : w.getLast? = some z) (lacks : z ∉ old) (absent : ¬Occurs b old w)
    (begins : Begins b old x.getLast? (old ++ y)) (occurs : w <:+: x ++ (old ++ y)) (new : List Char) :
    w <:+: x ++ ((new ++ old) ++ y) := by
  obtain ⟨r, split, left, right⟩ := begins
  obtain rfl := List.append_cancel_left split
  have behind : old ++ y <:+: x ++ ((new ++ old) ++ y) := ⟨x ++ new, [], by simp⟩
  rcases List.infix_append_iff.mp occurs with first | second | ⟨u, v, rfl, ⟨l, rfl⟩, within⟩
  · exact first.trans (List.prefix_append ..).isInfix
  · exact second.trans behind
  · cases v with
    | nil =>
      rw [List.append_nil]
      exact (List.suffix_append l u).isInfix.trans (List.prefix_append ..).isInfix
    | cons c v =>
      have ends : (c :: v).getLast? = some z := by
        rwa [List.getLast?_append, List.getLast?_cons, Option.some_or, ← List.getLast?_cons] at last
      obtain ⟨k, whole⟩ := within
      rcases List.append_eq_append_iff.mp whole with ⟨m, inside, -⟩ | ⟨m, all, rfl⟩
      · exact absurd (inside ▸ List.mem_append_left m (List.mem_of_getLast? ends)) lacks
      · rw [all] at absent
        refine absurd ⟨u, old ++ m, rfl, m, rfl, fun isLeft => ?_, fun isRight => ?_⟩ absent
        · have bound := left isLeft
          rw [List.getLast?_append] at bound
          cases last : u.getLast? with
          | none => rfl
          | some d => simpa [last] using bound
        · have bound := right isRight
          cases m with
          | nil => rfl
          | cons d m => exact bound

/-! ## 2. Replacing behind a context -/

/-- No occurrence of a text ends in a context, and none overlaps another one that stands right behind the
context. -/
structure Detached (a old : List Char) : Prop where
  ends : ∃ z, old.getLast? = some z ∧ z ∉ a
  overlaps : ∀ m k, old = m ++ k → m ≠ [] → k ≠ [] → a <:+ m ∨ m <:+ a → ¬Agree old k

/-- A text that is never overlapped by itself needs no context. -/
theorem Detached.of_alone (h : alone old = true) (some : old ≠ []) : Detached [] old where
  ends :=
    have ⟨z, last⟩ := Option.ne_none_iff_exists'.mp (mt List.getLast?_eq_none_iff.mp some)
    ⟨z, last, List.not_mem_nil⟩
  overlaps := fun _ _ split front behind _ => not_agree_of_alone h split front behind

/-- A context is detached if it ends in a way that no beginning of the text does. -/
theorem Detached.of_not_suffix (ends : ∃ z, old.getLast? = some z ∧ z ∉ a)
    (apart : ∀ m, m <+: old → m ≠ [] → ¬a <:+ m ∧ ¬m <:+ a) : Detached a old where
  ends := ends
  overlaps := fun m k split front _ touch =>
    have ⟨first, second⟩ := apart m ⟨k, split.symm⟩ front
    absurd touch (not_or.mpr ⟨first, second⟩)

/-- A text is replaced behind a context that it is detached from. Here `k` was kept since the last change. -/
theorem Sweep.infix_replaced (detached : Detached a old)
    (h : Sweep (literalSwap old new) (literalStay old) before s t count) {k : List Char} {c : Option Char}
    (kept : Kept (literalStay old) c k s) (occurs : a ++ old <:+: k ++ s) : a ++ new <:+: k ++ t := by
  obtain ⟨⟨z, last, lacks⟩, apart⟩ := detached
  induction h generalizing k c with
  | done =>
    obtain ⟨l, r, split⟩ := occurs
    have some : old ++ r ≠ [] := fun empty => by simp [(List.append_eq_nil_iff.mp empty).1] at last
    exact absurd ⟨r, by simp⟩ (kept (l ++ a) (old ++ r) (by simpa using split.symm) some)
  | @keep before d s t count here rest ih =>
    have goesOn := ih (k := k ++ [d]) (c := c) (kept.snoc here) (by simpa using occurs)
    simpa using goesOn
  | @swap before old' new' s t count here some rest ih =>
    obtain ⟨rfl, rfl⟩ : old = old' ∧ new = new' := ⟨here.1.symm, here.2.symm⟩
    have done : ∀ l, k = l ++ a → a ++ new <:+: k ++ (new ++ t) := by
      rintro l rfl
      exact ⟨l, t, by simp⟩
    obtain ⟨l, r, split⟩ := occurs
    have split : (l ++ a) ++ (old ++ r) = k ++ (old ++ s) := by simpa using split
    rcases List.append_eq_append_iff.mp split with ⟨m, before, behind⟩ | ⟨m, before, behind⟩
    · by_cases empty : m = []
      · exact done l (by simpa [empty] using before)
      · -- it would have been found further in front
        exact absurd ⟨r, behind⟩ (kept (l ++ a) m before empty)
    · by_cases empty : m = []
      · exact done l (by simpa [empty] using before.symm)
      · have follow : ∀ j, m = old ++ j → s = j ++ (old ++ r) → a ++ new <:+: k ++ (new ++ t) := by
          rintro j rfl rfl
          obtain ⟨i, -, rfl⟩ := exists_of_lacks last lacks before
          have later := ih (k := []) (c := none) .nil ⟨i, r, by simp⟩
          exact later.trans ⟨k ++ new, [], by simp⟩
        rcases List.append_eq_append_iff.mp behind with ⟨j, split, rest⟩ | ⟨j, split, rest⟩
        · exact follow j split rest
        · by_cases none : j = []
          · subst none
            exact follow [] (by simpa using split.symm) (by simpa using rest.symm)
          · refine absurd (agree_of_append_eq rest) (apart m j split empty none ?_)
            rcases List.append_eq_append_iff.mp before with ⟨i, -, ends⟩ | ⟨i, -, ends⟩
            · exact .inr ⟨i, ends.symm⟩
            · exact .inl ⟨i, ends.symm⟩

end ModelLoading.Text
