import ModelLoading.Proofs.Pattern.Enclosing
import ModelLoading.Proofs.Text.Apart

/-!
# Patterns of words

A pattern of a text between word boundaries finds the text where it is a whole word, and a pattern of a
text behind a word boundary finds it where it does not continue a word.
-/

namespace ModelLoading.Pattern

open Text (Begins Bounds fromWord wholeWord inWord)

theorem isWordAt_eq (c : Option Char) : Cursor.isWordAt c = inWord c := by cases c <;> rfl

/-- A text between word boundaries, as far as there are any. -/
def Expr.word (b : Bounds) (w : List Char) : Expr :=
  .sequence ((if b.left then [.assert .wordBoundary] else []) ++
    (w.map .char ++ if b.right then [.assert .wordBoundary] else []))

/-- A word boundary, if there is one, and then a pattern. -/
theorem ways_boundary (bounded : Bool) (rest : List Expr) (s : Spot) :
    (Expr.sequence ((if bounded then [.assert .wordBoundary] else []) ++ rest)).ways s =
      if !bounded || s.place.satisfies .wordBoundary then (Expr.sequence rest).ways s else [] := by
  cases bounded with
  | false => rfl
  | true =>
    rw [if_pos rfl, List.singleton_append, ways_sequence_cons, Expr.ways]
    cases s.place.satisfies .wordBoundary <;> simp

theorem ways_word (b : Bounds) (w : List Char) (s : Spot) : (Expr.word b w).ways s =
    if (!b.left || s.place.satisfies .wordBoundary) ∧ w <+: s.place.rest ∧
      (!b.right || (s.after w).place.satisfies .wordBoundary) then [s.after w] else [] := by
  have back := ways_boundary b.right [] (s.after w)
  rw [List.append_nil] at back
  rw [Expr.word, ways_boundary, ways_sequence_append, ways_chars]
  by_cases here : w <+: s.place.rest
  · simp only [here, if_true, List.flatMap_cons, List.flatMap_nil, List.append_nil, back, true_and]
    split
    · rename_i left
      simp only [left, true_and]
      rfl
    · rename_i left
      exact (if_neg fun h => left h.1).symm
  · simp [here]

/-- A text that begins and ends with a word character where it has a boundary. -/
structure Bounded (b : Bounds) (w : List Char) : Prop where
  left : b.left → inWord w.head? = true
  right : b.right → inWord w.getLast? = true

section Words

variable {b : Bounds} {w : List Char} {before : Option Char} {s : List Char}

/-- A text between boundaries is found where it stands without touching a word. -/
theorem first?_word (bounded : Bounded b w) : (Begins b w before s ∧
      (Expr.word b w).first? (.behind before s) = some { place := (Cursor.behind before s).after w }) ∨
    (¬Begins b w before s ∧ (Expr.word b w).first? (.behind before s) = none) := by
  rw [Expr.first?, ways_word]
  by_cases here : w <+: s
  · obtain ⟨r, rfl⟩ := here
    have front : (!b.left || (Cursor.behind before (w ++ r)).satisfies .wordBoundary) = true ↔
        (b.left → inWord before = false) := by
      cases isLeft : b.left with
      | false => simp
      | true =>
        have word := bounded.left isLeft
        cases head : w.head? with
        | none => simp [head, inWord] at word
        | some c =>
          rw [head] at word
          simp [Cursor.satisfies, isWordAt_eq, List.head?_append, head, word]
    have back : (!b.right || ((Cursor.behind before (w ++ r)).after w).satisfies .wordBoundary) = true ↔
        (b.right → inWord r.head? = false) := by
      cases isRight : b.right with
      | false => simp
      | true =>
        have word := bounded.right isRight
        cases last : w.getLast? with
        | none => simp [last, inWord] at word
        | some c =>
          rw [last] at word
          simp [Cursor.satisfies, Cursor.after, isWordAt_eq, last, word]
    have begins : Begins b w before (w ++ r) ↔
        (b.left → inWord before = false) ∧ (b.right → inWord r.head? = false) := by
      constructor
      · rintro ⟨r', same, left, right⟩
        rw [List.append_cancel_left same]
        exact ⟨left, right⟩
      · rintro ⟨left, right⟩
        exact ⟨r, rfl, left, right⟩
    rw [begins, ← front, ← back]
    simp only [Cursor.rest_behind, List.prefix_append, true_and, Spot.after]
    by_cases both : (!b.left || (Cursor.behind before (w ++ r)).satisfies .wordBoundary) = true ∧
        (!b.right || ((Cursor.behind before (w ++ r)).after w).satisfies .wordBoundary) = true
    · exact .inl ⟨both, by rw [if_pos both]; rfl⟩
    · exact .inr ⟨both, by rw [if_neg both]; rfl⟩
  · have absent : ¬Begins b w before s := by
      rintro ⟨r, split, -⟩
      exact here ⟨r, split.symm⟩
    exact .inr ⟨absent, by simp [here]⟩

variable {r : Regex} (body : r.body = .word b w) (bounded : Bounded b w)

include body bounded

theorem Regex.not_begins_of_stay (h : r.stay before s) : ¬Begins b w before s := by
  rw [Regex.stay, body] at h
  rcases first?_word bounded with ⟨-, here⟩ | ⟨absent, -⟩
  · cases h.symm.trans here
  · exact absent

/-- What is found is the text, where it does not touch a word. The template has no references. -/
theorem Regex.swap_word {template replacement : List Char}
    (expands : ∀ value, Template.expand value template = replacement) {old new rest : List Char}
    (h : r.swap template before old new rest) :
    old = w ∧ new = replacement ∧ Begins b w before (old ++ rest) := by
  obtain ⟨way, here, ends, rfl⟩ := h
  rw [body] at here
  rcases first?_word bounded with ⟨begins, found⟩ | ⟨-, nothing⟩
  · cases here.symm.trans found
    obtain ⟨r', split, -⟩ := id begins
    refine ⟨?_, expands _, begins⟩
    have same : r' = rest := by
      rw [← ends, split]
      simp [Cursor.after]
    rw [same] at split
    exact List.append_cancel_right split
  · cases here.symm.trans nothing

end Words

end ModelLoading.Pattern
