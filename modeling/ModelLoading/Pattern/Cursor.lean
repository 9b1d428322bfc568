import ModelLoading.Pattern.Basic

/-!
# Places in a text

A `Cursor` is a place in a text: what comes before it, as far as a condition can ask, and the text
after it. `Cursor.next?` goes one character on and `Cursor.satisfies` decides a condition.
-/

namespace ModelLoading.Pattern

/-- A place in a text. -/
structure Cursor where
  /-- The character before the place. -/
  before : Option Char := none
  /-- The text after the place. -/
  rest : List Char
  /-- The number of characters after the place. -/
  left : Nat := rest.length
  left_eq : left = rest.length := by rfl

namespace Cursor

/-- The beginning of a text. -/
def atStart (s : List Char) : Cursor := { rest := s }

/-- The next character and the place after it. -/
def next? (c : Cursor) : Option (Char × Cursor) :=
  match h : c.rest with
  | [] => none
  | x :: rest =>
    some (x, { before := some x, rest, left := c.left - 1, left_eq := by simp [c.left_eq, h] })

theorem left_lt_of_next? {c next : Cursor} {x : Char} (h : c.next? = some (x, next)) :
    next.left < c.left := by
  unfold next? at h
  split at h
  · simp at h
  · rename_i y rest hrest
    have hleft : c.left = rest.length + 1 := by simp [c.left_eq, hrest]
    simp only [Option.some.injEq, Prod.mk.injEq] at h
    rw [← h.2]
    simp only
    omega

/-- The text from one place to a later one. -/
def textTo (start stop : Cursor) : List Char := start.rest.take (start.left - stop.left)

/-- Whether a character is there and can be part of a word. -/
def isWordAt : Option Char → Bool
  | some c => Text.isWord c
  | none => false

/-- Whether a condition holds at a place. -/
def satisfies (c : Cursor) (condition : Assertion) : Bool :=
  let before := isWordAt c.before
  let after := isWordAt c.rest.head?
  match condition with
  | .atStart => c.before.isNone
  | .atEnd => c.rest.isEmpty
  | .wordBoundary => before != after
  | .noWordBoundary => before == after
  | .wordStart => !before && after
  | .wordEnd => before && !after
  | .wordStartHalf => !before
  | .wordEndHalf => !after

end Cursor

end ModelLoading.Pattern
