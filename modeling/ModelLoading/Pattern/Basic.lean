import ModelLoading.Pattern.CharClass

/-!
# Patterns

A pattern describes pieces of text. Where it leaves a choice, the first alternative is preferred,
and a repetition says whether it prefers another round (greedy) or its end (lazy).
-/

namespace ModelLoading.Pattern

/-- A condition on a place in a text. -/
inductive Assertion where
  /-- The beginning of the text. -/
  | atStart
  /-- The end of the text. -/
  | atEnd
  /-- Between a word character and anything else. -/
  | wordBoundary
  /-- Anywhere but at a word boundary. -/
  | noWordBoundary
  /-- Where a word begins. -/
  | wordStart
  /-- Where a word ends. -/
  | wordEnd
  /-- Not after a word character. -/
  | wordStartHalf
  /-- Not before a word character. -/
  | wordEndHalf
  deriving DecidableEq, Repr

/-- A description of pieces of text. -/
inductive Expr where
  /-- Nothing. -/
  | empty
  /-- One character of a class. -/
  | one (cls : CharClass)
  /-- Nothing, at a place where the condition holds. -/
  | assert (condition : Assertion)
  /-- One after the other. -/
  | seq (p q : Expr)
  /-- The first, or else the second. -/
  | alt (p q : Expr)
  /-- At least `min` rounds, and at most `max` if there is a limit. -/
  | repeated (min : Nat) (max : Option Nat) (greedy : Bool) (p : Expr)
  /-- A group, whose text is kept under its number. -/
  | group (number : Nat) (p : Expr)
  deriving DecidableEq, Repr

namespace Expr

/-- Whether a pattern can match nothing. -/
def nullable : Expr → Bool
  | empty => true
  | one _ => false
  | assert _ => true
  | seq p q => p.nullable && q.nullable
  | alt p q => p.nullable || q.nullable
  | repeated min _ _ p => min == 0 || p.nullable
  | group _ p => p.nullable

/-- Whether a pattern can match nothing else. -/
def onlyEmpty : Expr → Bool
  | empty => true
  | one _ => false
  | assert _ => true
  | seq p q => p.onlyEmpty && q.onlyEmpty
  | alt p q => p.onlyEmpty && q.onlyEmpty
  | repeated _ max _ p => max == some 0 || p.onlyEmpty
  | group _ p => p.onlyEmpty

/-- The number of patterns that a pattern is built of, itself among them. -/
def size : Expr → Nat
  | empty | one _ | assert _ => 1
  | seq p q | alt p q => p.size + q.size + 1
  | repeated _ _ _ p | group _ p => p.size + 1

/-- One given character. -/
def char (c : Char) : Expr := one (.single c)

/-- Patterns one after another. -/
def sequence : List Expr → Expr
  | [] => empty
  | [p] => p
  | p :: rest => seq p (sequence rest)

/-- The first of several alternatives that matches. -/
def firstOf : List Expr → Expr
  | [] => empty
  | [p] => p
  | p :: rest => alt p (firstOf rest)

/-- The bounds of a repetition that count: a pattern that can match nothing else needs no second
round. -/
def bounds (p : Expr) (min : Nat) (max : Option Nat) : Nat × Option Nat :=
  if p.onlyEmpty then (Nat.min min 1, some (Nat.min (max.getD 1) 1)) else (min, max)

/-- A repetition. No round at all and a single one need none, and any number of rounds of a pattern
that can match nothing is at least one round or nothing: which of its rounds matched nothing is then
decided at the end of a round, never before the first. -/
def times (p : Expr) (min : Nat) (max : Option Nat) (greedy : Bool) : Expr :=
  match p.bounds min max with
  | (0, some 0) => empty
  | (1, some 1) => p
  | (0, none) =>
    if p.nullable then repeated 0 (some 1) greedy (repeated 1 none greedy p)
    else repeated 0 none greedy p
  | (min, max) => repeated min max greedy p

end Expr

end ModelLoading.Pattern
