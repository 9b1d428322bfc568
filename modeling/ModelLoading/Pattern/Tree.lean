import ModelLoading.Pattern.Token

/-!
# The structure of written patterns

A written pattern is a tree: items stand one after another, alternatives side by side, and groups and
repetitions enclose what they are about. `Tree.ofTokens` folds the tokens of a pattern over a stack of
open groups, `Tree.expr` is the pattern that a tree describes, and `Tree.depth` says how deep it goes.
-/

namespace ModelLoading.Pattern

/-- The structure of a written pattern. -/
inductive Tree where
  /-- One character of a class, whose brackets stand `depth` deep. -/
  | one (cls : CharClass) (depth : Nat)
  | assert (condition : Assertion)
  /-- A group; if it has a number, its text is kept under it. -/
  | group (number : Option Nat) (body : Tree)
  | repeated (min : Nat) (max : Option Nat) (greedy : Bool) (body : Tree)
  /-- No item, or several. -/
  | seq (items : List Tree)
  /-- Several alternatives. -/
  | alt (branches : List Tree)

namespace Tree

/-- Items one after another. -/
def ofItems : List Tree → Tree
  | [t] => t
  | items => seq items

/-- Alternatives side by side. -/
def ofBranches : List Tree → Tree
  | [t] => t
  | branches => alt branches

mutual

/-- How deep the structure goes: characters and conditions have no depth, and whatever encloses
something is one deeper. -/
def depth : Tree → Nat
  | one _ depth => depth
  | assert _ => 0
  | group _ body => body.depth + 1
  | repeated _ _ _ body => body.depth + 1
  | seq items => if items.isEmpty then 0 else depthOfAll items + 1
  | alt branches => depthOfAll branches + 1

/-- The greatest depth of several trees. -/
def depthOfAll : List Tree → Nat
  | [] => 0
  | t :: rest => max t.depth (depthOfAll rest)

end

mutual

/-- The pattern that a tree describes. -/
def expr : Tree → Expr
  | one cls _ => .one cls
  | assert condition => .assert condition
  | group none body => body.expr
  | group (some n) body => .group n body.expr
  | repeated min max greedy body => body.expr.times min max greedy
  | seq items => .sequence (exprs items)
  | alt branches => .firstOf (exprs branches)

/-- The patterns that several trees describe. -/
def exprs : List Tree → List Expr
  | [] => []
  | t :: rest => t.expr :: exprs rest

end

end Tree

/-- A group that is being read. -/
structure OpenGroup where
  /-- The number under which the text of the group is kept. -/
  number : Option Nat := none
  /-- The alternatives before the current one, last first. -/
  branches : List Tree := []
  /-- The items of the current alternative, last first. -/
  items : List Tree := []

namespace OpenGroup

/-- Adds an item to the current alternative. -/
def add (g : OpenGroup) (t : Tree) : OpenGroup := { g with items := t :: g.items }

/-- Ends the current alternative. -/
def bar (g : OpenGroup) : OpenGroup :=
  { g with branches := Tree.ofItems g.items.reverse :: g.branches, items := [] }

/-- What a group that is complete encloses. -/
def body (g : OpenGroup) : Tree := Tree.ofBranches g.bar.branches.reverse

end OpenGroup

/-- What is known while the tokens of a pattern are read. -/
structure ParseState where
  /-- The innermost open group. -/
  current : OpenGroup := {}
  /-- The groups around it, innermost first. -/
  outer : List OpenGroup := []
  /-- The number of the next group whose text is kept. -/
  nextNumber : Nat := 1
  /-- The names of groups with their numbers. -/
  names : List (String × Nat) := []

namespace ParseState

/-- Opens a group. -/
def open_ (s : ParseState) : GroupKind → Except SyntaxError ParseState
  | .plain => .ok { s with current := {}, outer := s.current :: s.outer }
  | .numbered => .ok
      { s with
        current := { number := some s.nextNumber }
        outer := s.current :: s.outer
        nextNumber := s.nextNumber + 1 }
  | .named name =>
    if (s.names.lookup name).isSome then .error (.repeatedGroupName name)
    else .ok
      { current := { number := some s.nextNumber }
        outer := s.current :: s.outer
        nextNumber := s.nextNumber + 1
        names := s.names ++ [(name, s.nextNumber)] }

/-- Takes one token. -/
def take (s : ParseState) : Token → Except SyntaxError ParseState
  | .one cls depth => .ok { s with current := s.current.add (.one cls depth) }
  | .assert condition => .ok { s with current := s.current.add (.assert condition) }
  | .opening kind => s.open_ kind
  | .closing =>
    match s.outer with
    | [] => .error .unopenedGroup
    | g :: outer =>
      .ok { s with current := g.add (.group s.current.number s.current.body), outer }
  | .bar => .ok { s with current := s.current.bar }
  | .repetition min max greedy =>
    match s.current.items with
    | [] => .error .danglingRepetition
    | t :: items =>
      .ok { s with current := { s.current with items := .repeated min max greedy t :: items } }

/-- The structure, when no group is left open. -/
def finish (s : ParseState) : Except SyntaxError Tree :=
  match s.outer with
  | [] => .ok s.current.body
  | _ :: _ => .error .unclosedGroup

end ParseState

/-- The structure of a pattern of the given tokens, and the names of its groups with their numbers. -/
def Tree.ofTokens (tokens : List Token) : Except SyntaxError (Tree × List (String × Nat)) := do
  let state ← tokens.foldlM ParseState.take {}
  return (← state.finish, state.names)

end ModelLoading.Pattern
