import ModelLoading.Pattern.Size

/-!
# Patterns from their written form

`Regex.parse` reads a written pattern. The result keeps the written form, the pattern, and the
numbers of the named groups. A pattern is refused when its parts stand too deep inside one another
or when it takes too much room.
-/

namespace ModelLoading.Pattern

/-- A written pattern that was understood. -/
structure Regex where
  /-- The written form. -/
  source : String
  /-- The pattern. -/
  body : Expr
  /-- The names of groups with their numbers. -/
  names : List (String × Nat)
  deriving DecidableEq, Repr

/-- The greatest depth of a pattern. -/
def depthLimit : Nat := 250

/-- Reads a written pattern. -/
def Regex.parse (source : String) : Except SyntaxError Regex := do
  let (tree, names) ← Tree.ofTokens (← Token.readAll source.toList)
  if depthLimit < tree.depth then throw .tooDeep
  unless tree.fits do throw .tooLarge
  return { source, body := tree.expr, names }

end ModelLoading.Pattern
