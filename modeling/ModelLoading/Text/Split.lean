/-!
# Splitting a text at a separator

`splitAt sep s` cuts `s` at the occurrences of `sep`, each the first one at or after the end of the
one before. An empty separator occurs before every character and at the end. Counting and replacing
occurrences are both read off the pieces, so they always see the same ones.
-/

namespace ModelLoading.Text

/-- The pieces of a text between the occurrences of a separator that is not empty; `piece` holds the
characters since the last occurrence, in reverse, and `skip` counts the characters of an occurrence
that are still to be passed. -/
def splitFrom (sep : List Char) (piece : List Char) : (skip : Nat) → List Char → List (List Char)
  | _, [] => [piece.reverse]
  | skip + 1, _ :: rest => splitFrom sep piece skip rest
  | 0, c :: rest =>
    if sep.isPrefixOf (c :: rest) then
      piece.reverse :: splitFrom sep [] (sep.length - 1) rest
    else
      splitFrom sep (c :: piece) 0 rest

/-- The pieces of a text between the occurrences of a separator. -/
def pieces (sep s : List Char) : List (List Char) :=
  if sep.isEmpty then
    [] :: s.map ([·]) ++ [[]]
  else
    splitFrom sep [] 0 s

/-- How often a text occurs in another, without overlaps, from left to right. -/
def occurrences (what s : List Char) : Nat := (pieces what s).length - 1

/-- Replaces every occurrence of `what` by `replacement`. -/
def replaceAll (what replacement s : List Char) : List Char :=
  replacement.intercalate (pieces what s)

end ModelLoading.Text
