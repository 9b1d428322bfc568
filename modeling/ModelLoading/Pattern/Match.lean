import ModelLoading.Pattern.Attempt
import ModelLoading.Pattern.Regex

/-!
# Matches

`Expr.searchFrom` follows attempts through a text to the leftmost match, and to the best one of
those that begin there. `Regex.scan` cuts a text into the characters that are kept and the pieces that
match, leftmost first and without overlaps, and `Regex.occursIn` says whether there is a match.
-/

namespace ModelLoading.Pattern

/-- Follows attempts from a place on. Until there is a match an attempt is begun at every place;
`best` is the best one so far, with the place where it ends. -/
def Expr.searchFrom (p : Expr) (c : Cursor) (attempts : List Attempt)
    (best : Option (Attempt × Cursor)) : Option (Attempt × Cursor) :=
  let attempts := if best.isSome then attempts else attempts ++ [.fresh p c]
  let front := explore c attempts ∅ []
  let best := match front.accepted with
    | some a => some (a, c)
    | none => best
  match _h : c.next? with
  | none => best
  | some (_, next) =>
    if best.isSome && front.alive.isEmpty then best
    else p.searchFrom next front.alive best
termination_by c.left
decreasing_by exact Cursor.left_lt_of_next? ‹_›

/-- A piece of text that matched. -/
structure Match where
  /-- The whole piece. -/
  text : List Char
  /-- The texts of the groups by number. -/
  groups : List (Nat × List Char)

/-- The match that a finished attempt is. -/
def Attempt.result (a : Attempt) (stop : Cursor) : Match where
  text := a.start.textTo stop
  groups := a.groups.map fun (number, g) => (number, g.text)

/-- A part of a text that was searched. -/
inductive Piece where
  /-- A character outside every match. -/
  | kept (c : Char)
  /-- A match. -/
  | found (m : Match)

/-- The pieces of a text from a place on. A match of nothing does not count where the match before
it ended, which is where `fresh` is false. -/
def Expr.scanFrom (p : Expr) (c : Cursor) (fresh : Bool) : List Piece :=
  match p.searchFrom c [] none with
  | none => c.rest.map .kept
  | some (a, stop) =>
    if _h : stop.left < c.left then
      (c.textTo a.start).map .kept ++ .found (a.result stop) :: p.scanFrom stop false
    else if _h : fresh then .found (a.result stop) :: p.scanFrom c false
    else
      match _h : c.next? with
      | none => []
      | some (x, next) => .kept x :: p.scanFrom next true
termination_by (c.left, fresh.toNat)
decreasing_by
  · exact Prod.Lex.left _ _ ‹_›
  · rw [‹fresh = true›]
    exact Prod.Lex.right _ (by decide)
  · exact Prod.Lex.left _ _ (Cursor.left_lt_of_next? ‹_›)

/-- The pieces of a text. -/
def Regex.scan (r : Regex) (s : List Char) : List Piece :=
  r.body.scanFrom (.atStart s) true

/-- Whether a pattern matches somewhere in a text. -/
def Regex.occursIn (r : Regex) (s : List Char) : Bool :=
  (r.body.searchFrom (.atStart s) [] none).isSome

end ModelLoading.Pattern
