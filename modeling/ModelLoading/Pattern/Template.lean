import ModelLoading.Pattern.Match

/-!
# Replacement templates

A template is a text with references to the groups of a match. A reference is a dollar sign before a
name or a number, which may stand in braces; two dollar signs write one. `Template.expand` replaces
the references, and `Template.quote` doubles the dollar signs of a text so that it expands to itself.
-/

namespace ModelLoading.Pattern

/-- What a template refers to. -/
inductive Reference where
  | number (n : Nat)
  | name (s : List Char)
  deriving DecidableEq, Repr

namespace Template

/-- A reference by its text: a number below `2 ^ 64`, which may have a plus sign before it, or else
a name. -/
def reference (s : List Char) : Reference :=
  let digits := if s.head? = some '+' then s.drop 1 else s
  let n := decimalValue digits
  if !digits.isEmpty ∧ digits.all Char.isDigit ∧ n < UInt64.size then .number n else .name s

/-- Whether a character can be part of a reference without braces. -/
def isReferenceChar (c : Char) : Bool := c.isAlphanum || c == '_'

/-- The reference after a dollar sign and the number of characters that write it. Without braces it
is the longest run of letters, digits and underscores; with them it reaches to the closing one. -/
def reference? (s : List Char) : Option (Reference × Nat) :=
  match s with
  | '\x7b' :: inner =>
    let body := inner.takeWhile (· != '\x7d')
    if body.length < inner.length then some (reference body, body.length + 2) else none
  | s =>
    let body := s.takeWhile isReferenceChar
    if body.isEmpty then none else some (reference body, body.length)

/-- Expands a template, whose first `skip` characters belong to a reference that was replaced. -/
def expandFrom (value : Reference → List Char) : (skip : Nat) → List Char → List Char
  | _, [] => []
  | skip + 1, _ :: rest => expandFrom value skip rest
  | 0, '$' :: '$' :: rest => '$' :: expandFrom value 0 rest
  | 0, '$' :: rest =>
    match reference? rest with
    | some (r, length) => value r ++ expandFrom value length rest
    | none => '$' :: expandFrom value 0 rest
  | 0, c :: rest => c :: expandFrom value 0 rest

/-- Expands a template: each reference is replaced by its value, and any other dollar sign that does
not write a dollar sign stands for itself. -/
def expand (value : Reference → List Char) (template : List Char) : List Char :=
  expandFrom value 0 template

/-- A text as a template that expands to it. -/
def quote (s : List Char) : List Char :=
  s.flatMap fun c => if c = '$' then ['$', '$'] else [c]

end Template

/-- The text that a reference stands for in a match; a group that is unknown or did not take part
has none. -/
def Match.value (m : Match) (names : List (String × Nat)) : Reference → List Char
  | .number 0 => m.text
  | .number n => (m.groups.lookup n).getD []
  | .name s =>
    match names.lookup (.ofList s) with
    | some n => (m.groups.lookup n).getD []
    | none => []

/-- The number of matches in a text. -/
def Regex.count (r : Regex) (s : List Char) : Nat :=
  (r.scan s).countP fun
    | .found _ => true
    | .kept _ => false

/-- A text with every match replaced by the expanded template. -/
def Regex.replaceAll (r : Regex) (template s : List Char) : List Char :=
  (r.scan s).flatMap fun
    | .kept c => [c]
    | .found m => Template.expand (m.value r.names) template

end ModelLoading.Pattern
