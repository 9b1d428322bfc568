import ModelLoading.Toml.Moment

/-!
# Values as they are written

Arrays and tables in braces hold values, to a limited depth. A table in braces is built from its pairs
in the same way as a table of the document.
-/

namespace ModelLoading.Toml

/-- The greatest number of parts of a dotted key, and the greatest depth of brackets and braces. -/
def depthLimit : Nat := 79

/-- Whether a character may stand in a key without quotes. -/
def isBareKey (c : Char) : Bool :=
  isDigit c ∨ ('a' ≤ c ∧ c ≤ 'z') ∨ ('A' ≤ c ∧ c ≤ 'Z') ∨ c = '_' ∨ c = '-'

/-- One part of a key. -/
def keyPart : Parser String := do
  match ← Parser.peek with
  | some '"' | some '\'' => quotedText
  | _ =>
    match ← Parser.takeWhile isBareKey with
    | [] => Parser.refuse
    | cs => return .ofList cs

/-- A key of at most so many parts. -/
def keyWithin : Nat → Parser (List String)
  | 0 => throw .nesting
  | n + 1 => do
    blanks
    let part ← keyPart
    blanks
    if (← Parser.peek) = some '.' then
      Parser.skip
      return part :: (← keyWithin n)
    else return [part]

/-- A key: its parts before the last one, and the last one. -/
def key : Parser (List String × String) := do
  let parts ← keyWithin depthLimit
  match parts.getLast? with
  | some last => return (parts.dropLast, last)
  | none => Parser.refuse

/-- Takes a given word. -/
def word (w : String) (v : Value) : Parser Value := do
  let s ← get
  if w.toList.isPrefixOf s then
    set (s.drop w.length)
    return v
  else Parser.refuse

/-- A value that is neither an array nor a table. -/
def scalar : Parser Value := do
  let s ← get
  match s with
  | [] => Parser.refuse
  | c :: _ =>
    if c = '"' ∨ c = '\'' then return .text (← textValue)
    else if c = 't' then word "true" (.boolean true)
    else if c = 'f' then word "false" (.boolean false)
    else if startsMoment s then moment
    else number

/-- The items of an array up to the closing bracket, at most so many. -/
def items (item : Parser Value) : Nat → Parser (List Value)
  | 0 => Parser.refuse
  | n + 1 => do
    gap
    if (← Parser.peek) = some ']' then
      Parser.skip
      return []
    let v ← item
    gap
    match ← Parser.peek with
    | some ',' =>
      Parser.skip
      return v :: (← items item n)
    | some ']' =>
      Parser.skip
      return [v]
    | _ => Parser.refuse

/-- A key and its value. -/
def pair (item : Parser Value) : Parser (List String × String × Value) := do
  let (path, last) ← key
  Parser.expect '='
  blanks
  return (path, last, ← item)

/-- The pairs of a table in braces up to the closing brace, at most so many. -/
def pairs (item : Parser Value) : Nat → Parser (List (List String × String × Value))
  | 0 => Parser.refuse
  | n + 1 => do
    let p ← pair item
    blanks
    match ← Parser.peek with
    | some ',' =>
      Parser.skip
      return p :: (← pairs item n)
    | some '\x7d' =>
      Parser.skip
      return [p]
    | _ => Parser.refuse

/-- The entries that pairs define one after another. -/
def entriesOf (ps : List (List String × String × Value)) : Except Error Entries :=
  ps.foldlM (fun es (path, last, v) => es.defineDotted path last v) []

/-- A value with brackets and braces to a given depth. The number of items is at most that of the
characters that are left. -/
def value : Nat → Parser Value
  | 0 => do
    match ← Parser.peek with
    | some '[' | some '\x7b' => throw .nesting
    | _ => scalar
  | depth + 1 => do
    match ← get with
    | '[' :: rest =>
      set rest
      return .array (← items (value depth) (rest.length + 1))
    | '\x7b' :: rest =>
      set rest
      blanks
      if (← Parser.peek) = some '\x7d' then
        Parser.skip
        return .table .inline []
      else return .table .inline (← entriesOf (← pairs (value depth) (rest.length + 1)))
    | _ => scalar

end ModelLoading.Toml
