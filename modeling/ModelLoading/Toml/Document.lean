import ModelLoading.Toml.Literal

/-!
# Documents

A document is a list of statements, each on lines of its own: a header opens a table, and a pair
defines a key in the table that was opened last.
-/

namespace ModelLoading.Toml

/-- One statement of a document; the last part of a key is apart. -/
inductive Statement where
  /-- Opens a table. -/
  | header (path : List String) (key : String)
  /-- Opens a further table of an array of tables. -/
  | element (path : List String) (key : String)
  /-- Defines a key. -/
  | pair (path : List String) (key : String) (v : Value)
  deriving Repr

/-- One statement. -/
def statement : Parser Statement := do
  match ← get with
  | '[' :: '[' :: rest =>
    set rest
    let (path, last) ← key
    Parser.expect ']'
    Parser.expect ']'
    restOfLine
    return .element path last
  | '[' :: rest =>
    set rest
    let (path, last) ← key
    Parser.expect ']'
    restOfLine
    return .header path last
  | _ =>
    let (path, last, v) ← pair (value depthLimit)
    restOfLine
    return .pair path last v

/-- The statements up to the end of the text, on at most so many lines. -/
def statementsWithin : Nat → Parser (List Statement)
  | 0 => return []
  | n + 1 => do
    blanks
    match ← get with
    | [] => return []
    | c :: _ =>
      if c = '#' ∨ c = '\n' ∨ c = '\r' then
        restOfLine
        statementsWithin n
      else return (← statement) :: (← statementsWithin n)

/-- The statements of a text, which may start with a byte order mark. Every statement and every line
break takes a character at least. -/
def statements (s : List Char) : Except Error (List Statement) :=
  let s := match s with
    | '\uFEFF' :: rest => rest
    | s => s
  (statementsWithin (s.length + 1) s).map (·.1)

/-- Carries out statements; `header` leads to the table that was opened last. -/
def build (header : List String) (es : Entries) : List Statement → Except Error Entries
  | [] => .ok es
  | .header path key :: rest => do
    build (path ++ [key]) (← es.openTable path key) rest
  | .element path key :: rest => do
    build (path ++ [key]) (← es.openElement path key) rest
  | .pair path key v :: rest => do
    build header (← es.defineIn header path key v) rest

/-- Reads a document. -/
def parse (text : String) : Except Error Entries := do
  build [] [] (← statements text.toList)

end ModelLoading.Toml
