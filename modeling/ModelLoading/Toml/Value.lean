import ModelLoading.Toml.Error

/-!
# Values and tables

A document is a table: keys with values, in the order of their first mention. How a table was made
decides who may add to it later.
-/

namespace ModelLoading.Toml

/-- How a table was made. -/
inductive TableForm where
  /-- Written in braces as a value. -/
  | inline
  /-- By a header of its own, or as the document. -/
  | header
  /-- By a longer header that leads through it. -/
  | implied
  /-- By a dotted key that leads through it. -/
  | dotted
  deriving DecidableEq, Repr

/-- A value. -/
inductive Value where
  | text (s : String)
  | integer (n : Int)
  /-- A floating-point number, as it is written but without underscores. -/
  | float (literal : String)
  | boolean (b : Bool)
  /-- A date, a time, or both, as it is written. -/
  | moment (literal : String)
  | array (items : List Value)
  | table (form : TableForm) (entries : List (String × Value))
  /-- The tables made by repeated headers in double brackets. -/
  | tables (elements : List (List (String × Value)))
  deriving Repr

/-- The entries of a table: distinct keys with their values. -/
abbrev Entries := List (String × Value)

namespace Entries

/-- The value of a key. -/
def get? (es : Entries) (key : String) : Option Value :=
  (es.find? (·.1 = key)).map (·.2)

/-- Gives a key a value: in the place of its old value, or at the end. -/
def put (key : String) (v : Value) : Entries → Entries
  | [] => [(key, v)]
  | (other, old) :: rest =>
    if other = key then (other, v) :: rest else (other, old) :: put key v rest

/-- Gives a new key a value. -/
def define (key : String) (v : Value) (es : Entries) : Except Error Entries :=
  match es.get? key with
  | some _ => .error (.duplicateKey key)
  | none => .ok (es ++ [(key, v)])

/-- Changes the table that a path leads to; `made` is the form of tables that are missing on the way,
and `enters` says which tables the path may go through. An array of tables stands for its last one.
The change learns the form of the table, which is absent for the table where the path starts and for
the elements of arrays of tables. -/
def within (made : TableForm) (enters : TableForm → Bool)
    (change : Option TableForm → Entries → Except Error Entries) :
    List String → Option TableForm → Entries → Except Error Entries
  | [], form, es => change form es
  | key :: rest, _, es =>
    match es.get? key with
    | none => do
      let inner ← within made enters change rest (some made) []
      return put key (.table made inner) es
    | some (.table form inner) =>
      if enters form then do
        let inner ← within made enters change rest (some form) inner
        return put key (.table form inner) es
      else .error (.duplicateKey key)
    | some (.tables elements) =>
      match elements.getLast? with
      | some last => do
        let last ← within made enters change rest none last
        return put key (.tables (elements.dropLast ++ [last])) es
      | none => .error (.duplicateKey key)
    | some _ => .error (.duplicateKey key)

/-- Defines a dotted key. The path before the last part makes tables or adds to tables that no header
made, and the last table on it must be one that dotted keys made. -/
def defineDotted (path : List String) (key : String) (v : Value) : Entries → Except Error Entries :=
  within .dotted (fun form => form = .dotted ∨ form = .implied)
    (fun form es =>
      if path.isEmpty ∨ form = some .dotted then define key v es else .error (.duplicateKey key))
    path none

/-- Whether a header may lead through a table. -/
def headerEnters (form : TableForm) : Bool := form ≠ .inline

/-- Opens the table of a header: a new one, or one that was only implied so far. -/
def openTable (path : List String) (key : String) : Entries → Except Error Entries :=
  within .implied headerEnters
    (fun _ es =>
      match es.get? key with
      | none => .ok (es ++ [(key, .table .header [])])
      | some (.table .implied inner) => .ok (put key (.table .header inner) es)
      | some _ => .error (.duplicateKey key))
    path none

/-- Opens a further table of a header in double brackets. -/
def openElement (path : List String) (key : String) : Entries → Except Error Entries :=
  within .implied headerEnters
    (fun _ es =>
      match es.get? key with
      | none => .ok (es ++ [(key, .tables [[]])])
      | some (.tables elements) => .ok (put key (.tables (elements ++ [[]])) es)
      | some _ => .error (.duplicateKey key))
    path none

/-- Defines a dotted key in the table that the latest header opened. -/
def defineIn (header : List String) (path : List String) (key : String) (v : Value) :
    Entries → Except Error Entries :=
  within .implied headerEnters (fun _ => defineDotted path key v) header none

end Entries

end ModelLoading.Toml
