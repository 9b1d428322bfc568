import ModelLoading.Toml.Parser

/-!
# Texts between quotes

A text stands between double quotes, where a backslash starts an escape, or between single quotes,
where every character stands for itself. Three quotes open a text that may span lines; a line break
right after them is no part of it, and every other line break is read as one line feed. Up to two
quotes may stand directly before the three that close it.
-/

namespace ModelLoading.Toml

/-- What an escape of one letter stands for. -/
def escaped? : Char → Option Char
  | 'b' => some '\x08'
  | 't' => some '\t'
  | 'n' => some '\n'
  | 'f' => some '\x0c'
  | 'r' => some '\r'
  | '"' => some '"'
  | '\\' => some '\\'
  | _ => none

/-- The value of a hexadecimal digit. -/
def hexValue? (c : Char) : Option Nat :=
  if '0' ≤ c ∧ c ≤ '9' then some (c.toNat - '0'.toNat)
  else if 'a' ≤ c ∧ c ≤ 'f' then some (c.toNat - 'a'.toNat + 10)
  else if 'A' ≤ c ∧ c ≤ 'F' then some (c.toNat - 'A'.toNat + 10)
  else none

/-- The character whose code point is written in hexadecimal digits. -/
def codePoint? (digits : List Char) : Option Char := do
  let values ← digits.mapM hexValue?
  let code := values.foldl (fun n d => 16 * n + d) 0
  if code.isValidChar then some (Char.ofNat code) else none

/-- Puts a character in front of what is read from the rest of a text. -/
def consRead (c : Option Char) (rest : Except Error (List Char × List Char)) :
    Except Error (List Char × List Char) :=
  match c with
  | some c => do
    let (s, rest) ← rest
    return (c :: s, rest)
  | none => .error .syntaxError

/-- Whether blanks and then a line break follow. -/
def endsLine (s : List Char) : Bool := (afterBreak? (s.dropWhile isBlank)).isSome

/-- The characters up to a double quote, on one line. -/
def basicText : List Char → Except Error (List Char × List Char)
  | [] => .error .syntaxError
  | '"' :: rest => .ok ([], rest)
  | '\\' :: 'u' :: a :: b :: c :: d :: rest =>
    consRead (codePoint? [a, b, c, d]) (basicText rest)
  | '\\' :: 'U' :: a :: b :: c :: d :: e :: f :: g :: h :: rest =>
    consRead (codePoint? [a, b, c, d, e, f, g, h]) (basicText rest)
  | '\\' :: c :: rest => consRead (escaped? c) (basicText rest)
  | c :: rest =>
    if isPlain c ∧ c ≠ '\\' then consRead (some c) (basicText rest) else .error .syntaxError

/-- The characters up to three double quotes. A backslash at the end of a line drops the line break
and all blanks and line breaks after it; while that is going on, `dropping` is set. -/
def longBasicText (dropping : Bool) : List Char → Except Error (List Char × List Char)
  | [] => .error .syntaxError
  | '"' :: '"' :: '"' :: '"' :: '"' :: rest => .ok (['"', '"'], rest)
  | '"' :: '"' :: '"' :: '"' :: rest => .ok (['"'], rest)
  | '"' :: '"' :: '"' :: rest => .ok ([], rest)
  | '\\' :: 'u' :: a :: b :: c :: d :: rest =>
    consRead (codePoint? [a, b, c, d]) (longBasicText false rest)
  | '\\' :: 'U' :: a :: b :: c :: d :: e :: f :: g :: h :: rest =>
    consRead (codePoint? [a, b, c, d, e, f, g, h]) (longBasicText false rest)
  | '\\' :: c :: rest =>
    if endsLine (c :: rest) then longBasicText true (c :: rest)
    else consRead (escaped? c) (longBasicText false rest)
  | '\r' :: '\n' :: rest =>
    if dropping then longBasicText true rest else consRead (some '\n') (longBasicText false rest)
  | c :: rest =>
    if dropping ∧ (isBlank c ∨ c = '\n') then longBasicText true rest
    else if c = '\n' ∨ (isPlain c ∧ c ≠ '\\') then consRead (some c) (longBasicText false rest)
    else .error .syntaxError

/-- The characters up to a single quote, on one line. -/
def literalText : List Char → Except Error (List Char × List Char)
  | [] => .error .syntaxError
  | '\'' :: rest => .ok ([], rest)
  | c :: rest => if isPlain c then consRead (some c) (literalText rest) else .error .syntaxError

/-- The characters up to three single quotes. -/
def longLiteralText : List Char → Except Error (List Char × List Char)
  | [] => .error .syntaxError
  | '\'' :: '\'' :: '\'' :: '\'' :: '\'' :: rest => .ok (['\'', '\''], rest)
  | '\'' :: '\'' :: '\'' :: '\'' :: rest => .ok (['\''], rest)
  | '\'' :: '\'' :: '\'' :: rest => .ok ([], rest)
  | '\r' :: '\n' :: rest => consRead (some '\n') (longLiteralText rest)
  | c :: rest =>
    if c = '\n' ∨ isPlain c then consRead (some c) (longLiteralText rest)
    else .error .syntaxError

/-- Drops one line break at the front. -/
def dropBreak (s : List Char) : List Char := (afterBreak? s).getD s

/-- A text between quotes on one line. -/
def quotedText : Parser String := .ofFunction fun s =>
  let read := match s with
    | '"' :: rest => basicText rest
    | '\'' :: rest => literalText rest
    | _ => .error .syntaxError
  read.map fun (s, rest) => (String.ofList s, rest)

/-- A text between quotes, on one line or on several. -/
def textValue : Parser String := .ofFunction fun s =>
  match s with
  | '"' :: '"' :: '"' :: rest =>
    (longBasicText false (dropBreak rest)).map fun (s, rest) => (String.ofList s, rest)
  | '\'' :: '\'' :: '\'' :: rest =>
    (longLiteralText (dropBreak rest)).map fun (s, rest) => (String.ofList s, rest)
  | s => quotedText s

end ModelLoading.Toml
