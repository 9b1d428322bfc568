import ModelLoading.Toml.Error

/-!
# Reading from the front of a text

A parser takes characters from the front of a text and leaves the rest. Here are the parsers that all
others are made from: single characters, blanks, comments and line ends.
-/

namespace ModelLoading.Toml

/-- Takes a value from the front of a text and leaves the rest, or refuses the text. -/
abbrev Parser := StateT (List Char) (Except Error)

namespace Parser

/-- A function on the text as a parser. -/
def ofFunction {α : Type} (f : List Char → Except Error (α × List Char)) : Parser α := f

/-- Refuses the text. -/
def refuse {α : Type} : Parser α := throw .syntaxError

/-- The next character, which stays in the text. -/
def peek : Parser (Option Char) := return (← get).head?

/-- Drops the next character. -/
def skip : Parser Unit := modify List.tail

/-- Takes one given character. -/
def expect (c : Char) : Parser Unit := do
  if (← peek) = some c then skip else refuse

/-- Takes characters as long as they satisfy a condition. -/
def takeWhile (p : Char → Bool) : Parser (List Char) := do
  let s ← get
  set (s.dropWhile p)
  return s.takeWhile p

end Parser

/-- Whether a character separates words on a line. -/
def isBlank (c : Char) : Bool := c = ' ' ∨ c = '\t'

/-- Whether a character may stand in a comment or in a text between quotes: every character but the
control characters of ASCII, of which only the tab is allowed. -/
def isPlain (c : Char) : Bool := c = '\t' ∨ (' ' ≤ c ∧ c ≠ '\x7f')

/-- Skips blanks. -/
def blanks : Parser Unit := discard (Parser.takeWhile isBlank)

/-- The text after a line break, if it starts with one. -/
def afterBreak? : List Char → Option (List Char)
  | '\n' :: rest => some rest
  | '\r' :: '\n' :: rest => some rest
  | _ => none

/-- Takes a line break; the end of the text counts as one. -/
def lineEnd : Parser Unit := do
  match ← get with
  | [] => return
  | s =>
    match afterBreak? s with
    | some rest => set rest
    | none => Parser.refuse

/-- Skips a comment, if one follows. -/
def comment : Parser Unit := do
  if (← Parser.peek) = some '#' then discard (Parser.takeWhile isPlain)

/-- Takes the rest of a line, on which only blanks and a comment may stand. -/
def restOfLine : Parser Unit := do
  blanks
  comment
  lineEnd

/-- The text after blanks, line breaks and comments. -/
def afterGap (inComment : Bool) : List Char → Except Error (List Char)
  | [] => if inComment then .error .syntaxError else .ok []
  | '\n' :: rest => afterGap false rest
  | '\r' :: '\n' :: rest => afterGap false rest
  | c :: rest =>
    if inComment then
      if isPlain c then afterGap true rest else .error .syntaxError
    else if isBlank c then afterGap false rest
    else if c = '#' then afterGap true rest
    else .ok (c :: rest)

/-- Skips blanks, line breaks and comments. -/
def gap : Parser Unit := do
  set (← (afterGap false (← get) : Except Error (List Char)))

end ModelLoading.Toml
