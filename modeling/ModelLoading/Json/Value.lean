/-!
# Printing JSON

The values of a report, and their text with one item or member on each line, indented by two blanks
for each level.
-/

namespace ModelLoading.Json

/-- A value of a report. -/
inductive Value where
  | number (n : Nat)
  | text (s : String)
  | list (items : List Value)
  | object (members : List (String × Value))
  deriving Repr

/-- A hexadecimal digit. -/
def hexDigit (n : Nat) : Char := Char.ofNat (if n < 10 then '0'.toNat + n else 'a'.toNat + n - 10)

/-- A character inside a text. -/
def escaped (c : Char) : List Char :=
  match c with
  | '"' => ['\\', '"']
  | '\\' => ['\\', '\\']
  | '\x08' => ['\\', 'b']
  | '\t' => ['\\', 't']
  | '\n' => ['\\', 'n']
  | '\x0c' => ['\\', 'f']
  | '\r' => ['\\', 'r']
  | c =>
    if c < ' ' then ['\\', 'u', '0', '0', hexDigit (c.toNat / 16), hexDigit (c.toNat % 16)]
    else [c]

/-- A text in double quotes. -/
def quoted (s : String) : String := .ofList ('"' :: s.toList.flatMap escaped ++ ['"'])

/-- A line break and the indentation of a level. -/
def newLine (level : Nat) : String := .ofList ('\n' :: List.replicate (2 * level) ' ')

/-- Items on lines of their own between an opening and a closing bracket. -/
def block (opening closing : String) (level : Nat) (items : List String) : String :=
  if items.isEmpty then opening ++ closing
  else
    opening ++ newLine (level + 1) ++ ("," ++ newLine (level + 1)).intercalate items
      ++ newLine level ++ closing

mutual

/-- The text of a value at a level. -/
def Value.printAt (level : Nat) : Value → String
  | .number n => toString n
  | .text s => quoted s
  | .list items => block "[" "]" level (printItems (level + 1) items)
  | .object members => block "\x7b" "\x7d" level (printMembers (level + 1) members)

/-- The texts of items at a level. -/
def printItems (level : Nat) : List Value → List String
  | [] => []
  | v :: rest => v.printAt level :: printItems level rest

/-- The texts of members at a level. -/
def printMembers (level : Nat) : List (String × Value) → List String
  | [] => []
  | (key, v) :: rest => (quoted key ++ ": " ++ v.printAt level) :: printMembers level rest

end

/-- The text of a value. -/
def Value.print (v : Value) : String := v.printAt 0

end ModelLoading.Json
