import ModelLoading.Pattern.Basic
import ModelLoading.Text.Alphabetic
import ModelLoading.Text.Numeric

/-!
# The written form of patterns, token by token

`Token.read` takes one token off the front of a written pattern, and `Token.readAll` cuts a written
pattern into its tokens. A backslash makes any sign of the notation stand for itself; `escape` puts
one before each of them, so that escaped text is read back as exactly its characters.
-/

namespace ModelLoading.Pattern

/-- Why a written pattern is refused. -/
inductive SyntaxError where
  /-- A group is not closed. -/
  | unclosedGroup
  /-- A closing parenthesis closes nothing. -/
  | unopenedGroup
  /-- A character class is not closed. -/
  | unclosedClass
  /-- A range of a class is reversed, or an end of it is no single character. -/
  | badRange
  /-- A repetition follows nothing that could be repeated. -/
  | danglingRepetition
  /-- A counted repetition is malformed, or its bounds are reversed. -/
  | badRepetition
  /-- A backslash stands before a character that it gives no meaning. -/
  | badEscape
  /-- The name of a group is malformed or missing. -/
  | badGroupName
  /-- Two groups have the same name. -/
  | repeatedGroupName (name : String)
  /-- A kind of group that patterns do not have. -/
  | unsupportedGroup
  /-- Groups, repetitions and classes stand too deep inside one another. -/
  | tooDeep
  /-- The compiled pattern takes too much room. -/
  | tooLarge
  deriving DecidableEq, Repr

/-- The wording of a refusal. -/
def SyntaxError.message : SyntaxError → String
  | unclosedGroup => "unclosed group"
  | unopenedGroup => "unopened group"
  | unclosedClass => "unclosed character class"
  | badRange => "invalid character class range"
  | danglingRepetition => "repetition operator missing expression"
  | badRepetition => "invalid repetition count"
  | badEscape => "unrecognized escape sequence"
  | badGroupName => "invalid capture group name"
  | repeatedGroupName name => s!"duplicate capture group name '{name}'"
  | unsupportedGroup => "unsupported group"
  | tooDeep => "exceeded the maximum number of nested parentheses and brackets"
  | tooLarge => "compiled pattern exceeds size limit"

/-- The kinds of groups. -/
inductive GroupKind where
  /-- The text of the group is not kept. -/
  | plain
  /-- The text is kept under a number. -/
  | numbered
  /-- The text is kept under a number and a name. -/
  | named (name : String)
  deriving DecidableEq, Repr

/-- One sign of a written pattern. -/
inductive Token where
  /-- One character of a class, in whose written form brackets stand `depth` deep. -/
  | one (cls : CharClass) (depth : Nat)
  | assert (condition : Assertion)
  /-- The beginning of a group. -/
  | opening (kind : GroupKind)
  /-- The end of a group. -/
  | closing
  /-- The bar between alternatives. -/
  | bar
  /-- A repetition of what stands before it. -/
  | repetition (min : Nat) (max : Option Nat) (greedy : Bool)
  deriving DecidableEq, Repr

/-- One given character. -/
def Token.char (c : Char) : Token := .one (.single c) 0

/-! ## Escapes -/

/-- Whether a character is a sign of the notation. -/
def isSign (c : Char) : Bool :=
  c ∈ ['\\', '.', '+', '*', '?', '(', ')', '|', '[', ']', '\x7b', '\x7d', '^', '$', '#', '&', '-',
    '~']

/-- Text in which every sign of the notation has a backslash before it. -/
def escape (s : List Char) : List Char :=
  s.flatMap fun c => if isSign c then ['\\', c] else [c]

/-- The meaning of a character after a backslash. A sign, and every other ASCII character that is
neither a letter nor a digit nor an angle bracket, stands for itself. -/
def escaped (c : Char) : Except SyntaxError Token :=
  match c with
  | 'd' => .ok (.one .digit 0)
  | 'D' => .ok (.one (.complement .digit) 0)
  | 'w' => .ok (.one .word 0)
  | 'W' => .ok (.one (.complement .word) 0)
  | 's' => .ok (.one .blank 0)
  | 'S' => .ok (.one (.complement .blank) 0)
  | 'b' => .ok (.assert .wordBoundary)
  | 'B' => .ok (.assert .noWordBoundary)
  | '<' => .ok (.assert .wordStart)
  | '>' => .ok (.assert .wordEnd)
  | 'A' => .ok (.assert .atStart)
  | 'z' => .ok (.assert .atEnd)
  | 'a' => .ok (.char '\x07')
  | 'f' => .ok (.char '\x0c')
  | 'n' => .ok (.char '\n')
  | 'r' => .ok (.char '\r')
  | 't' => .ok (.char '\t')
  | 'v' => .ok (.char '\x0b')
  | c => if c.toNat < 128 ∧ !c.isAlphanum then .ok (.char c) else .error .badEscape

/-- The word boundaries that have a name. -/
def boundaryNames : List (String × Assertion) :=
  [("start", .wordStart), ("end", .wordEnd), ("start-half", .wordStartHalf),
    ("end-half", .wordEndHalf)]

/-- A word boundary after its backslash and letter: a name in braces may say which one is meant.
Braces that begin with anything but a letter or a hyphen hold no name. -/
def boundary (s : List Char) : Except SyntaxError (Token × List Char) :=
  let isNameChar (c : Char) : Bool := c.isAlpha || c == '-'
  match s with
  | ['\x7b'] => .error .badEscape
  | '\x7b' :: c :: rest =>
    if isNameChar c then
      let name := (c :: rest).takeWhile isNameChar
      match (c :: rest).drop name.length, boundaryNames.lookup (.ofList name) with
      | '\x7d' :: rest, some condition => .ok (.assert condition, rest)
      | _, _ => .error .badEscape
    else .ok (.assert .wordBoundary, s)
  | s => .ok (.assert .wordBoundary, s)

/-! ## Character classes -/

/-- A character class, and how deep brackets and operations stand inside one another in it. -/
abbrev Nested := CharClass × Nat

/-- One item of a character class: a character, or a class written by an escape. -/
def classItem : List Char → Except SyntaxError (CharClass × List Char)
  | [] => .error .unclosedClass
  | '\\' :: c :: rest =>
    match escaped c with
    | .ok (.one cls _) => .ok (cls, rest)
    | _ => .error .badEscape
  | ['\\'] => .error .badEscape
  | c :: rest => .ok (.single c, rest)

/-- A range between two single characters. -/
def classRange : CharClass → CharClass → Except SyntaxError CharClass
  | .range low low', .range high high' =>
    if low = low' ∧ high = high' ∧ low ≤ high then .ok (.range low high) else .error .badRange
  | _, _ => .error .badRange

/-- An item of a character class, or a range of two items around a hyphen. A hyphen before the
closing bracket or before another hyphen makes no range. -/
def classEntry (s : List Char) : Except SyntaxError (CharClass × List Char) := do
  let (first, rest) ← classItem s
  match rest with
  | '-' :: next :: more =>
    if next = ']' ∨ next = '-' then
      return (first, rest)
    else
      let (last, rest) ← classItem (next :: more)
      return (← classRange first last, rest)
  | ['-'] => throw .unclosedClass
  | _ => return (first, rest)

/-- A class by its name, after an opening bracket inside a character class: the name stands between
colons before the closing bracket, and a caret before it asks for the other characters. -/
def namedClass? (s : List Char) : Option (CharClass × List Char) :=
  match s with
  | ':' :: s =>
    let negated := s.head? = some '^'
    let s := if negated then s.drop 1 else s
    let name := s.takeWhile (· != ':')
    match s.drop name.length, CharClass.named.lookup (.ofList name) with
    | ':' :: ']' :: rest, some cls => some (if negated then .complement cls else cls, rest)
    | _, _ => none
  | _ => none

/-- The items of a character class taken together, last first. -/
def classUnion : List Nested → Nested
  | [] => (.never, 0)
  | [item] => item
  | items => (.unionAll (items.reverse.map (·.1)), (items.map (·.2)).foldl max 0 + 1)

/-- How the parts of a character class are combined. -/
inductive ClassOperation where
  | inter
  | difference
  | symmetricDifference
  deriving DecidableEq, Repr

/-- Two classes combined. -/
def ClassOperation.apply : ClassOperation → CharClass → CharClass → CharClass
  | inter, a, b => .inter a b
  | difference, a, b => .inter a (.complement b)
  | symmetricDifference, a, b =>
    .union (.inter a (.complement b)) (.inter b (.complement a))

/-- A left operand that waits for its right one. -/
abbrev Pending := Option (ClassOperation × Nested)

/-- The items since the last operation combined with the operand that waited for them. -/
def Pending.close (pending : Pending) (items : List Nested) : Nested :=
  let (b, depth') := classUnion items
  match pending with
  | none => (b, depth')
  | some (operation, a, depth) => (operation.apply a b, max depth depth' + 1)

mutual

/-- The rest of a character class up to its closing bracket, after the items since the last
operation, last first. The fuel is at least the length of the text. -/
def classBody : (fuel : Nat) → Pending → List Nested → List Char → Except SyntaxError (Nested × List Char)
  | 0, _, _, _ => .error .unclosedClass
  | fuel + 1, pending, items, s =>
    match s with
    | [] => .error .unclosedClass
    | ']' :: rest => .ok (pending.close items, rest)
    | '[' :: rest =>
      match namedClass? rest with
      | some (cls, rest) => classBody fuel pending ((cls, 0) :: items) rest
      | none => do
        let (cls, rest) ← classOpening fuel rest
        classBody fuel pending (cls :: items) rest
    | '&' :: '&' :: rest => classBody fuel (some (.inter, pending.close items)) [] rest
    | '-' :: '-' :: rest => classBody fuel (some (.difference, pending.close items)) [] rest
    | '~' :: '~' :: rest => classBody fuel (some (.symmetricDifference, pending.close items)) [] rest
    | s => do
      let (cls, rest) ← classEntry s
      classBody fuel pending ((cls, 0) :: items) rest

/-- A character class after its opening bracket. Leading hyphens, and a closing bracket that comes
first, stand for themselves. -/
def classOpening : (fuel : Nat) → List Char → Except SyntaxError (Nested × List Char)
  | 0, _ => .error .unclosedClass
  | fuel + 1, s => do
    let negated := s.head? = some '^'
    let s := if negated then s.drop 1 else s
    let hyphens := s.takeWhile (· = '-')
    let s := s.drop hyphens.length
    let ((cls, depth), rest) ←
      if hyphens.isEmpty ∧ s.head? = some ']' then
        classBody fuel none [(.single ']', 0)] (s.drop 1)
      else
        classBody fuel none (hyphens.map fun c => (.single c, 0)) s
    return ((if negated then .complement cls else cls, depth + 1), rest)

end

/-! ## Groups -/

/-- Whether a character can be part of the name of a group; the first must be a letter or an
underscore. -/
def isNameChar (first : Bool) (c : Char) : Bool :=
  c == '_' || Text.isAlphabetic c
    || (!first && (Text.isNumeric c || c == '.' || c == '[' || c == ']'))

/-- The name of a group up to the closing angle bracket. -/
def groupName (s : List Char) : Except SyntaxError (Token × List Char) :=
  let name := s.takeWhile (· != '>')
  match s.drop name.length, name with
  | [], _ => .error .badGroupName
  | _, [] => .error .badGroupName
  | _ :: rest, first :: more =>
    if isNameChar true first && more.all (isNameChar false) then
      .ok (.opening (.named (.ofList name)), rest)
    else
      .error .badGroupName

/-- A group after its opening parenthesis. -/
def groupOpening : List Char → Except SyntaxError (Token × List Char)
  | '?' :: '=' :: _ => .error .unsupportedGroup
  | '?' :: '!' :: _ => .error .unsupportedGroup
  | '?' :: '<' :: '=' :: _ => .error .unsupportedGroup
  | '?' :: '<' :: '!' :: _ => .error .unsupportedGroup
  | '?' :: 'P' :: '<' :: rest => groupName rest
  | '?' :: '<' :: rest => groupName rest
  | '?' :: ':' :: rest => .ok (.opening .plain, rest)
  | '?' :: _ => .error .unsupportedGroup
  | rest => .ok (.opening .numbered, rest)

/-! ## Repetitions -/

/-- A repetition; a question mark after it makes it lazy. -/
def times (min : Nat) (max : Option Nat) : List Char → Token × List Char
  | '?' :: rest => (.repetition min max false, rest)
  | rest => (.repetition min max true, rest)

/-- The number that decimal digits write. -/
def decimalValue (digits : List Char) : Nat :=
  digits.foldl (fun n d => 10 * n + (d.toNat - '0'.toNat)) 0

/-- A decimal number with white space around it, below `2 ^ 32`. -/
def count (s : List Char) : Except SyntaxError (Nat × List Char) :=
  let s := s.dropWhile Text.isBlank
  let digits := s.takeWhile Char.isDigit
  let n := decimalValue digits
  if digits.isEmpty ∨ UInt32.size ≤ n then .error .badRepetition
  else .ok (n, (s.drop digits.length).dropWhile Text.isBlank)

/-- A counted repetition after its opening brace. -/
def countedRepetition (s : List Char) : Except SyntaxError (Token × List Char) := do
  let (min, rest) ← count s
  match rest with
  | '\x7d' :: rest => return times min (some min) rest
  | ',' :: '\x7d' :: rest => return times min none rest
  | ',' :: rest =>
    let (max, rest) ← count rest
    match rest with
    | '\x7d' :: rest =>
      if max < min then throw .badRepetition
      return times min (some max) rest
    | _ => throw .badRepetition
  | _ => throw .badRepetition

/-! ## Tokens -/

/-- The first token of a written pattern that is not empty. -/
def Token.read (c : Char) (rest : List Char) : Except SyntaxError (Token × List Char) :=
  match c with
  | '\\' =>
    match rest with
    | [] => .error .badEscape
    | 'b' :: rest => boundary rest
    | e :: rest => (escaped e).map (·, rest)
  | '.' => .ok (.one .dot 0, rest)
  | '^' => .ok (.assert .atStart, rest)
  | '$' => .ok (.assert .atEnd, rest)
  | '|' => .ok (.bar, rest)
  | ')' => .ok (.closing, rest)
  | '(' => groupOpening rest
  | '[' =>
    (classOpening (rest.length + 1) rest).map fun ((cls, depth), rest) => (.one cls depth, rest)
  | '*' => .ok (times 0 none rest)
  | '+' => .ok (times 1 none rest)
  | '?' => .ok (times 0 (some 1) rest)
  | '\x7b' => countedRepetition rest
  | c => .ok (.char c, rest)

/-- The tokens of a written pattern, for a fuel of at least its length. -/
def Token.readWithin : (fuel : Nat) → List Char → Except SyntaxError (List Token)
  | _, [] => .ok []
  | 0, _ :: _ => .error .tooLarge
  | fuel + 1, c :: s => do
    let (token, rest) ← Token.read c s
    return token :: (← Token.readWithin fuel rest)

/-- The tokens of a written pattern. -/
def Token.readAll (s : List Char) : Except SyntaxError (List Token) :=
  Token.readWithin s.length s

end ModelLoading.Pattern
