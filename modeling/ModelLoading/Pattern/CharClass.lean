import ModelLoading.Text.Blank
import ModelLoading.Text.Word

/-!
# Character classes

A character class stands for a set of characters. Classes are closed under complement, union and
intersection; `CharClass.mem` decides membership, and `CharClass.ranges` lists the code points.
-/

namespace ModelLoading.Pattern

/-- A set of characters. -/
inductive CharClass where
  /-- No character at all. -/
  | never
  /-- The characters from `low` to `high`, both included. -/
  | range (low high : Char)
  /-- The decimal digits of every script. -/
  | digit
  /-- The characters of words. -/
  | word
  /-- White space. -/
  | blank
  | complement (a : CharClass)
  | union (a b : CharClass)
  | inter (a b : CharClass)
  deriving DecidableEq, Repr

namespace CharClass

/-- Whether a character belongs to a class. -/
def mem : CharClass → Char → Bool
  | never, _ => false
  | range low high, c => low ≤ c && c ≤ high
  | digit, c => Text.isDigit c
  | word, c => Text.isWord c
  | blank, c => Text.isBlank c
  | complement a, c => !a.mem c
  | union a b, c => a.mem c || b.mem c
  | inter a b, c => a.mem c && b.mem c

/-- The code points of a class. -/
def ranges : CharClass → Text.Ranges
  | never => []
  | range low high => [(low.toNat, high.toNat)]
  | digit => (0x30, 0x39) :: Text.digitRanges
  | word => [(0x30, 0x39), (0x41, 0x5A), (0x5F, 0x5F), (0x61, 0x7A)] ++ Text.wordRanges
  | blank => Text.blankRanges
  | complement a => a.ranges.complement
  | union a b => a.ranges.union b.ranges
  | inter a b => a.ranges.inter b.ranges

/-- The class of one character. -/
def single (c : Char) : CharClass := range c c

/-- Every character but the line break. -/
def dot : CharClass := complement (single '\n')

/-- The characters of any of several classes. -/
def unionAll : List CharClass → CharClass
  | [] => never
  | [a] => a
  | a :: rest => union a (unionAll rest)

/-- The letters of ASCII. -/
def letters : List CharClass := [range 'A' 'Z', range 'a' 'z']

/-- The classes of ASCII characters that have a name. -/
def named : List (String × CharClass) :=
  [("alnum", unionAll (range '0' '9' :: letters)),
    ("alpha", unionAll letters),
    ("ascii", range '\x00' '\x7f'),
    ("blank", unionAll [single '\t', single ' ']),
    ("cntrl", unionAll [range '\x00' '\x1f', single '\x7f']),
    ("digit", range '0' '9'),
    ("graph", range '!' '~'),
    ("lower", range 'a' 'z'),
    ("print", range ' ' '~'),
    ("punct", unionAll [range '!' '/', range ':' '@', range '[' '\x60', range '\x7b' '~']),
    ("space", unionAll [range '\t' '\r', single ' ']),
    ("upper", range 'A' 'Z'),
    ("word", unionAll (range '0' '9' :: single '_' :: letters)),
    ("xdigit", unionAll [range '0' '9', range 'A' 'F', range 'a' 'f'])]

end CharClass

end ModelLoading.Pattern
