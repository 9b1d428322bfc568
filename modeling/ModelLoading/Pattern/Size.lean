import ModelLoading.Pattern.Tree
import ModelLoading.Text.Encoding

/-!
# The size of patterns

A pattern is bounded by the room that its automata would take: one that reads the bytes of a text
forwards, and one that reads them backwards. A state takes 32 bytes, an edge under a range of bytes 8,
and an edge that reads nothing 4. A counted repetition takes its body as often as it may be needed, and a class that is not
plain ASCII takes an automaton over the encodings of its characters.

Before it is measured a tree is simplified to a list of parts: neighbouring characters become one
text, alternatives of single characters or of classes become one class, and what all alternatives
begin with is taken out of them.
-/

namespace ModelLoading.Pattern

open Text (Ranges ByteRange)

/-- A part of a simplified pattern. -/
inductive Part where
  /-- The given characters, by their code points. -/
  | text (chars : List Nat)
  /-- One character of a set. -/
  | one (ranges : Ranges)
  | assert (condition : Assertion)
  | group (number : Nat) (body : List Part)
  /-- A repetition of a body that may or may not match nothing. -/
  | repeated (min : Nat) (max : Option Nat) (greedy nullable : Bool) (body : List Part)
  | alt (branches : List (List Part))
  deriving BEq

namespace Part

/-- One character of a set; a single one is a text. -/
def ofRanges : Ranges → List Part
  | [(low, high)] => if low = high then [text [low]] else [one [(low, high)]]
  | ranges => [one ranges]

/-- Parts one after another; texts that touch become one. -/
def join : List Part → List Part → List Part
  | [], b => b
  | [text a], text b :: rest => text (a ++ b) :: rest
  | p :: a, b => p :: join a b

/-- A repetition, with the bounds that count. -/
def times (min : Nat) (max : Option Nat) (greedy nullable : Bool) (body : List Part) : List Part :=
  match min, max with
  | 0, some 0 => []
  | 1, some 1 => body
  | min, max => [repeated min max greedy nullable body]

/-- The alternatives inside an alternative. -/
def branches : List Part → List (List Part)
  | [alt inner] => inner
  | branch => [branch]

/-- The character that a branch consists of. -/
def char? : List Part → Option (Nat × Nat)
  | [text [c]] => some (c, c)
  | _ => none

/-- The set of characters that a branch consists of. -/
def set? : List Part → Option Ranges
  | [one ranges] => some ranges
  | _ => none

/-- What two lists of parts both begin with. -/
def commonStart : List Part → List Part → List Part
  | p :: a, q :: b => if p == q then p :: commonStart a b else []
  | _, _ => []

/-- What all of several branches begin with, if each of them has more than one part. -/
def start : List (List Part) → List Part
  | [] => []
  | first :: rest =>
    if (first :: rest).all (2 ≤ ·.length) then rest.foldl commonStart first else []

/-- Alternatives side by side, for a fuel that exceeds the length of the first one. -/
def firstOf (fuel : Nat) (alternatives : List (List Part)) : List Part :=
  match fuel, alternatives.flatMap branches with
  | _, [branch] => branch
  | fuel, all =>
    match all.mapM char?, all.mapM set?, fuel, start all with
    | some chars, _, _, _ => ofRanges (Ranges.ofList chars)
    | _, some sets, _, _ => ofRanges (Ranges.ofList sets.flatten)
    | _, _, fuel + 1, p :: common =>
      join (p :: common) (firstOf fuel (all.map (·.drop (common.length + 1))))
    | _, _, _, _ => [alt all]

end Part

mutual

/-- The parts of a pattern. -/
def Tree.parts : Tree → List Part
  | .one cls _ => Part.ofRanges cls.ranges
  | .assert condition => [.assert condition]
  | .group none body => body.parts
  | .group (some n) body => [.group n body.parts]
  | .repeated min max greedy body =>
    let (min, max) := body.expr.bounds min max
    Part.times min max greedy body.expr.nullable body.parts
  | .seq items => Tree.partsOfAll items
  | .alt branches =>
    let alternatives := Tree.partsOfEach branches
    Part.firstOf ((alternatives.map List.length).foldl max 1) alternatives

/-- The parts of several patterns one after another. -/
def Tree.partsOfAll : List Tree → List Part
  | [] => []
  | t :: rest => Part.join t.parts (partsOfAll rest)

/-- The parts of each of several patterns. -/
def Tree.partsOfEach : List Tree → List (List Part)
  | [] => []
  | t :: rest => t.parts :: partsOfEach rest

end

/-! ## Automata over bytes -/

/-- The room for a state. -/
def stateSize : Nat := 32

/-- The room for an edge under a range of bytes. -/
def rangeSize : Nat := 8

/-- The room for an edge that reads nothing. -/
def edgeSize : Nat := 4

/-- The room for several things. -/
def total (sizes : List Nat) : Nat := sizes.foldl (· + ·) 0

/-- Sequences in order, by their first range of bytes, with what comes after it. -/
def byFirst : List (List ByteRange) → List (ByteRange × List (List ByteRange))
  | [] => []
  | [] :: rest => byFirst rest
  | (r :: tail) :: rest =>
    match byFirst rest with
    | (r', tails) :: groups =>
      if r = r' then (r, tail :: tails) :: groups else (r, [tail]) :: (r', tails) :: groups
    | [] => [(r, [tail])]

/-- What can come next after each beginning of the sequences: a state of the automaton that reads
them, which is given by the sequences that it still has to read. -/
def readingStates : (length : Nat) → List (List ByteRange) → List (List (List ByteRange))
  | 0, _ => []
  | length + 1, sequences =>
    if sequences.all List.isEmpty then []
    else sequences :: (byFirst sequences).flatMap fun (_, tails) => readingStates length tails

/-- The room for a set of characters. Forwards, states that have the same to read are one state.
Backwards, every beginning of an encoding has a state of its own. -/
def setSize (backward : Bool) (ranges : Ranges) : Nat :=
  if ranges.all (·.2 < 128) then 2 * stateSize + rangeSize * ranges.length
  else
    let sequences := Text.encodings ranges
    let states := readingStates 4 sequences
    if backward then
      let edges := total (states.map fun s => (byFirst s).length)
      2 * stateSize + edgeSize * sequences.length + stateSize * edges
    else
      let sizes := states.eraseDups.map fun s => stateSize + rangeSize * (byFirst s).length
      stateSize + total sizes

/-- The bytes of a text in the order in which they are read. -/
def textBytes (backward : Bool) (chars : List Nat) : List Nat :=
  let bytes := chars.flatMap Text.encoded
  if backward then bytes.reverse else bytes

/-- Texts by their first byte, in the order of their first appearance. -/
def byFirstByte : List (List Nat) → List (Nat × List (List Nat))
  | [] => []
  | [] :: rest => byFirstByte rest
  | (b :: tail) :: rest =>
    let groups := byFirstByte rest
    match groups.lookup b with
    | some tails => (b, tail :: tails) :: groups.filter (·.1 ≠ b)
    | none => (b, [tail]) :: groups

/-- Lists of texts between those that have come to their end. -/
def sections : List (List Nat) → List (List (List Nat))
  | [] => [[]]
  | [] :: rest => [] :: sections rest
  | text :: rest =>
    match sections rest with
    | s :: more => (text :: s) :: more
    | [] => [[text]]

/-- The room for a choice between texts, less that for its end, when all of them are read together
byte by byte. A text that ends where another goes on divides those before it from those after it. -/
def choiceSize : (length : Nat) → List (List Nat) → Nat
  | 0, _ => 0
  | length + 1, texts =>
    let sections := sections (texts.dropWhile List.isEmpty)
    let ends := sections.length - 1 + if texts.head? = some [] then 1 else 0
    let reading := sections.filterMap fun s =>
      match byFirstByte s with
      | [] => none
      | groups => some groups
    if reading.isEmpty then 0
    else
      let below := reading.map fun groups =>
        stateSize + (if groups.length = 1 then 0 else rangeSize * groups.length)
          + total (groups.map fun (_, tails) => choiceSize length tails)
      stateSize + edgeSize * (reading.length + ends) + total below

/-- The text that a branch consists of. -/
def Part.text? : List Part → Option (List Nat)
  | [.text chars] => some chars
  | _ => none

mutual

/-- The room for a part. -/
def Part.size (backward : Bool) : Part → Nat
  | .text chars => stateSize * (textBytes backward chars).length
  | .one ranges => setSize backward ranges
  | .assert _ => stateSize
  | .group _ body => Part.sizeOfAll backward body + if backward then 0 else 2 * stateSize
  | .repeated min max _ nullable body =>
    let size := Part.sizeOfAll backward body
    let choice := stateSize + 2 * edgeSize
    match max with
    | none =>
      if min = 0 ∧ nullable then size + 2 * choice + stateSize else Nat.max min 1 * size + choice
    | some max =>
      if min = max then min * size
      else
        let needed := if min = 0 then (if max = 1 then 0 else stateSize) else min * size
        needed + stateSize + (max - min) * (choice + size)
  | .alt branches =>
    match branches.mapM Part.text? with
    | some texts =>
      let texts := texts.map (textBytes backward)
      stateSize + choiceSize ((texts.map List.length).foldl max 0 + 1) texts
    | none => 2 * stateSize + edgeSize * branches.length + Part.sizeOfEach backward branches

/-- The room for parts one after another. -/
def Part.sizeOfAll (backward : Bool) : List Part → Nat
  | [] => stateSize
  | [p] => p.size backward
  | p :: rest => p.size backward + sizeOfAll backward rest

/-- The room for alternatives. -/
def Part.sizeOfEach (backward : Bool) : List (List Part) → Nat
  | [] => 0
  | branch :: rest => sizeOfAll backward branch + sizeOfEach backward rest

end

/-- The room for the automaton of a pattern. It can begin at any place of a text, and it has a state
for the end; forwards it also notes where the match begins and ends. -/
def automatonSize (backward : Bool) (parts : List Part) : Nat :=
  let anywhere := 3 * stateSize + 2 * edgeSize + rangeSize
  let bounds := if backward then 0 else 2 * stateSize
  anywhere + bounds + Part.sizeOfAll backward parts + stateSize

/-- The most room that an automaton may take: ten mebibytes. -/
def sizeLimit : Nat := 10485760

/-- The number of texts from which on a choice between them is searched for without automata. -/
def textListLength : Nat := 3000

/-- Whether a pattern is nothing but a choice between many texts. -/
def Part.isTextList : List Part → Bool
  | [.alt branches] => textListLength ≤ branches.length && branches.all (Part.text? · |>.isSome)
  | _ => false

/-- Whether a pattern needs no automata, or they stay within the limit. -/
def Tree.fits (t : Tree) : Bool :=
  let parts := t.parts
  Part.isTextList parts
    || (automatonSize false parts ≤ sizeLimit && automatonSize true parts ≤ sizeLimit)

end ModelLoading.Pattern
