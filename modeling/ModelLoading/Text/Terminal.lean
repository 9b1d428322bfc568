import ModelLoading.Text.Encoding

/-!
# Texts for a terminal

A text for a terminal may hold control characters and control sequences beside the characters that it
shows. A sequence begins with the escape character; a state machine over characters says how far it
reaches. `shown` leaves the characters that are not part of any.
-/

namespace ModelLoading.Text

/-- How far a sequence with parameters has come. -/
inductive SequencePart where
  /-- Nothing came yet. -/
  | start
  /-- Parameters. -/
  | parameters
  /-- Characters between the parameters and the last character. -/
  | intermediate
  deriving DecidableEq, Repr

/-- What a character of a text for a terminal belongs to. -/
inductive TerminalState where
  /-- The text itself. -/
  | text
  /-- A sequence of which there is the escape character only. -/
  | escape
  /-- A sequence of a few characters that has not come to the last one. -/
  | escapeIntermediate
  /-- A control sequence. -/
  | control (part : SequencePart)
  /-- The rest of a control sequence that is not well-formed. -/
  | malformed
  /-- The beginning of a device control string. -/
  | device (part : SequencePart)
  /-- A string up to its terminator. -/
  | string
  /-- An operating system command up to the bell. -/
  | command
  deriving DecidableEq, Repr

/-- Whether a character's code is in a closed range. -/
def hasCode (low high : Nat) (c : Char) : Bool := low ≤ c.toNat && c.toNat ≤ high

/-- Blanks that are shown: the tabulator, the line feed, the form feed and the carriage return. -/
def isShownBlank (c : Char) : Bool := c == '\t' || c == '\n' || c == '\x0c' || c == '\r'

/-- Whether a character of the text itself is shown. -/
def isShown (c : Char) : Bool := isShownBlank c || (0x20 ≤ c.toNat && c.toNat ≠ 0x7F)

/-- The part of a sequence with a parameter character or an intermediate one added; a parameter after
an intermediate character and a private mark after another parameter are not well-formed. -/
def SequencePart.next? (part : SequencePart) (c : Char) : Option SequencePart :=
  if hasCode 0x20 0x2F c then some .intermediate
  else
    match part with
    | .start => some .parameters
    | .parameters => if hasCode 0x30 0x3B c then some .parameters else none
    | .intermediate => none

namespace TerminalState

/-- The byte that ends a string. -/
def stringTerminator : Nat := 0x9C

/-- What the character after the escape character begins. -/
def afterEscape (c : Char) : TerminalState :=
  match c with
  | '[' => control .start
  | ']' => command
  | 'P' => device .start
  | 'X' | '^' | '_' => string
  | c =>
    if hasCode 0x20 0x2F c then escapeIntermediate
    else if hasCode 0x30 0x7E c then text
    else escape

/-- The state after a character. Two control characters end whatever there is, and the escape
character begins anew. -/
def step (s : TerminalState) (c : Char) : TerminalState :=
  if c = '\x18' ∨ c = '\x1a' then text
  else if c = '\x1b' then escape
  else
    match s with
    | text => text
    | escape => afterEscape c
    | escapeIntermediate => if hasCode 0x30 0x7E c then text else escapeIntermediate
    | control part =>
      if hasCode 0x20 0x3F c then ((part.next? c).map control).getD malformed
      else if hasCode 0x40 0x7E c then text
      else control part
    | malformed => if hasCode 0x40 0x7E c then text else malformed
    | device part =>
      if hasCode 0x20 0x3F c then ((part.next? c).map device).getD string
      else if hasCode 0x40 0x7E c then string
      else device part
    | string => if (encoded c.toNat).contains stringTerminator then text else string
    | command => if c = '\x07' then text else command

/-- Whether a character is shown where a state was reached. Strings and commands hide blanks too. -/
def shows (s : TerminalState) (c : Char) : Bool :=
  match s with
  | text => isShown c
  | escape | escapeIntermediate | control _ | malformed => isShownBlank c
  | device _ | string | command => false

end TerminalState

/-- The characters that are shown from a state on. A blank interrupts a sequence: what follows it is
shown as text up to the next control character, where the sequence goes on, unless a character
beyond ASCII was shown. -/
def shownFrom : (s : TerminalState) → (interrupted : Bool) → List Char → List Char
  | _, _, [] => []
  | s, interrupted, c :: rest =>
    if s.shows c || (interrupted && isShown c) then
      c :: shownFrom (if c.toNat < 0x80 then s else .text) true rest
    else shownFrom (s.step c) false rest

/-- The characters of a text that a terminal shows. -/
def shown (s : List Char) : List Char := shownFrom .text false s

end ModelLoading.Text
