import ModelLoading.Log
import ModelLoading.Pattern.Match
import ModelLoading.Text.Blank
import ModelLoading.Text.Split

/-!
# Log filters

A filter decides which log records are shown. It is written as a list of directives, separated by
commas: a level, a topic, or a topic with an equals sign and a level. A pattern that messages have to
contain may follow after a slash. Of the directives for a topic, the one with the longest name counts.
-/

namespace ModelLoading.CommandLine

/-- The rank of a level; more urgent levels come first. -/
def levelRank : Log.Level → Nat
  | .error => 1
  | .warn => 2
  | .info => 3
  | .debug => 4

/-- A bound on levels: records whose rank is greater are not shown. -/
abbrev Bound := Nat

/-- The bound that lets every record through. -/
def Bound.all : Bound := 5

/-- The bounds by name. -/
def boundNames : List (String × Bound) :=
  [("off", 0), ("error", 1), ("warn", 2), ("info", 3), ("debug", 4), ("trace", Bound.all)]

/-- The bound that a word names, in small or capital letters. -/
def bound? (w : List Char) : Option Bound := boundNames.lookup (.ofList (w.map Char.toLower))

/-- One directive of a filter. -/
structure Directive where
  /-- The start of the names of the topics that it is for; without one, it is for all. -/
  name : Option (List Char)
  bound : Bound
  deriving DecidableEq, Repr

/-- The length of the name of a directive. -/
def Directive.length (d : Directive) : Nat := d.name.elim 0 fun n => (String.ofList n).utf8ByteSize

/-- Whether a directive is for a topic. -/
def Directive.isFor (d : Directive) (topic : List Char) : Bool :=
  d.name.elim true (·.isPrefixOf topic)

/-- Which log records are shown. -/
structure LogFilter where
  directives : List Directive := []
  /-- What messages have to contain. -/
  pattern : Option Pattern.Regex := none

/-- Why a part of a filter is ignored. -/
inductive FilterError where
  /-- A directive has another form. -/
  | directive (text : List Char)
  /-- There is more than one slash. -/
  | slashes (filter : List Char)
  /-- The pattern is refused. -/
  | pattern (cause : String)
  deriving DecidableEq, Repr

/-- The warning about an ignored part. -/
def FilterError.message : FilterError → String
  | directive text => s!"warning: invalid logging spec '{String.ofList text}', ignoring it"
  | slashes filter =>
    s!"warning: invalid logging spec '{String.ofList filter}' (too many '/'s), ignoring it"
  | pattern cause => s!"warning: invalid regex filter - {cause}, ignoring it"

/-- Adds a directive, in the place of one with the same name if there is one. -/
def addDirective (d : Directive) : List Directive → List Directive
  | [] => [d]
  | other :: rest => if other.name = d.name then d :: rest else other :: addDirective d rest

/-- The directive that a text writes. -/
def directiveOf (text : List Char) : Except FilterError Directive :=
  match Text.pieces ['='] text with
  | [name] =>
    match bound? name with
    | some bound => .ok ⟨none, bound⟩
    | none => .ok ⟨some name, Bound.all⟩
  | [name, level] =>
    let level := Text.trim level
    if level.isEmpty then .ok ⟨some name, Bound.all⟩
    else
      match bound? level with
      | some bound => .ok ⟨some name, bound⟩
      | none => .error (.directive level)
  | _ => .error (.directive text)

/-- The directives that texts write one after another, and what is ignored. -/
def directivesOf : List (List Char) → List Directive → List Directive × List FilterError
  | [], ds => (ds, [])
  | text :: rest, ds =>
    if text.isEmpty then directivesOf rest ds
    else
      match directiveOf text with
      | .ok d => directivesOf rest (addDirective d ds)
      | .error e =>
        let (ds, errors) := directivesOf rest ds
        (ds, e :: errors)

namespace LogFilter

/-- Reads a filter; what cannot be read is ignored. -/
def parse (text : String) : LogFilter × List FilterError :=
  let parts := Text.pieces ['/'] text.toList
  let directives (list : List Char) := directivesOf ((Text.pieces [','] list).map Text.trim) []
  match parts with
  | [list] =>
    let (directives, errors) := directives list
    ({ directives }, errors)
  | [list, source] =>
    let (directives, errors) := directives list
    match Pattern.Regex.parse (.ofList source) with
    | .ok regex => ({ directives, pattern := some regex }, errors)
    | .error e => ({ directives }, errors ++ [.pattern e.message])
  | _ => ({}, [.slashes text.toList])

/-- The last of the directives with the longest name, among those for a topic. -/
def directiveFor? (f : LogFilter) (topic : List Char) : Option Directive :=
  let directives := if f.directives.isEmpty then [⟨none, 1⟩] else f.directives
  (directives.filter (·.isFor topic)).foldl (fun best d =>
    match best with
    | some b => if b.length ≤ d.length then some d else best
    | none => some d) none

/-- Whether a record is shown. -/
def shows (f : LogFilter) (r : Log.Record) : Bool :=
  (match f.directiveFor? r.topic.name.toList with
    | some d => levelRank r.level ≤ d.bound
    | none => false) &&
  f.pattern.elim true (·.occursIn r.message.toList)

/-- The filter when none is given. -/
def default : String := "info"

end LogFilter

end ModelLoading.CommandLine
