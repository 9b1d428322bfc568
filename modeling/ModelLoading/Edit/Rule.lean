import ModelLoading.Edit.Stage
import ModelLoading.Pattern.Template
import ModelLoading.Text.Split

/-!
# Rules

A rule is a named change to a whole text that belongs to a stage. `Change.apply` makes the change
and counts the places it was made at; where it finds nothing, the text stays as it is and the count
is zero.
-/

namespace ModelLoading.Edit

open Pattern (Regex)

/-- A change to a text. -/
inductive Change where
  /-- Puts a text in front. -/
  | insertFirst (text : String)
  /-- Replaces every occurrence of a text. -/
  | literal (what replacement : String)
  /-- Replaces every match of a pattern by a template. -/
  | pattern (regex : Regex) (template : String)
  deriving DecidableEq, Repr

/-- The changed text, and the number of places that were changed. -/
def Change.apply : Change → List Char → List Char × Nat
  | insertFirst text, s => (text.toList ++ s, 1)
  | literal what replacement, s =>
    (Text.replaceAll what.toList replacement.toList s, Text.occurrences what.toList s)
  | pattern regex template, s => (regex.replaceAll template.toList s, regex.count s)

/-- How a rule came to be. -/
inductive Origin where
  /-- Written out as exact text. -/
  | literal
  /-- Written as a pattern. -/
  | pattern
  /-- One pattern for several listed names. -/
  | enumerated
  /-- Made once for each name of a list. -/
  | perName
  deriving DecidableEq, Repr

/-- The name of an origin in reports. -/
def Origin.label : Origin → String
  | literal => "literal"
  | pattern => "pattern"
  | enumerated => "enumerated"
  | perName => "per_name"

/-- A named change that belongs to a stage. -/
structure Rule where
  name : String
  stage : Stage
  origin : Origin
  change : Change
  /-- Why the rule must run after earlier ones. -/
  after : Option String := none
  deriving DecidableEq, Repr

/-- Why rules are refused. -/
inductive Error where
  /-- The pattern of a rule cannot be read. -/
  | pattern (rule : String) (cause : Pattern.SyntaxError)
  /-- A rule was added after a rule of a later stage. -/
  | stageOrder (rule : String) (stage previous : Stage)
  deriving DecidableEq, Repr

/-- The wording of a refusal. -/
def Error.message : Error → String
  | pattern rule cause => s!"Invalid pattern for rule '{rule}': {cause.message}"
  | stageOrder rule stage previous =>
    s!"Rule '{rule}' belongs to stage {stage.name} but follows stage {previous.name}"

namespace Rule

/-- A rule that replaces a text by another. -/
def literal (stage : Stage) (name what replacement : String) : Rule :=
  { name, stage, origin := .literal, change := .literal what replacement }

/-- A rule that replaces the matches of a written pattern by a template. -/
def pattern (stage : Stage) (name source template : String) : Except Error Rule :=
  match Regex.parse source with
  | .ok regex => .ok { name, stage, origin := .pattern, change := .pattern regex template }
  | .error cause => .error (.pattern name cause)

/-- A rule that puts a text in front. -/
def insertFirst (stage : Stage) (name text : String) : Rule :=
  { name, stage, origin := .literal, change := .insertFirst text }

/-- The same rule with another origin. -/
def withOrigin (r : Rule) (origin : Origin) : Rule := { r with origin }

/-- The same rule with a reason why it runs after earlier ones. -/
def runsAfter (r : Rule) (reason : String) : Rule := { r with after := some reason }

end Rule

end ModelLoading.Edit
