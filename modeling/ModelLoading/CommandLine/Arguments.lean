/-!
# Arguments of the command line

An argument is a flag with the word after it as its value, whatever that word is; a request for help;
or the path of a file. Where a flag is repeated, its last value counts.
-/

namespace ModelLoading.CommandLine

/-- A flag that takes a value. -/
inductive Flag where
  /-- The file of a conversion job. -/
  | config
  /-- The full name of the model type. -/
  | payloadType
  /-- The name of the converted class. -/
  | className
  /-- The resource that the converted loader reads. -/
  | bytesFile
  /-- The namespace of the converted class. -/
  | namespaceName
  /-- The file for the report. -/
  | report
  deriving DecidableEq, Repr

namespace Flag

/-- All flags. -/
def all : List Flag := [config, payloadType, className, bytesFile, namespaceName, report]

/-- A flag as it is written. -/
def word : Flag → String
  | config => "--config"
  | payloadType => "--type"
  | className => "--class"
  | bytesFile => "--bytes"
  | namespaceName => "--namespace"
  | report => "--report"

/-- The flag that a word writes. -/
def ofWord? (w : String) : Option Flag := all.find? (·.word = w)

end Flag

/-- Why arguments are refused. -/
inductive ArgumentError where
  /-- No word follows a flag. -/
  | valueMissing (flag : Flag)
  /-- A word looks like a flag and is none. -/
  | unknownFlag (word : String)
  deriving DecidableEq, Repr

/-- The wording of a refusal. -/
def ArgumentError.message : ArgumentError → String
  | valueMissing flag => s!"{flag.word} requires a value"
  | unknownFlag word => s!"unknown flag {word}"

/-- What the arguments say. -/
structure Arguments where
  config : Option String := none
  /-- The words that are no flags. -/
  positional : List String := []
  payloadType : Option String := none
  className : Option String := none
  bytesFile : Option String := none
  namespaceName : Option String := none
  report : Option String := none
  /-- Whether help was asked for. -/
  help : Bool := false
  deriving DecidableEq, Repr

namespace Arguments

/-- Gives a flag a value. -/
def set (a : Arguments) (value : String) : Flag → Arguments
  | .config => { a with config := some value }
  | .payloadType => { a with payloadType := some value }
  | .className => { a with className := some value }
  | .bytesFile => { a with bytesFile := some value }
  | .namespaceName => { a with namespaceName := some value }
  | .report => { a with report := some value }

/-- Whether a word asks for help. -/
def asksHelp (w : String) : Bool := w = "-h" ∨ w = "--help"

/-- Whether a word has the form of a flag. -/
def looksLikeFlag (w : String) : Bool := ['-', '-'].isPrefixOf w.toList

/-- Adds what further words say. -/
def read (a : Arguments) : List String → Except ArgumentError Arguments
  | [] => .ok a
  | w :: rest =>
    match Flag.ofWord? w, rest with
    | some flag, value :: rest => read (a.set value flag) rest
    | some flag, [] => .error (.valueMissing flag)
    | none, rest =>
      if asksHelp w then read { a with help := true } rest
      else if looksLikeFlag w then .error (.unknownFlag w)
      else read { a with positional := a.positional ++ [w] } rest

/-- Reads arguments. -/
def parse (words : List String) : Except ArgumentError Arguments := read {} words

end Arguments

end ModelLoading.CommandLine
