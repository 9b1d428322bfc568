import ModelLoading.Text.Split
import ModelLoading.Text.Terminal

/-!
# Log records

What the program reports while it works is part of its answer: an operation returns the records it
writes, in order. A record has a level, the topic it belongs to, and a message. `Record.text` is its
written form, which holds no terminal controls.
-/

namespace ModelLoading.Log

/-- How urgent a record is. -/
inductive Level where
  | error
  | warn
  | info
  | debug
  deriving DecidableEq, Repr

/-- The part of the program that writes a record. -/
inductive Topic where
  /-- Loading of models in the background. -/
  | loading
  /-- Rules at work on a text. -/
  | editing
  /-- Conversion of a file. -/
  | conversion
  /-- The command line. -/
  | commandLine
  deriving DecidableEq, Repr

/-- The name of a topic in filters and in written records. -/
def Topic.name : Topic → String
  | loading => "byte_loader"
  | editing => "void_loader_convert::rule"
  | conversion => "void_loader_convert::pipeline"
  | commandLine => "void_loader_convert"

/-- The name of a level in written records, all of the same width. -/
def Level.label : Level → String
  | error => "ERROR"
  | warn => "WARN "
  | info => "INFO "
  | debug => "DEBUG"

/-- One record. -/
structure Record where
  level : Level
  topic : Topic
  message : String
  deriving DecidableEq, Repr

/-- The lines of a message; every line but the first is indented. -/
def Record.lines (r : Record) : List String :=
  match Text.pieces ['\n'] r.message.toList with
  | [] => []
  | first :: rest => .ofList first :: rest.map fun line => .ofList ("    ".toList ++ line)

/-- What stands before the message of a record that is written at a time. -/
def Record.heading (r : Record) (time : String) : String :=
  s!"[{time} {r.level.label} {r.topic.name}] "

/-- A record that is written at a time, with the end of its line: the characters of it that a terminal
shows. -/
def Record.text (r : Record) (time : String) : String :=
  let lines := "\n".intercalate r.lines
  .ofList (Text.shown (r.heading time ++ lines ++ "\n").toList)

end ModelLoading.Log
