import ModelLoading.CommandLine.Arguments
import ModelLoading.Conversion.File

/-!
# The command line

The command line converts one file: as a job file says, or as its arguments say. It may write a report
of what the rules did.
-/

namespace ModelLoading.CommandLine

open Conversion (Job Report)
open Files (Script)

/-- How the program is called. -/
def usage : List String :=
  ["usage: void_loader_convert --config <file.toml> [--report <file.json>]",
    "void_loader_convert <input> <output> --type <payload> --class <name> --bytes <file> [--namespace <ns>] [--report <file.json>]"]

/-- The record of something that the command line reports. -/
def record (level : Log.Level) (message : String) : Log.Record :=
  { level, topic := .commandLine, message }

/-- A value that must be there. -/
def required (value : Option String) (name : String) : Except Conversion.Error String :=
  match value with
  | some v => .ok v
  | none => .error (.missingField name)

namespace Arguments

/-- The job that the arguments spell out. -/
def spelledJob (a : Arguments) : Except Conversion.Error Job := do
  let input ← required a.positional[0]? "input"
  let output ← required a.positional[1]? "output"
  let payloadType ← required a.payloadType Flag.payloadType.word
  let className ← required a.className Flag.className.word
  let bytesFileName ← required a.bytesFile Flag.bytesFile.word
  return {
    target := { payloadType, className, bytesFileName, namespaceName := a.namespaceName }
    input, output }

/-- The job that the arguments ask for: that of a job file, if one is named. -/
def job (a : Arguments) : Script (Except Conversion.Error Job) :=
  match a.config with
  | some path => Job.load path
  | none => .done a.spelledJob

end Arguments

/-- Writes a report, if a path for it is given. -/
def writeReport (report : Report) : Option String → Script (Except Conversion.Error Unit)
  | none => .done (.ok ())
  | some path =>
    .write path report.toJson.print fun
      | .error cause => .done (.error (.io path cause))
      | .ok () => .log (record .info s!"Wrote rule report to {path}") (.done (.ok ()))

/-- The records about rules that changed nothing. -/
def missRecords (report : Report) : List Log.Record :=
  match report.misses.length with
  | 0 => []
  | n => [record .debug s!"{n} of {report.rules.length} rules matched nothing"]

/-- Carries out what the arguments ask for. -/
def convert (a : Arguments) : Script (Except Conversion.Error Unit) := do
  match ← a.job with
  | .error e => return .error e
  | .ok job =>
    match ← Conversion.convertFile job with
    | .error e => return .error e
    | .ok report => Conversion.logAll (missRecords report) (writeReport report a.report)

/-- How the program ends. -/
structure Exit where
  success : Bool
  /-- The lines for the standard output. -/
  output : List String := []
  /-- The lines for the error output, after the log. -/
  errors : List String := []
  deriving DecidableEq, Repr

/-- Runs the program with the words of the command line. -/
def run (words : List String) : Script Exit :=
  match Arguments.parse words with
  | .error e => .log (record .error e.message) (.done { success := false, errors := usage })
  | .ok a =>
    if a.help then .done { success := true, output := usage }
    else do
      match ← convert a with
      | .ok () => return { success := true }
      | .error e =>
        .log (record .error s!"Conversion failed: {e.message}") (.done { success := false })

end ModelLoading.CommandLine
