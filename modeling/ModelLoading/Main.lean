import ModelLoading.CommandLine.LogFilter
import ModelLoading.CommandLine.Run
import Std.Time.Format

/-!
# The program

Carries out the command line on real files. Log records go to the error output.
-/

namespace ModelLoading

/-- The environment variable that holds the log filter. -/
def filterVariable : String := "RUST_LOG"

/-- The number of a system error, which may be reported with a minus sign. -/
def errorNumber (code : UInt32) : UInt32 := min code (0 - code)

/-- The reason of a failed access. -/
def causeOf (e : IO.Error) : Files.IoError :=
  match e with
  | .noFileOrDirectory .. => .notFound
  | .inappropriateType _ code _ =>
    if errorNumber code = 20 then .notDirectory else .isDirectory
  | .invalidArgument _ code _ =>
    if errorNumber code = 36 then .nameTooLong else .other (toString e)
  | _ => .other (toString e)

/-- Does something with a file and says why it fails. -/
def accessing {α : Type} (act : IO α) : IO (Except Files.IoError α) := do
  match ← act.toBaseIO with
  | .ok v => return .ok v
  | .error e => return .error (causeOf e)

/-- Reads a file that holds a text. -/
def readText (path : String) : IO (Except Files.IoError String) := do
  match ← accessing (IO.FS.readBinFile path) with
  | .ok content =>
    match String.fromUTF8? content with
    | some s => return .ok s
    | none => return .error .invalidText
  | .error e => return .error e

/-- Writes a record to the error output. -/
def writeRecord (r : Log.Record) : IO Unit := do
  let now := Std.Time.DateTime.ofTimestampWithZone (← Std.Time.Timestamp.now) Std.Time.TimeZone.GMT
  let time := now.format "uuuu-MM-dd'T'HH:mm:ss'Z'"
  IO.eprint (r.text time)

/-- Carries out a script on real files. -/
def perform {α : Type} (filter : CommandLine.LogFilter) : Files.Script α → IO α
  | .done value => return value
  | .readText path next => do perform filter (next (← readText path))
  | .write path content next => do
    perform filter (next (← accessing (IO.FS.writeFile path content)))
  | .log r next => do
    if filter.shows r then writeRecord r
    perform filter next

end ModelLoading

open ModelLoading in
/-- Runs the program. -/
def main (words : List String) : IO UInt32 := do
  let text := (← IO.getEnv filterVariable).getD CommandLine.LogFilter.default
  let (filter, warnings) := CommandLine.LogFilter.parse text
  for w in warnings do
    IO.eprintln w.message
  let exit ← perform filter (CommandLine.run words)
  for line in exit.output do
    IO.println line
  for line in exit.errors do
    IO.eprintln line
  return if exit.success then 0 else 1
