import ModelLoading.Files.FileSystem
import ModelLoading.Log

/-!
# Scripts

A script is a computation that reads and writes texts in files and writes log records. It says what to
do and not how, so it can be carried out on a `FileSystem` as well as on real files.
-/

namespace ModelLoading.Files

/-- A computation that reads and writes files and logs. -/
inductive Script (α : Type) where
  /-- Ends with a value. -/
  | done (value : α)
  /-- Reads a file that holds a text. -/
  | readText (path : String) (next : Except IoError String → Script α)
  /-- Writes a text to a file. -/
  | write (path content : String) (next : Except IoError Unit → Script α)
  /-- Writes a log record. -/
  | log (record : Log.Record) (next : Script α)

namespace Script

/-- Goes on after a script with its value. -/
def andThen {α β : Type} : Script α → (α → Script β) → Script β
  | done v, f => f v
  | readText path next, f => .readText path fun r => (next r).andThen f
  | write path content next, f => .write path content fun r => (next r).andThen f
  | log record next, f => .log record (next.andThen f)

instance : Monad Script where
  pure := done
  bind := andThen

/-- What carrying out a script on a file system comes to. -/
structure Outcome (α : Type) where
  value : α
  files : FileSystem
  log : List Log.Record

/-- Carries out a script on a file system. A write that fails changes nothing. -/
def run {α : Type} : Script α → FileSystem → Outcome α
  | done value, files => { value, files, log := [] }
  | readText path next, files => (next (files.readText path)).run files
  | write path content next, files =>
    match files.write path (Bytes.ofText content) with
    | .ok changed => (next (.ok ())).run changed
    | .error e => (next (.error e)).run files
  | log record next, files =>
    let outcome := next.run files
    { outcome with log := record :: outcome.log }

end Script

end ModelLoading.Files
