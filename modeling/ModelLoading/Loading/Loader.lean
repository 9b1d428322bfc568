import ModelLoading.Decode.Error
import ModelLoading.Bytes
import ModelLoading.Loading.Phase
import ModelLoading.Loading.Task

/-!
# Loaders

A loader turns the bytes of one file into a model, once. It keeps the bytes from the moment they are
given to it until its run starts, and then the model or the text of the failure. A run has a start,
which takes the bytes, and a finish, which keeps the outcome; other operations may come in between.
-/

namespace ModelLoading.Loading

/-- A loader for one model. -/
structure Loader (Model : Type) where
  name : String
  /-- The name of the bytes file. -/
  file : String
  /-- Makes the model from the bytes. -/
  decode : Bytes → Except Decode.Fault Model
  phase : Phase := .pending
  /-- Whether a run was ever started. -/
  started : Bool := false
  /-- The bytes to load. -/
  bytes : Option Bytes := none
  result : Option Model := none
  failure : Option String := none
  /-- The background task of the load. -/
  task : Option TaskId := none

namespace Loader

variable {Model : Type}

/-- Whether the load has ended. -/
def isLoaded (l : Loader Model) : Bool := l.phase.isTerminal

/-- Whether the loader waits to be run: it is pending and has bytes. -/
def isEligible (l : Loader Model) : Bool := l.phase = .pending ∧ l.bytes.isSome

/-- Gives bytes to a pending loader, in place of those it has; any other loader ignores them. -/
def giveBytes (l : Loader Model) (data : Bytes) : Loader Model :=
  if l.phase = .pending then { l with bytes := some data } else l

/-- Starts the run: the bytes it takes, and the loader without them. There is no second run, and no
run of a loader that has ended. -/
def start (l : Loader Model) : Option (Option Bytes × Loader Model) :=
  if l.isLoaded ∨ l.started then none
  else some (l.bytes, { l with started := true, phase := l.phase.moveTo .loading, bytes := none })

/-- What a run comes to with the bytes it took. -/
def outcome (l : Loader Model) : Option Bytes → Except String Model
  | some data =>
    match l.decode data with
    | .ok model => .ok model
    | .error fault => .error fault.message
  | none => .error "no bytes to load"

/-- Keeps what a run came to. -/
def finish (l : Loader Model) : Except String Model → Loader Model
  | .ok model => { l with result := some model, phase := l.phase.moveTo .succeeded }
  | .error reason => { l with failure := some reason, phase := l.phase.moveTo .failed }

/-- Makes the loader fail without a run. -/
def fail (l : Loader Model) (reason : String) : Loader Model :=
  { l with bytes := none, failure := some reason, phase := l.phase.moveTo .failed }

/-- Notes the background task that is to run the loader. -/
def assign (l : Loader Model) (task : TaskId) : Loader Model :=
  { l with task := some task, phase := l.phase.moveTo .loading }

/-- Undoes `assign` for a task that could not start. -/
def unassign (l : Loader Model) : Loader Model :=
  { l with
    task := none
    phase := if l.phase = .loading then l.phase.moveTo .pending else l.phase }

/-- The description of a loader. -/
def describe (l : Loader Model) : String :=
  let bytes := match l.bytes with
    | some data => s!"Some({data.length})"
    | none => "None"
  s!"ByteLoader \x7b name: {Text.quoted l.name}, bytes_file_name: {Text.quoted l.file}, state: {l.phase.name}, bytes: {bytes} \x7d"

end Loader

end ModelLoading.Loading
