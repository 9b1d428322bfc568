import ModelLoading.Loading.Event
import ModelLoading.Resource.Source

/-!
# Systems of loaders

A system holds all that threads share: the loaders, the background tasks, the work that was
dispatched and has not started, the runs in progress, and the log. Every operation is one step on
this value, and a run is two steps, so that any interleaving of callers and workers is a sequence of
steps.
-/

namespace ModelLoading.Loading

/-- A load that was dispatched to a worker and has not started. -/
structure Work (ι : Type) where
  loader : ι
  task : TaskId
  deriving DecidableEq, Repr

/-- A run in progress. -/
structure Run (ι : Type) where
  loader : ι
  /-- The bytes that the run took. -/
  taken : Option Bytes
  /-- The task of the worker that runs; a caller's own run has none. -/
  task : Option TaskId
  deriving DecidableEq, Repr

/-- Who is running. -/
def Run.party {ι : Type} (r : Run ι) : Party :=
  match r.task with
  | some _ => .worker
  | none => .caller

/-- Whether the decoder is at work. -/
def Run.isDecoding {ι : Type} (r : Run ι) : Bool := r.taken.isSome

/-- All that threads share. -/
structure System (ι Model : Type) where
  loaders : ι → Loader Model
  tasks : List Task := []
  /-- Dispatched loads that have not started. -/
  queue : List (Work ι) := []
  /-- The runs in progress. -/
  runs : List (Run ι) := []
  log : List (Entry ι) := []

namespace System

variable {ι Model : Type} [DecidableEq ι]

/-- Changes one loader. -/
def update (s : System ι Model) (i : ι) (f : Loader Model → Loader Model) : System ι Model :=
  { s with loaders := fun j => if j = i then f (s.loaders i) else s.loaders j }

/-- Writes an entry to the log. -/
def note (s : System ι Model) (party : Party) (event : Event ι) : System ι Model :=
  { s with log := s.log ++ [⟨party, event⟩] }

/-- Adds a task that is not completed. -/
def newTask (s : System ι Model) (name : String) : TaskId × System ι Model :=
  (s.tasks.length, { s with tasks := s.tasks ++ [{ name }] })

/-- Completes a task. -/
def complete (s : System ι Model) (t : TaskId) : System ι Model :=
  { s with tasks := s.tasks.modify t Task.complete }

/-- Completes the task of a worker; a caller has none. -/
def completeOf (s : System ι Model) : Option TaskId → System ι Model
  | some t => s.complete t
  | none => s

/-- Whether a task is completed. -/
def isCompleted (s : System ι Model) (t : TaskId) : Bool :=
  match s.tasks[t]? with
  | some task => task.completed
  | none => false

/-- Gives bytes to a loader. -/
def giveBytes (s : System ι Model) (i : ι) (data : Bytes) : System ι Model :=
  if (s.loaders i).phase = .pending then s.update i (·.giveBytes data)
  else s.note .caller (.lateBytes i)

/-- Looks up the bytes of a loader in a source and gives them to it; returns their number. -/
def acquire (s : System ι Model) (i : ι) (source : Resource.Source) (m : Resource.Matching) :
    Except Error Nat × System ι Model :=
  let s := source.notes.foldl (fun s r => s.note .caller (.note r)) s
  match source.find (s.loaders i).file m with
  | .error e => (.error e, s)
  | .ok name =>
    match source.read name with
    | .error e => (.error e, s)
    | .ok data =>
      (.ok data.length, (s.note .caller (.acquired i data.length name)).giveBytes i data)

/-- Starts a run of a loader, on the worker of a task or for a caller. Where none may start, a worker
is done at once. -/
def start (s : System ι Model) (i : ι) (task : Option TaskId) :
    Option (Run ι) × System ι Model :=
  let r : Run ι := ⟨i, none, task⟩
  match (s.loaders i).start with
  | some (taken, l) =>
    let r := { r with taken }
    (some r, { s.update i fun _ => l with runs := s.runs ++ [r] })
  | none => (none, (s.note r.party (.notAgain i (s.loaders i).phase)).completeOf task)

/-- Ends a run in progress: keeps its outcome, reports it, and completes the task of its worker. -/
def finish (s : System ι Model) (r : Run ι) : System ι Model :=
  let outcome := (s.loaders r.loader).outcome r.taken
  let event := match outcome with
    | .ok _ => Event.finished r.loader
    | .error reason => Event.failed r.loader reason
  let s := (s.update r.loader (·.finish outcome)).note r.party event
  { s.completeOf r.task with runs := s.runs.erase r }

/-- A caller's own run, from its start to its end. -/
def load (s : System ι Model) (i : ι) : System ι Model :=
  match s.start i none with
  | (some r, s) => s.finish r
  | (none, s) => s

/-- Makes a loader fail without a run. -/
def fail (s : System ι Model) (i : ι) (reason : String) : System ι Model :=
  s.update i (·.fail reason)

/-- Notes a fresh task as the one that is to run a loader. -/
def assign (s : System ι Model) (i : ι) (name : String) : TaskId × System ι Model :=
  let (t, s) := s.newTask name
  (t, s.update i (·.assign t))

/-- Undoes `assign` for a task that could not start. -/
def unassign (s : System ι Model) (i : ι) : System ι Model := s.update i (·.unassign)

/-- Dispatches a loader to a worker under a fresh task of the loader's name. -/
def dispatch (s : System ι Model) (i : ι) : TaskId × System ι Model :=
  let (t, s) := s.assign i (s.loaders i).name
  (t, { s.note .caller (.dispatched i) with queue := s.queue ++ [⟨i, t⟩] })

/-- Gives up the dispatch of a loader for whose worker no thread starts: the fresh task is over at
once, and the loader is pending again. -/
def refuse (s : System ι Model) (i : ι) (cause : Files.IoError) : System ι Model :=
  let (t, s) := s.assign i (s.loaders i).name
  ((s.complete t).note .caller (.refused i cause)).unassign i

/-- Lets a worker start on its dispatched load. -/
def work (s : System ι Model) (w : Work ι) : Option (Run ι) × System ι Model :=
  { s with queue := s.queue.erase w }.start w.loader (some w.task)

/-- Lets a worker start on its dispatched load and carry it to the end. -/
def workToEnd (s : System ι Model) (w : Work ι) : System ι Model :=
  match s.work w with
  | (some r, s) => s.finish r
  | (none, s) => s

/-- Lets everybody carry on to the end: runs in progress finish, and dispatched loads are run. -/
def drain (s : System ι Model) : System ι Model :=
  let s := s.runs.foldl finish s
  s.queue.foldl workToEnd s

/-- Whether someone who asks for the result of a loader has to wait for its task. -/
def awaits (s : System ι Model) (i : ι) : Bool :=
  match (s.loaders i).task with
  | some t => !s.isCompleted t
  | none => false

/-- The result of a loader: nothing while its task goes on, and otherwise the model, if there is one. -/
def result? (s : System ι Model) (i : ι) : Option (Option Model) :=
  if s.awaits i then none else some (s.loaders i).result

end System

end ModelLoading.Loading
