import ModelLoading.Loading.Scheduler
import ModelLoading.Resource.Memory

/-!
# Sessions

A session puts a system, a registry, a scheduler and resources in memory together and gives the
workers a fixed order: a dispatched load is carried to its end at once, except that the decoder of a
loader that is held back stops at its start until the loader is released.
-/

namespace ModelLoading.Loading

/-- A system with everything around it. -/
structure Session (ι Model : Type) where
  system : System ι Model
  registry : Registry ι := {}
  scheduler : Scheduler := {}
  resources : Resource.Memory
  /-- The names of resources that cannot be opened. -/
  locked : List String := []
  /-- The loaders whose decoders are held back on workers. -/
  held : List ι := []

namespace Session

variable {ι Model : Type} [DecidableEq ι]

/-- The resources as a source. -/
def source (s : Session ι Model) : Resource.Source :=
  s.resources.source.refusing s.locked (.other "locked")

/-- Adds or replaces a resource; whether it can be opened is decided anew. -/
def addResource (s : Session ι Model) (name : String) (data : Bytes) (lock : Bool) :
    Session ι Model :=
  let others := s.locked.filter (· ≠ name)
  { s with
    resources := s.resources.insert name data
    locked := if lock then name :: others else others }

/-- Registers a loader. -/
def register (s : Session ι Model) (i : ι) : Except Error Unit × Session ι Model :=
  match s.registry.register s.system i with
  | .ok (registry, system) => (.ok (), { s with registry, system })
  | .error e => (.error e, s)

/-- Acquires the bytes of one loader. -/
def acquire (s : Session ι Model) (i : ι) (m : Resource.Matching) :
    Except Error Nat × Session ι Model :=
  let (outcome, system) := s.system.acquire i s.source m
  (outcome, { s with system })

/-- Acquires the bytes of all registered loaders. -/
def acquireAll (s : Session ι Model) : Nat × Session ι Model :=
  let (n, system) := s.registry.acquireAll s.source s.system
  (n, { s with system })

/-- Finishes a run unless its decoder is at work and held back. -/
def proceed (held : List ι) (s : System ι Model) (r : Run ι) : System ι Model :=
  if r.isDecoding ∧ held.contains r.loader then s else s.finish r

/-- Lets a worker start on its dispatched load and go on as far as it is not held back. -/
def runWork (held : List ι) (s : System ι Model) (w : Work ι) : System ι Model :=
  match s.work w with
  | (some r, s) => proceed held s r
  | (none, s) => s

/-- One tick of the scheduler, after which the workers go on as far as they are not held back. -/
def advance (s : Session ι Model) : Tick ι × Session ι Model :=
  let (tick, scheduler, system) := s.scheduler.advance s.registry s.system
  (tick, { s with scheduler, system := system.queue.foldl (runWork s.held) system })

/-- Ticks until the loading settles. -/
def settle (s : Session ι Model) : Tick ι × Session ι Model :=
  let (tick, scheduler, system) := s.scheduler.settle s.registry s.system
  (tick, { s with scheduler, system })

/-- Holds a loader back no longer; its run goes on to the end. -/
def release (s : Session ι Model) (i : ι) : Session ι Model :=
  let held := s.held.filter (· ≠ i)
  let runs := s.system.runs.filter (·.loader = i)
  { s with held, system := runs.foldl (proceed held) s.system }

/-- Completes the task of a loader and returns it. -/
def completeTask (s : Session ι Model) (i : ι) : Option Task × Session ι Model :=
  match (s.system.loaders i).task with
  | some t => (s.system.tasks[t]?, { s with system := s.system.complete t })
  | none => (none, s)

/-- Takes what was logged: first by callers, then by workers. -/
def takeLog (s : Session ι Model) : List Log.Record × Session ι Model :=
  let (callers, workers) := s.system.log.partition (·.party = .caller)
  ((callers ++ workers).map fun e => e.event.record s.system.loaders,
    { s with system := { s.system with log := [] } })

/-- Takes another scheduler. -/
def renewScheduler (s : Session ι Model) (settings : Settings) : Session ι Model :=
  { s with scheduler := { settings } }

end Session

end ModelLoading.Loading
