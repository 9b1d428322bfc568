import ModelLoading.Loading.Error
import ModelLoading.Loading.Loader
import ModelLoading.Log

/-!
# Events of loading

Whatever loading reports is an event about a loader. An entry of the log is an event together with
the side it came from: a caller, or a worker in the background. The wording of events is in one
place, `Event.record`.
-/

namespace ModelLoading.Loading

/-- Something worth reporting, about loaders of an index type. -/
inductive Event (ι : Type) where
  /-- A listing of resources had something to report. -/
  | note (record : Log.Record)
  /-- A loader was registered. -/
  | registered (loader : ι)
  /-- A loader got the content of a resource. -/
  | acquired (loader : ι) (size : Nat) (resource : String)
  /-- Bytes came too late for a loader. -/
  | lateBytes (loader : ι)
  /-- The bytes of a loader cannot be acquired. -/
  | missing (loader : ι) (cause : Error)
  /-- Acquiring the bytes of a loader went wrong in another way. -/
  | unusable (loader : ι) (cause : Error)
  /-- A loader was to be run that had started or ended before. -/
  | notAgain (loader : ι) (phase : Phase)
  /-- The run of a loader ended with a model. -/
  | finished (loader : ι)
  /-- The run of a loader ended without a model. -/
  | failed (loader : ι) (reason : String)
  /-- A background task was started for a loader. -/
  | dispatched (loader : ι)
  /-- No thread could be started for the background task of a loader. -/
  | refused (loader : ι) (cause : Files.IoError)
  /-- All of so many loaders have ended. -/
  | allLoaded (count : Nat)
  deriving DecidableEq, Repr

namespace Event

variable {ι Model : Type}

/-- The record of an event. -/
def record (loaders : ι → Loader Model) : Event ι → Log.Record
  | note r => r
  | registered i =>
    ⟨.debug, .loading, s!"Registered byte loader {(loaders i).name} ({(loaders i).file})"⟩
  | acquired i size resource =>
    ⟨.debug, .loading, s!"{(loaders i).name} acquired {size} bytes from '{resource}'"⟩
  | lateBytes i =>
    ⟨.warn, .loading, s!"{(loaders i).name} already started loading, ignoring new bytes"⟩
  | missing i cause =>
    ⟨.warn, .loading,
      s!"{(loaders i).name}: {cause.message}. Did you forget to include it as a resource?"⟩
  | unusable i cause =>
    ⟨.error, .loading, s!"{(loaders i).name} could not acquire bytes: {cause.message}"⟩
  | notAgain i phase =>
    ⟨.debug, .loading, s!"{(loaders i).name} is already {phase.label}, not loading again"⟩
  | finished i => ⟨.info, .loading, s!"{(loaders i).name} finished loading bytes"⟩
  | failed i reason => ⟨.error, .loading, s!"{(loaders i).name} failed loading bytes: {reason}"⟩
  | dispatched i => ⟨.debug, .loading, s!"Dispatched byte loader {(loaders i).name}"⟩
  | refused i cause =>
    ⟨.error, .loading, s!"Failed to spawn load task for '{(loaders i).name}': {cause.message}"⟩
  | allLoaded count => ⟨.info, .loading, s!"All {count} byte loaders finished"⟩

/-- The loader whose run an event reports the end of. -/
def ended? : Event ι → Option ι
  | finished i | failed i _ => some i
  | _ => none

end Event

/-- Who does something: a caller, or a worker in the background. -/
inductive Party where
  | caller
  | worker
  deriving DecidableEq, Repr

/-- One entry of the log. -/
structure Entry (ι : Type) where
  party : Party
  event : Event ι
  deriving DecidableEq, Repr

end ModelLoading.Loading
