import ModelLoading.Loading.Settings
import ModelLoading.Loading.System

/-!
# The registry

The loaders that are loaded together, in the order in which they were registered. Names are unique,
and where resources are matched by suffix no name of a bytes file ends with another, since a resource
could then belong to two loaders.
-/

namespace ModelLoading.Loading

/-- Registered loaders in order. -/
structure Registry (ι : Type) where
  settings : Settings := {}
  entries : List ι := []
  deriving DecidableEq, Repr

namespace Registry

variable {ι Model : Type} [DecidableEq ι]

/-- Why a loader cannot be registered beside another one. -/
def conflict? (m : Resource.Matching) (existing new : Loader Model) : Option Error :=
  if existing.name = new.name then some (.duplicate new.name)
  else if m = .suffix ∧
      (m.selects new.file existing.file ∨ m.selects existing.file new.file) then
    some (.collision new.name new.file existing.name existing.file)
  else none

/-- Adds a loader at the end, unless it is in conflict with one before it. -/
def register (r : Registry ι) (s : System ι Model) (i : ι) :
    Except Error (Registry ι × System ι Model) :=
  match r.entries.findSome? fun j => conflict? r.settings.matching (s.loaders j) (s.loaders i) with
  | some e => .error e
  | none => .ok ({ r with entries := r.entries ++ [i] }, s.note .caller (.registered i))

/-- Acquires the bytes of a loader, if it is pending and has none: whether it got some. -/
def acquireOne (settings : Settings) (source : Resource.Source) (s : System ι Model) (i : ι) :
    Bool × System ι Model :=
  if (s.loaders i).phase ≠ .pending ∨ (s.loaders i).bytes.isSome then (false, s)
  else
    match s.acquire i source settings.matching with
    | (.ok _, s) => (true, s)
    | (.error e, s) =>
      if e.isAcquisition then
        let s := s.note .caller (.missing i e)
        (false, if settings.missing = .fail then s.fail i e.message else s)
      else (false, (s.note .caller (.unusable i e)).fail i e.message)

/-- Acquires the bytes of loaders one after another and counts those that got some. -/
def acquireEach (settings : Settings) (source : Resource.Source) :
    List ι → System ι Model → Nat × System ι Model
  | [], s => (0, s)
  | i :: rest, s =>
    let (got, s) := acquireOne settings source s i
    let (n, s) := acquireEach settings source rest s
    (n + got.toNat, s)

/-- Acquires the bytes of every pending loader that has none and counts those that got some. -/
def acquireAll (r : Registry ι) (source : Resource.Source) (s : System ι Model) :
    Nat × System ι Model :=
  acquireEach r.settings source r.entries s

/-- The registered loader of a name. -/
def get? (r : Registry ι) (s : System ι Model) (name : String) : Option ι :=
  r.entries.find? fun i => (s.loaders i).name = name

/-- The first loader that waits to be run. -/
def next? (r : Registry ι) (s : System ι Model) : Option ι :=
  r.entries.find? fun i => (s.loaders i).isEligible

/-- The number of loaders that have not ended. -/
def pendingCount (r : Registry ι) (s : System ι Model) : Nat :=
  r.entries.countP fun i => !(s.loaders i).isLoaded

/-- Whether every loader has ended. -/
def allLoaded (r : Registry ι) (s : System ι Model) : Bool :=
  r.entries.all fun i => (s.loaders i).isLoaded

end Registry

end ModelLoading.Loading
