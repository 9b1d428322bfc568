import ModelLoading.Resource.Matching

/-!
# Settings of loading

The settings that the registry and the scheduler share.
-/

namespace ModelLoading.Loading

/-- What becomes of a loader whose bytes cannot be acquired. -/
inductive MissingPolicy where
  /-- The loader fails, so that the loading of all can come to an end. -/
  | fail
  /-- The loader stays pending; while it does, the loading of all never ends. -/
  | skip
  deriving DecidableEq, Repr

/-- The settings of loading. -/
structure Settings where
  /-- How the name of a bytes file selects a resource. -/
  matching : Resource.Matching := .suffix
  /-- What becomes of a loader whose bytes cannot be acquired. -/
  missing : MissingPolicy := .fail
  /-- Whether loaders are looked for again after everything was loaded. -/
  recheck : Bool := false
  /-- The name of background threads. -/
  threadName : String := "byte-loader"
  deriving DecidableEq, Repr

end ModelLoading.Loading
