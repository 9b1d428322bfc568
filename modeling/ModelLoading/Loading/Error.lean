import ModelLoading.Files.IoError
import ModelLoading.Text.Quoted
import ModelLoading.Toml.Error

/-!
# Failures around loading

Why bytes could not be acquired, a loader could not be registered, or settings could not be read.
-/

namespace ModelLoading.Loading

/-- Why an operation around loading fails. -/
inductive Error where
  /-- No resource of the owner is selected. -/
  | notFound (owner file : String)
  /-- Several resources of the owner are selected. -/
  | ambiguous (owner file : String) (candidates : List String)
  /-- The selected resource has no content. -/
  | empty (resource : String)
  /-- A loader of the same name is registered. -/
  | duplicate (loader : String)
  /-- One of two names of bytes files ends with the other, so that a resource could belong to both. -/
  | collision (loader file other otherFile : String)
  /-- A file or a resource cannot be used. -/
  | io (cause : Files.IoError)
  /-- The settings are malformed. -/
  | settings (cause : Toml.Error)
  deriving DecidableEq, Repr

namespace Error

/-- The wording of a failure. -/
def message : Error → String
  | notFound owner file => s!"Couldn't find bytes file '{file}' in module '{owner}'"
  | ambiguous owner file candidates =>
    s!"Bytes file '{file}' is ambiguous in module '{owner}': {Text.quotedList candidates}"
  | empty resource => s!"Resource '{resource}' is empty"
  | duplicate loader => s!"Loader '{loader}' is already registered"
  | collision loader file other otherFile =>
    s!"Bytes file '{file}' of loader '{loader}' collides with '{otherFile}' of loader '{other}'"
  | io cause => s!"IO error: {cause.message}"
  | settings cause => s!"TOML parse error: {cause.message}"

/-- Whether the failure means that bytes could not be acquired. -/
def isAcquisition : Error → Bool
  | notFound .. | ambiguous .. | empty .. | io .. => true
  | duplicate .. | collision .. | settings .. => false

end Error

end ModelLoading.Loading
