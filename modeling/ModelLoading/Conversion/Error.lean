import ModelLoading.Edit.Rule
import ModelLoading.Files.IoError
import ModelLoading.Text.Quoted
import ModelLoading.Toml.Error

/-!
# Failed conversions
-/

namespace ModelLoading.Conversion

/-- Why a conversion fails. -/
inductive Error where
  /-- A file cannot be read or written. -/
  | io (path : String) (cause : Files.IoError)
  /-- The settings of a conversion are malformed. -/
  | settings (cause : Toml.Error)
  /-- A rule is refused. -/
  | rule (cause : Edit.Error)
  /-- A required setting is absent or blank. -/
  | missingField (name : String)
  deriving DecidableEq, Repr

/-- The wording of a failure. -/
def Error.message : Error → String
  | io path cause => s!"IO error on {Text.quoted path}: {cause.message}"
  | settings cause => s!"TOML parse error: {cause.message}"
  | rule cause => cause.message
  | missingField name => s!"Missing required field: {name}"

end ModelLoading.Conversion
