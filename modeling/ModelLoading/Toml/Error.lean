/-!
# Refused TOML documents

Why a document is no TOML, or does not have the shape that its reader expects.
-/

namespace ModelLoading.Toml

/-- Why a document is refused. -/
inductive Error where
  /-- The text is not a document of the language. -/
  | syntaxError
  /-- Values are nested too deeply. -/
  | nesting
  /-- A key is defined twice, or a table is extended where that is not allowed. -/
  | duplicateKey (key : String)
  /-- A required key is absent. -/
  | missingKey (key : String)
  /-- The value of a key has a type or a form that does not fit. -/
  | wrongValue (expected : String)
  deriving DecidableEq, Repr

/-- The wording of a refusal. -/
def Error.message : Error → String
  | syntaxError => "invalid document"
  | nesting => "values are nested too deeply"
  | duplicateKey key => s!"duplicate key `{key}`"
  | missingKey key => s!"missing field `{key}`"
  | wrongValue expected => s!"invalid type or value, expected {expected}"

end ModelLoading.Toml
