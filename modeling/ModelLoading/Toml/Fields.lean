import ModelLoading.Toml.Value

/-!
# Reading values

How values become the data that a program works with. A record is read from a table by its keys, where
unknown keys are ignored, or from an array by the order of its fields, where further items are ignored.
-/

namespace ModelLoading.Toml

namespace Value

/-- A text. -/
def readText : Value → Except Error String
  | text s => .ok s
  | _ => .error (.wrongValue "a string")

/-- A truth value. -/
def readBoolean : Value → Except Error Bool
  | boolean b => .ok b
  | _ => .error (.wrongValue "a boolean")

/-- A list of texts. -/
def readTexts : Value → Except Error (List String)
  | array items => items.mapM readText
  | _ => .error (.wrongValue "a list of strings")

/-- Whether a value is an array or a table without content. -/
def isEmpty : Value → Bool
  | array items => items.isEmpty
  | table _ entries => entries.isEmpty
  | _ => false

/-- One of several choices by name. A table whose only key is the name may stand for the name, if the
key has no content. -/
def readChoice {α : Type} (choices : List (String × α)) (v : Value) : Except Error α := do
  let name ← match v with
    | text s => .ok s
    | table _ [(key, content)] =>
      if content.isEmpty then .ok key else .error (.wrongValue "nothing after a choice")
    | _ => .error (.wrongValue "a choice")
  match choices.find? (·.1 = name) with
  | some (_, choice) => .ok choice
  | none => .error (.wrongValue "one of the choices")

end Value

/-- The fields of a record. -/
structure Fields where
  get? : String → Option Value
  /-- Whether every field without a default has to be there. -/
  strict : Bool

namespace Fields

/-- The entries of a table as fields. -/
def ofEntries (es : Entries) : Fields := ⟨es.get?, false⟩

/-- The fields of a record whose fields have these names in order. A moment has no field. -/
def ofValue (names : List String) : Value → Except Error Fields
  | .table _ entries => .ok (ofEntries entries)
  | .array items => .ok ⟨fun key => ((names.zip items).find? (·.1 = key)).map (·.2), true⟩
  | .tables elements =>
    let items := elements.map (Value.table .header)
    .ok ⟨fun key => ((names.zip items).find? (·.1 = key)).map (·.2), true⟩
  | .moment _ => .ok (ofEntries [])
  | _ => .error (.wrongValue "a table")

variable {α : Type}

/-- A field that may be absent. -/
def optional (f : Fields) (key : String) (read : Value → Except Error α) :
    Except Error (Option α) :=
  match f.get? key with
  | some v => (read v).map some
  | none => if f.strict then .error (.missingKey key) else .ok none

/-- A field that must be there. -/
def required (f : Fields) (key : String) (read : Value → Except Error α) : Except Error α :=
  match f.get? key with
  | some v => read v
  | none => .error (.missingKey key)

/-- A field that has a default. -/
def withDefault (f : Fields) (key : String) (read : Value → Except Error α) (default : α) :
    Except Error α :=
  match f.get? key with
  | some v => read v
  | none => .ok default

end Fields

end ModelLoading.Toml
