import ModelLoading.Conversion.Error
import ModelLoading.Text.Blank

/-!
# The target of a conversion

What a converted loader is called and what it loads.
-/

namespace ModelLoading.Conversion

/-- What a converted loader is called and what it loads. -/
structure Target where
  /-- The full name of the model type. -/
  payloadType : String
  /-- The name of the converted class. -/
  className : String
  /-- The resource that the loader reads. -/
  bytesFileName : String
  /-- The namespace of the converted class. -/
  namespaceName : Option String := none
  deriving DecidableEq, Repr

namespace Target

/-- The part of a dotted name after the last dot. -/
def lastSegment (s : List Char) : List Char := (s.reverse.takeWhile (· != '.')).reverse

/-- The name of the model type without its namespace. -/
def shortName (t : Target) : String := .ofList (lastSegment t.payloadType.toList)

/-- The required fields by name. -/
def requiredFields (t : Target) : List (String × String) :=
  [("payload_type", t.payloadType), ("class_name", t.className),
    ("bytes_file_name", t.bytesFileName)]

/-- Refuses a target for the first of its required fields that is blank. -/
def validate (t : Target) : Except Error Unit :=
  match t.requiredFields.find? fun (_, value) => Text.allBlank value with
  | some (field, _) => .error (.missingField field)
  | none => .ok ()

end Target

end ModelLoading.Conversion
