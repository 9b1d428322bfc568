import ModelLoading.Conversion.Target
import ModelLoading.Conversion.Vocabulary
import ModelLoading.Files.Script
import ModelLoading.Toml.Document
import ModelLoading.Toml.Fields

/-!
# Conversion jobs

A job says what to convert and how. It is written in TOML: the table `loader` holds the target and the
files, and the table `types` may replace parts of the vocabulary. Relative paths start at the directory
of the job's own file.
-/

namespace ModelLoading.Conversion

/-- What to convert and how. -/
structure Job where
  target : Target
  vocabulary : Vocabulary := {}
  /-- The path of the source text. -/
  input : String
  /-- The path of the converted text. -/
  output : String
  deriving DecidableEq, Repr

/-- The table `loader` of a job. -/
structure LoaderTable where
  payloadType : String
  className : String
  bytesFile : String
  namespaceName : Option String
  input : Option String
  output : Option String
  deriving DecidableEq, Repr

/-- The names of the fields of the table `loader` in order. -/
def LoaderTable.names : List String :=
  ["payload_type", "class_name", "bytes_file", "namespace", "input", "output"]

/-- Reads the table `loader`. -/
def LoaderTable.ofValue (v : Toml.Value) : Except Toml.Error LoaderTable := do
  let f ← Toml.Fields.ofValue names v
  return {
    payloadType := ← f.required "payload_type" (·.readText)
    className := ← f.required "class_name" (·.readText)
    bytesFile := ← f.required "bytes_file" (·.readText)
    namespaceName := ← f.optional "namespace" (·.readText)
    input := ← f.optional "input" (·.readText)
    output := ← f.optional "output" (·.readText) }

/-- The names of the fields of a vocabulary in order. -/
def Vocabulary.names : List String :=
  ["references", "structs", "enums", "asset_refs", "asset_ref_namespace", "asset_factory",
    "reference_array", "struct_array", "string_array", "object_base", "base_loader",
    "generator_interface"]

/-- Reads a vocabulary, in which every field has a default. -/
def Vocabulary.ofValue (v : Toml.Value) : Except Toml.Error Vocabulary := do
  let f ← Toml.Fields.ofValue names v
  let base : Vocabulary := {}
  return {
    references := ← f.withDefault "references" (·.readTexts) base.references
    structs := ← f.withDefault "structs" (·.readTexts) base.structs
    enums := ← f.withDefault "enums" (·.readTexts) base.enums
    assetRefs := ← f.withDefault "asset_refs" (·.readTexts) base.assetRefs
    assetRefNamespace :=
      ← f.withDefault "asset_ref_namespace" (·.readText) base.assetRefNamespace
    assetFactory := ← f.withDefault "asset_factory" (·.readText) base.assetFactory
    referenceArray := ← f.withDefault "reference_array" (·.readText) base.referenceArray
    structArray := ← f.withDefault "struct_array" (·.readText) base.structArray
    stringArray := ← f.withDefault "string_array" (·.readText) base.stringArray
    objectBase := ← f.withDefault "object_base" (·.readText) base.objectBase
    baseLoader := ← f.withDefault "base_loader" (·.readText) base.baseLoader
    generatorInterface :=
      ← f.withDefault "generator_interface" (·.readText) base.generatorInterface }

namespace Job

/-- Reads the two tables of a job. -/
def tables (text : String) : Except Toml.Error (LoaderTable × Vocabulary) := do
  let f := Toml.Fields.ofEntries (← Toml.parse text)
  let loader ← f.required "loader" LoaderTable.ofValue
  let vocabulary ← f.withDefault "types" Vocabulary.ofValue {}
  return (loader, vocabulary)

/-- Reads a job from a text; relative paths start at a base directory. -/
def parse (text base : String) : Except Error Job := do
  let (loader, vocabulary) ← (tables text).mapError .settings
  let target : Target := {
    payloadType := loader.payloadType
    className := loader.className
    bytesFileName := loader.bytesFile
    namespaceName := loader.namespaceName }
  target.validate
  match loader.input, loader.output with
  | none, _ => throw (.missingField "loader.input")
  | _, none => throw (.missingField "loader.output")
  | some input, some output =>
    return {
      target, vocabulary
      input := Files.Path.join base input
      output := Files.Path.join base output }

/-- Reads a job from a file. -/
def load (path : String) : Files.Script (Except Error Job) :=
  .readText path fun
    | .error cause => .done (.error (.io path cause))
    | .ok text => .done (parse text ((Files.Path.parent? path).getD ""))

end Job

end ModelLoading.Conversion
