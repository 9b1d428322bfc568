import ModelLoading.Conversion.Target
import ModelLoading.Conversion.Vocabulary
import ModelLoading.Edit.Pipeline

/-!
# The rules of a conversion

`Conversion.pipeline` builds the rules that turn a generated loader into one that is written against
interop array types. There is a group of rules for each stage. Rules are literal wherever the
generated text is fixed; patterns are used only where a part of the text is carried over.

Configured names can hold any character. In the pattern of a rule they are escaped, and in its
template they are quoted, so that they always stand for themselves.
-/

namespace ModelLoading.Conversion

open Edit (Rule Stage Pipeline)

/-- The banner and the imports at the top of every converted loader. -/
def preamble : String :=
  "// Generated by FlatFileCodeGen + ModByteLoader\n" ++
  "using Il2CppInterop.Runtime;\n" ++
  "using Il2CppInterop.Runtime.InteropTypes;\n" ++
  "using Il2CppInterop.Runtime.InteropTypes.Arrays;\n" ++
  "using BTD_Mod_Helper.Extensions;\n" ++
  "using BTD_Mod_Helper.Api;\n" ++
  "using Il2Cpp;\n"

/-- The type whose constructor calls are turned into field assignments. -/
def targetType : String := "Il2CppAssets.Scripts.Models.Towers.TargetType"

/-- A written pattern for the arguments of a call, which may hold calls without calls in them. -/
def callArguments : String := "((?:[^()]|\\([^()]*\\))*)"

/-- A name inside a written pattern. -/
def escaped (name : String) : String := .ofList (Pattern.escape name.toList)

/-- A name inside a template. -/
def quoted (name : String) : String := .ofList (Pattern.Template.quote name.toList)

/-- The reference to the first group of a pattern inside a template. -/
def firstGroup : String := "$\x7b1\x7d"

/-! ## The groups of rules -/

/-- The text put in front of a converted loader: the preamble, and the namespace if there is one
that is not empty. -/
def header (t : Target) : String :=
  match t.namespaceName with
  | some name => if name.isEmpty then preamble else preamble ++ s!"\nnamespace {name};\n"
  | none => preamble

/-- Puts the header in front. -/
def headerRules (t : Target) : List Rule :=
  [.insertFirst .header "preamble" (header t)]

/-- Gives the class its name, its base class and the name of its bytes resource. -/
def classSignatureRules (t : Target) (v : Vocabulary) : List Rule :=
  [.literal .classSignature "class_signature"
      s!"{t.shortName}Loader : {v.generatorInterface}"
      s!"{t.className} : {v.baseLoader}<{t.payloadType}>",
    .literal .classSignature "public_members" "\tpublic" "\tprotected override",
    .literal .classSignature "object_table_field" "object[] m;"
      s!"protected override string BytesFileName => \"{t.bytesFileName}\";"]

/-- Moves namespaces to their interop counterparts. -/
def namespaceRules : Except Edit.Error (List Rule) := do
  return [
    ← Rule.pattern .namespaces "assets_root" "\\bAssets\\b" "Il2CppAssets",
    .literal .namespaces "system_usings" "using System" "using Il2CppSystem",
    (Rule.literal .namespaces "system_io" "using Il2CppSystem.IO" "using System.IO").runsAfter
      "system_usings also catches System.IO, which has no interop counterpart"]

/-- Constrains the generic reader methods. -/
def genericConstraintRules (v : Vocabulary) : Except Edit.Error (List Rule) := do
  return [
    ← Rule.pattern .genericConstraints "generic_reader_constraint"
      "private void (\\w+)<T>\\(\\) \\\x7b"
      ("private void " ++ firstGroup ++ "<T>() where T : " ++ quoted v.objectBase ++ " \x7b")]

/-- Replaces constructs that have a fixed text. -/
def literalConstructRules : List Rule :=
  [(Rule.literal .literalConstructs "samples_field"
      "samplesField.SetValue(v,(System.Single[]) m[br.ReadInt32()]);"
      "v.samples = (System.Single[]) m[br.ReadInt32()];").runsAfter
      "matches the System.Single[] cast before array types are rewritten",
    .literal .literalConstructs "target_type_element"
      ("arr[j] = new " ++ targetType ++ "(br.ReadString(), br.ReadBoolean())")
      ("arr[j] = new " ++ targetType ++
        " \x7bid = br.ReadString(), isActionable = br.ReadBoolean()\x7d"),
    .literal .literalConstructs "target_type_field"
      ("v.targetType = new " ++ targetType ++ "(br.ReadString(), br.ReadBoolean());")
      "v.targetType.id = br.ReadString();\n\t\t\tv.targetType.actionOnCreate = br.ReadBoolean();"]

/-- The array types that the generator writes for primitive elements, with the keyword of the
element and the interop array. -/
def primitiveArrays (v : Vocabulary) : List (String × String × String) :=
  [("System.String", "string", v.stringArray),
    ("System.Single", "float", v.structArrayOf "float"),
    ("System.Int32", "int", v.structArrayOf "int")]

/-- Replaces generic arrays and arrays of primitive elements. -/
def arrayTypeRules (v : Vocabulary) : Except Edit.Error (List Rule) := do
  let generic := v.referenceArrayOf "T"
  return [
    ← Rule.pattern .arrayTypes "generic_array" "\\bT\\[\\]" (quoted generic),
    .literal .arrayTypes "generic_array_new" "new T[br.ReadInt32()]"
      s!"new {generic}(br.ReadInt32())"] ++
    (primitiveArrays v).flatMap fun (qualified, keyword, interop) =>
      [(Rule.literal .arrayTypes s!"{keyword}_array" s!"{qualified}[]" interop).withOrigin .perName,
        (Rule.literal .arrayTypes s!"{keyword}_array_new" s!"new {keyword}[arrCount]"
          s!"new {interop}(arrCount)").withOrigin .perName]

/-- Replaces casts and type tests. -/
def castRules : Except Edit.Error (List Rule) := do
  return [
    .literal .casts "uninitialized_cast"
      "(T)FormatterServices.GetUninitializedObject(t)"
      "FormatterServices.GetUninitializedObject(t).Cast<T>()",
    ← Rule.pattern .casts "typeof" "typeof\\(([A-Z][^()]*)\\)" ("Il2CppType.Of<" ++ firstGroup ++ ">()")]

/-- Replaces sized and unsized arrays of the listed types. -/
def domainArrayRules (v : Vocabulary) : List Rule :=
  (v.references.map (fun name => (name, v.referenceArrayOf name)) ++
      v.structs.map (fun name => (name, v.structArrayOf name))).flatMap fun (name, interop) =>
    [(Rule.literal .domainArrays s!"domain_array_new:{name}" s!"{name}[arrCount]"
        s!"{interop}(arrCount)").withOrigin .perName,
      (Rule.literal .domainArrays s!"domain_array:{name}" s!"{name}[]" interop).withOrigin .perName]

/-- Turns reference arrays of one enum type back into native arrays. -/
def enumArrayRulesFor (stage : Stage) (group reason : String) (v : Vocabulary) (name : String) :
    Except Edit.Error (List Rule) := do
  let interop := v.referenceArrayOf name
  let sized ← Rule.pattern stage s!"{group}_new:{name}"
    (escaped interop ++ "\\(" ++ callArguments ++ "\\)")
    (quoted name ++ "[" ++ firstGroup ++ "]")
  return [
    (sized.withOrigin .perName).runsAfter reason,
    ((Rule.literal stage s!"{group}:{name}" interop s!"{name}[]").withOrigin .perName).runsAfter
      reason]

/-- Turns reference arrays of the enum types back into native arrays. -/
def enumArrayRules (stage : Stage) (group reason : String) (v : Vocabulary) :
    Except Edit.Error (List Rule) := do
  return (← v.enums.mapM (enumArrayRulesFor stage group reason v)).flatten

/-- Converts the values that setters are given. -/
def setterArgumentRules : Except Edit.Error (List Rule) := do
  return [
    (← Rule.pattern .setterArguments "setter_arguments"
      "SetValue\\(v,br\\.Read(Int32|Single|Boolean)\\(\\)\\)"
      ("SetValue(v,br.Read" ++ firstGroup ++ "().ToIl2Cpp())")).withOrigin .enumerated]

/-- Converts the array casts that are left, and then reverts those of enum types. -/
def castSweepRules (v : Vocabulary) : Except Edit.Error (List Rule) := do
  return [
    ← Rule.pattern .castSweep "array_cast_sweep"
      "\\(([A-Z][\\w.]*(?:<[^()]*>)?(?:\\[\\])*)\\[\\]\\)"
      ("(" ++ quoted v.referenceArray ++ "<" ++ firstGroup ++ ">)")] ++
    (← enumArrayRules .castSweep "enum_array_recheck" "array_cast_sweep wraps enum casts too" v)

/-- Sends the construction of one asset reference type through the factory, and keeps its arrays
native. -/
def assetReferenceRulesFor (v : Vocabulary) (name : String) :
    Except Edit.Error (List Rule) := do
  let path := v.assetRefPath name
  let factory ← Rule.pattern .assetReferences s!"asset_factory:{name}"
    ("new " ++ escaped path ++ "\\((.+)\\)")
    (quoted v.assetFactory ++ quoted name ++ "(" ++ firstGroup ++ ")")
  return [
    factory.withOrigin .perName,
    ((Rule.literal .assetReferences s!"asset_array_cast:{name}" s!"({v.referenceArrayOf path})"
      s!"({path}[])").withOrigin .perName).runsAfter
      "asset references are never interop arrays"]

/-- The rules for all asset reference types. -/
def assetReferenceRules (v : Vocabulary) : Except Edit.Error (List Rule) := do
  return (← v.assetRefs.mapM (assetReferenceRulesFor v)).flatten

/-! ## The pipeline -/

/-- The groups of rules in the order in which they run. -/
def ruleGroups (t : Target) (v : Vocabulary) : Except Edit.Error (List (List Rule)) := do
  return [
    headerRules t,
    classSignatureRules t v,
    ← namespaceRules,
    ← genericConstraintRules v,
    literalConstructRules,
    ← arrayTypeRules v,
    ← castRules,
    domainArrayRules v,
    ← enumArrayRules .enumArrays "enum_array"
      "array and domain rules wrap enum element types too" v,
    ← setterArgumentRules,
    ← castSweepRules v,
    ← assetReferenceRules v]

/-- Adds groups of rules to a pipeline. -/
def addGroups (p : Pipeline) : List (List Rule) → Except Edit.Error Pipeline
  | [] => .ok p
  | group :: rest =>
    match p.extend group with
    | (p, .ok ()) => addGroups p rest
    | (_, .error e) => .error e

/-- The complete ordered rules of a conversion. -/
def pipeline (t : Target) (v : Vocabulary) : Except Error Pipeline := do
  t.validate
  let rules := do addGroups {} (← ruleGroups t v)
  rules.mapError .rule

/-- Converts a source text. -/
def convert (t : Target) (v : Vocabulary) (source : List Char) : Except Error (List Char) := do
  return (← pipeline t v).run source

/-- Converts a source text, reports what each rule did, and writes the records of the run. -/
def convertLogging (t : Target) (v : Vocabulary) (source : List Char) :
    Except Error (List Char × List Edit.Hit × List Log.Record) := do
  return Pipeline.runLogging (← pipeline t v).rules source

/-- Converts a source text and reports what each rule did. -/
def convertReporting (t : Target) (v : Vocabulary) (source : List Char) :
    Except Error (List Char × List Edit.Hit) := do
  let (text, hits, _) ← convertLogging t v source
  return (text, hits)

end ModelLoading.Conversion
