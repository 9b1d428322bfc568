import ModelLoading.Conversion.Job
import ModelLoading.Conversion.Rules
import ModelLoading.Json.Value

/-!
# Conversion of files

A source file is read, converted, and written to an output file. Nothing is written unless the whole
conversion succeeded. The report names the files and tells what each rule did.
-/

namespace ModelLoading.Conversion

/-- What the conversion of a file did. -/
structure Report where
  /-- The path of the source text. -/
  input : String
  /-- The path of the converted text. -/
  output : String
  className : String
  /-- What each rule did, in order. -/
  rules : List Edit.Hit
  deriving DecidableEq, Repr

namespace Report

/-- The rules that changed nothing. -/
def misses (r : Report) : List Edit.Hit := Edit.misses r.rules

/-- What a rule did, in a written report. -/
def ruleValue (h : Edit.Hit) : Json.Value :=
  .object ([("rule", .text h.rule), ("stage", .text h.stage.label),
    ("kind", .text h.origin.label), ("matches", .number h.matched)] ++
    match h.after with
    | some reason => [("after", .text reason)]
    | none => [])

/-- The written report. -/
def toJson (r : Report) : Json.Value :=
  .object [("input", .text r.input), ("output", .text r.output),
    ("class_name", .text r.className), ("rules", .list (r.rules.map ruleValue))]

end Report

/-- The record of a converted file. -/
def convertedRecord (job : Job) : Log.Record :=
  { level := .info
    topic := .conversion
    message := s!"Converted {job.input} into {job.output} ({job.target.className})" }

/-- Writes log records one after another. -/
def logAll {α : Type} (records : List Log.Record) (next : Files.Script α) : Files.Script α :=
  records.foldr .log next

/-- Carries out a job. -/
def convertFile (job : Job) : Files.Script (Except Error Report) :=
  .readText job.input fun
    | .error cause => .done (.error (.io job.input cause))
    | .ok source =>
      match convertLogging job.target job.vocabulary source.toList with
      | .error e => .done (.error e)
      | .ok (converted, rules, records) =>
        logAll records <|
          .write job.output (.ofList converted) fun
            | .error cause => .done (.error (.io job.output cause))
            | .ok () =>
              .log (convertedRecord job) <| .done <| .ok
                { input := job.input, output := job.output, className := job.target.className,
                  rules }

end ModelLoading.Conversion
