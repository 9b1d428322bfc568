import ModelLoading.Edit.Rule
import ModelLoading.Log

/-!
# Pipelines

A pipeline is a list of rules in the order in which they run. Rules are added at its end, and never
a rule of an earlier stage than the one before it. Each rule works on the whole text that the rules
before it left.

A run can be reported: one `Hit` for each rule, with the number of places it changed. Rules that
changed nothing are logged as they run.
-/

namespace ModelLoading.Edit

/-- What one rule did in one run. -/
structure Hit where
  rule : String
  stage : Stage
  origin : Origin
  /-- The number of places that were changed. -/
  matched : Nat
  /-- Why the rule runs after earlier ones. -/
  after : Option String
  deriving DecidableEq, Repr

/-- The record of a rule that changed nothing. -/
def Hit.missRecord (h : Hit) : Log.Record :=
  { level := .debug
    topic := .editing
    message :=
      match h.after with
      | some after => s!"Rule '{h.rule}' ({h.stage.name}) matched nothing (runs after: {after})"
      | none => s!"Rule '{h.rule}' ({h.stage.name}) matched nothing" }

/-- An ordered list of rules. -/
structure Pipeline where
  /-- The rules in the order in which they run. -/
  rules : List Rule := []
  deriving DecidableEq, Repr

namespace Pipeline

/-- Adds a rule at the end. -/
def push (p : Pipeline) (r : Rule) : Except Error Pipeline :=
  match p.rules.getLast? with
  | some previous =>
    if r.stage < previous.stage then .error (.stageOrder r.name r.stage previous.stage)
    else .ok ⟨p.rules ++ [r]⟩
  | none => .ok ⟨p.rules ++ [r]⟩

/-- Adds rules one after another. The rules before one that is refused stay in the pipeline. -/
def extend (p : Pipeline) : List Rule → Pipeline × Except Error Unit
  | [] => (p, .ok ())
  | r :: rest =>
    match p.push r with
    | .ok p => p.extend rest
    | .error e => (p, .error e)

/-- The rules of one stage. -/
def ofStage (p : Pipeline) (stage : Stage) : List Rule :=
  p.rules.filter (·.stage = stage)

/-- Runs every rule in order. -/
def run (p : Pipeline) (s : List Char) : List Char :=
  p.rules.foldl (fun s r => (r.change.apply s).1) s

/-- What a rule did, given the number of places it changed. -/
def hit (r : Rule) (matched : Nat) : Hit :=
  { rule := r.name, stage := r.stage, origin := r.origin, matched, after := r.after }

/-- Runs rules in order, reports what each did, and writes a record for each that changed nothing. -/
def runLogging : List Rule → List Char → List Char × List Hit × List Log.Record
  | [], s => (s, [], [])
  | r :: rest, s =>
    let (s, matched) := r.change.apply s
    let h := hit r matched
    let (s, hits, records) := runLogging rest s
    (s, h :: hits, if matched = 0 then h.missRecord :: records else records)

/-- Runs rules in order and reports what each did. -/
def runReporting (rules : List Rule) (s : List Char) : List Char × List Hit :=
  let (s, hits, _) := runLogging rules s
  (s, hits)

/-- Runs every rule in order and reports what each did. -/
def report (p : Pipeline) (s : List Char) : List Char × List Hit := runReporting p.rules s

/-- The records that are written while every rule runs in order. -/
def records (p : Pipeline) (s : List Char) : List Log.Record := (runLogging p.rules s).2.2

end Pipeline

/-- The hits of the rules that changed nothing. -/
def misses (hits : List Hit) : List Hit := hits.filter (·.matched = 0)

/-- The records that a report calls for: one for each rule that changed nothing, in order. -/
def missRecords (hits : List Hit) : List Log.Record := (misses hits).map Hit.missRecord

end ModelLoading.Edit
