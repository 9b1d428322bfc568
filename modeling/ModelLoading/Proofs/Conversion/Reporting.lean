import ModelLoading.Proofs.Conversion.Files
import ModelLoading.Proofs.Conversion.Refusals
import ModelLoading.Proofs.Conversion.Wording
import ModelLoading.Proofs.Edit.Clearing
import ModelLoading.Proofs.Edit.Reporting

/-!
# Reports of conversions

A conversion builds the same rules whether it reports or not, so both fail alike, and where they succeed the
text is the same and the report says what every rule did (`reported_runs_agree`). The only rule that always
counts puts the header in front; if no other counts anything, the header is all that was added. The conversion
of a file logs a record for every rule that found nothing, before it writes.
-/

namespace ModelLoading.Conversion

open Edit
open Files (FileSystem)

section Conversions

variable {t : Target} {v : Vocabulary} {p : Pipeline} {job : Job} {fs : FileSystem}

/-! ## 1. The header -/

/-- The first rule puts the header in front, and no other belongs to its stage. -/
theorem header_of_built (built : pipeline t v = .ok p) : ∃ others,
    p.rules = .insertFirst .header "preamble" (header t) :: others ∧ ∀ r ∈ others, r.stage ≠ .header := by
  obtain ⟨g, of, rfl⟩ := groups_of_built built
  refine ⟨(g.all t v).tail.flatten, rfl, fun r member same => ?_⟩
  obtain _ | ⟨-, staged⟩ := of.staged (t := t)
  have later := mem_of_staged staged member
  rw [same] at later
  exact absurd later (by decide)

/-- Hits belong to the stages of their rules. -/
theorem map_stage_runReporting (rules : List Rule) (s : List Char) :
    (Pipeline.runReporting rules s).2.map (·.stage) = rules.map (·.stage) := by
  induction rules generalizing s with
  | nil => rfl
  | cons r rules ih => exact congrArg (r.stage :: ·) (ih _)

/-- The header is reported as one match, and the other rules run on the source behind it. -/
theorem snd_report_of_split {others : List Rule}
    (split : p.rules = .insertFirst .header "preamble" (header t) :: others) (source : List Char) :
    (p.report source).2 = Pipeline.hit (.insertFirst .header "preamble" (header t)) 1 ::
      (Pipeline.runReporting others ((header t).toList ++ source)).2 := by
  rw [Pipeline.report, split]
  rfl

/-- If every rule but that of the header is reported with no match, the header is put in front and nothing
else happens. -/
theorem eq_header_append (built : pipeline t v = .ok p) (source : List Char)
    (none : ∀ h ∈ (p.report source).2, h.stage ≠ .header → h.matched = 0) :
    (p.report source).1 = (header t).toList ++ source := by
  obtain ⟨others, split, stages⟩ := header_of_built built
  refine (p.reported source).front [] others _ (header t) split rfl fun h member => ?_
  rw [snd_report_of_split split] at none member
  have stage : h.stage ∈ others.map (·.stage) :=
    map_stage_runReporting others _ ▸ List.mem_map_of_mem member
  obtain ⟨r, inside, same⟩ := List.mem_map.mp stage
  exact none h (List.mem_cons_of_mem _ member) (same ▸ stages r inside)

/-! ## 2. The log -/

theorem log_logAll {α : Type} (records : List Log.Record) (next : Files.Script α) (fs : FileSystem) :
    ((logAll records next).run fs).log = records ++ (next.run fs).log := by
  induction records with
  | nil => rfl
  | cons r records ih => exact congrArg (r :: ·) ih

/-- The conversion of a file logs the records of its report, and at most that it is done. -/
theorem log_convertFile {source : String} {text : List Char} {hits : List Hit}
    (read : fs.readText job.input = .ok source)
    (reporting : convertReporting job.target job.vocabulary source.toList = .ok (text, hits)) :
    ∃ others, ((convertFile job).run fs).log = missRecords hits ++ others ∧
      ∀ record ∈ others, record.level ≠ .debug := by
  rw [convertFile, Files.Script.run, read]
  simp only [convertLogging_eq, reporting, Except.map]
  rw [log_logAll]
  refine ⟨_, rfl, ?_⟩
  rw [Files.Script.run]
  cases fs.write job.output (Bytes.ofText (.ofList text)) with
  | error cause => simp [Files.Script.run]
  | ok changed => simp [Files.Script.run, convertedRecord]

/-! ## 3. Reported conversions -/

theorem convert_eq_map (t : Target) (v : Vocabulary) (source : List Char) :
    convert t v source = (convertReporting t v source).map Prod.fst := by
  cases built : pipeline t v with
  | error e =>
    rw [convertReporting_of_error built, convert, built]
    rfl
  | ok p =>
    rw [convertReporting_of_pipeline built, convert_of_pipeline built]
    rfl

theorem built_of_reporting {source text : List Char} {hits : List Hit}
    (reporting : convertReporting t v source = .ok (text, hits)) :
    ∃ p, pipeline t v = .ok p ∧ p.report source = (text, hits) := by
  cases built : pipeline t v with
  | error e => cases (convertReporting_of_error built source).symm.trans reporting
  | ok p => exact ⟨p, rfl, Except.ok.inj ((convertReporting_of_pipeline built source).symm.trans reporting)⟩

/-- **A reported run is a plain run, with an account of every rule.** So it is for any rules and any text. A
conversion that reports fails as one that does not, or gives the same text; where no rule but that of the header
has found anything, this is the header and the source. The conversion of a file logs exactly one debug record
for every rule that has found nothing. -/
theorem reported_runs_agree :
    (∀ (p : Pipeline) (s : List Char), p.Reported s (p.report s).1 (p.report s).2 (p.records s)) ∧
    (∀ (t : Target) (v : Vocabulary) (source : List Char),
      convert t v source = (convertReporting t v source).map Prod.fst ∧
      ∀ text hits, convertReporting t v source = .ok (text, hits) →
        (∃ p, pipeline t v = .ok p ∧ p.Reported source text hits (p.records source)) ∧
        ((∀ h ∈ hits, h.stage ≠ .header → h.matched = 0) → text = (header t).toList ++ source)) ∧
    ∀ (job : Job) (fs : FileSystem) (source : String) (text : List Char) (hits : List Hit),
      fs.readText job.input = .ok source →
      convertReporting job.target job.vocabulary source.toList = .ok (text, hits) →
      ∃ others, ((convertFile job).run fs).log = missRecords hits ++ others ∧
        ∀ record ∈ others, record.level ≠ .debug := by
  refine ⟨Pipeline.reported, fun t v source => ⟨convert_eq_map t v source, fun text hits reporting => ?_⟩,
    fun job fs source text hits => log_convertFile⟩
  obtain ⟨p, built, ran⟩ := built_of_reporting reporting
  have reported := p.reported source
  have only := eq_header_append built source
  rw [ran] at reported only
  exact ⟨⟨p, built, reported⟩, only⟩

/-! ## 4. Sources that are kept -/

/-- Rules that look for something that does not occur find nothing. -/
theorem silent_of_misses {rules : List Rule} {effects : List (String × Effect)} {s : List Char}
    (have_ : Have rules effects) (misses : ∀ e ∈ effects, e.2.toWording.misses s = true) :
    ∀ r ∈ rules, (r.change.apply s).2 = 0 := by
  intro r member
  obtain ⟨e, inside, has⟩ := have_.exists_effect member
  exact (Effect.eq_of_misses (misses _ inside) (has s)).2

/-- An effect finds nothing where there is no character of its text in front. -/
theorem misses_of_not_mem {c : Char} {e : Wording} {s : List Char} (front : c ∈ e.front) (lacks : c ∉ s) :
    e.misses s = true := by
  rw [Wording.misses, Bool.or_eq_true, decide_eq_true_eq]
  exact .inl fun occurs => lacks (occurs.mem front)

/-- A source in which the rules with the default names find nothing. -/
structure Inert (source : List Char) : Prop where
  colon : ':' ∉ source
  tab : '\t' ∉ source
  bracket : '[' ∉ source
  later : (laterTexts.val.map (·.2)).all (missesBehind source) = true

variable {source : List Char}

/-- Nothing is found in the preamble with such a source behind it. -/
theorem Inert.misses (inert : Inert source) :
    ∀ e ∈ classSignatureEffects t {} ++ (laterEffects {}).flatten,
      e.2.toWording.misses (preambleText.val ++ source) = true := by
  have lacks {c : Char} (outside : c ∉ preambleText.val) (absent : c ∉ source) :
      c ∉ preambleText.val ++ source :=
    fun inside => (List.mem_append.mp inside).elim outside absent
  intro e member
  rcases List.mem_append.mp member with signature | others
  · simp only [classSignatureEffects, List.mem_cons, List.not_mem_nil, or_false] at signature
    rcases signature with rfl | rfl | rfl
    · exact misses_of_not_mem (c := ':') (by simp [literalEffect, toString]) (lacks (by decide) inert.colon)
    · exact misses_of_not_mem (c := '\t') (by simp [literalEffect]) (lacks (by decide) inert.tab)
    · exact misses_of_not_mem (c := '[') (by simp [literalEffect]) (lacks (by decide) inert.bracket)
  · have wording : e.2.toWording ∈ laterTexts.val.map (·.2) := by
      rw [← later_wordings, Conversion.later, List.map_map]
      exact List.mem_map_of_mem (f := fun e : String × Effect => e.2.toWording) others
    exact misses_of_missesBehind wording (List.all_eq_true.mp inert.later _ wording)

/-- The rules for a valid target without a namespace find nothing in such a source. -/
theorem Inert.silent (inert : Inert source) (valid : t.validate = .ok ()) (none : t.namespaceName = none) :
    ∃ p, pipeline t {} = .ok p ∧ ∀ h ∈ (p.report source).2, h.stage ≠ .header → h.matched = 0 := by
  obtain ⟨rules, built, has⟩ := exists_rules valid
  have first : (header t).toList ++ source = preambleText.val ++ source := by
    rw [header, none]
    exact congrArg (· ++ source) preambleText.property
  refine ⟨_, built, fun h member other => ?_⟩
  rw [snd_report_of_split (p := ⟨headerRules t ++ (classSignatureRules t {} ++ rules)⟩) rfl, first] at member
  rcases List.mem_cons.mp member with rfl | later
  · exact absurd rfl other
  · exact Pipeline.silent_iff.mpr (silent_of_misses (classSignature_have.append has) inert.misses) h later

/-- Such a source becomes the preamble and the source. -/
theorem Inert.convert (inert : Inert source) (valid : t.validate = .ok ()) (none : t.namespaceName = none) :
    Conversion.convert t {} source = .ok (preamble.toList ++ source) := by
  obtain ⟨p, built, silent⟩ := inert.silent valid none
  have front : header t = preamble := by
    rw [header, none]
  rw [convert_of_pipeline built, eq_header_append built source silent, front]

/-- A file with a comment gets the preamble in front, and every rule but that of the header is logged. -/
theorem reported_runs_agree_of_comment :
    let t : Target := { payloadType := "Game.Model", className := "Loader", bytesFileName := "model.bytes" }
    let job : Job := { target := t, input := "in.cs", output := "out.cs" }
    let source := "// new Tower(T) is kept\n"
    let fs : FileSystem := { entries := [(["in.cs"], .file (Bytes.ofText source))] }
    ∃ hits others, convertReporting t {} source.toList = .ok (preamble.toList ++ source.toList, hits) ∧
      (∀ h ∈ hits, h.stage ≠ .header → h.matched = 0) ∧
      ((convertFile job).run fs).log = missRecords hits ++ others := by
  intro t job source fs
  have inert : Inert source.toList := ⟨by decide, by decide, by decide, by decide⟩
  obtain ⟨p, built, silent⟩ := inert.silent (t := t) (by decide) rfl
  have reporting := convertReporting_of_pipeline built source.toList
  have same : (p.report source.toList).1 = preamble.toList ++ source.toList :=
    ((reported_runs_agree.2.1 t {} source.toList).2 _ _ reporting).2 silent
  have there : fs.target "in.cs" = .ok ["in.cs"] := by decide
  have read : fs.readText "in.cs" = .ok source := FileSystem.readText_of_target there rfl
  obtain ⟨others, logged, -⟩ := reported_runs_agree.2.2 job fs source _ _ read reporting
  exact ⟨(p.report source.toList).2, others, by rw [reporting, ← same], silent, logged⟩

end Conversions

end ModelLoading.Conversion
