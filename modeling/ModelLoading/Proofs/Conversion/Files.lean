import ModelLoading.Conversion.File
import ModelLoading.Proofs.Edit.Running
import ModelLoading.Proofs.Files.Writing

/-!
# Converting files

A conversion reads, prepares its rules, and writes, in this order; the first step that fails decides how it
ends (`FailsWith`). The only write is the last step, so a conversion that fails has changed nothing, and
one that succeeds has changed the output alone (`Converts`). Since everything was read before, this is so
even where the output is the source.
-/

namespace ModelLoading.Conversion

open Edit (Pipeline)
open Files (FileSystem IoError Location Script)

variable {α : Type} {job : Job} {fs : FileSystem}

/-! ## 1. What a conversion can come to -/

/-- How a conversion fails, by what it meets first. -/
inductive FailsWith (job : Job) (fs : FileSystem) : Error → Prop
  | source {cause : IoError} (unread : fs.readText job.input = .error cause) :
      FailsWith job fs (.io job.input cause)
  | rules {source : String} {e : Error} (read : fs.readText job.input = .ok source)
      (refused : pipeline job.target job.vocabulary = .error e) : FailsWith job fs e
  | output {source : String} {p : Pipeline} {cause : IoError}
      (read : fs.readText job.input = .ok source)
      (built : pipeline job.target job.vocabulary = .ok p)
      (unwritable : fs.target job.output = .error cause) : FailsWith job fs (.io job.output cause)

/-- The files after a conversion: those before it, but for the output, which holds the converted text of
the source as it was. -/
structure Converts (job : Job) (fs fs' : FileSystem) (source converted : String) (place : Location) :
    Prop where
  read : fs.readText job.input = .ok source
  result : convert job.target job.vocabulary source.toList = .ok converted.toList
  writable : fs.target job.output = .ok place
  replaced : fs.Replaced place (Bytes.ofText converted) fs'

/-- A conversion closes and opens no way. -/
theorem Converts.target_eq_ok_iff {fs' : FileSystem} {source converted path : String}
    {place l : Location} (h : Converts job fs fs' source converted place) :
    fs'.target path = .ok l ↔ fs.target path = .ok l :=
  h.replaced.target_eq_ok_iff (FileSystem.target_eq_ok_iff.mp h.writable).not_directory

/-- The converted text is what is read from the output. -/
theorem Converts.readText {fs' : FileSystem} {source converted : String} {place : Location}
    (h : Converts job fs fs' source converted place) : fs'.readText job.output = .ok converted :=
  FileSystem.readText_of_target (h.target_eq_ok_iff.mpr h.writable) h.replaced.file

/-- What a report says of the rules of a pipeline that ran on a text: one entry for each rule in order,
with the number of places that it changed. -/
def Reports (p : Pipeline) (source : List Char) (hits : List Edit.Hit) : Prop :=
  ∀ k : Nat, hits[k]? = p.rules[k]?.map fun r =>
    Pipeline.hit r (r.change.apply (Pipeline.run ⟨p.rules.take k⟩ source)).2

/-! ## 2. Steps -/

theorem run_logAll (records : List Log.Record) (next : Script α) (fs : FileSystem) :
    ((logAll records next).run fs).value = (next.run fs).value ∧
      ((logAll records next).run fs).files = (next.run fs).files := by
  induction records with
  | nil => exact ⟨rfl, rfl⟩
  | cons r records ih => exact ih

/-- A conversion that reports writes the records that its report calls for. -/
theorem convertLogging_eq (t : Target) (v : Vocabulary) (source : List Char) :
    convertLogging t v source =
      (convertReporting t v source).map fun answer => (answer.1, answer.2, Edit.missRecords answer.2) := by
  rw [convertReporting, convertLogging]
  cases pipeline t v with
  | error e => rfl
  | ok p => exact congrArg Except.ok (Pipeline.runLogging_eq p.rules source)

theorem convertReporting_of_pipeline {t : Target} {v : Vocabulary} {p : Pipeline}
    (built : pipeline t v = .ok p) (source : List Char) :
    convertReporting t v source = .ok (p.report source) := by
  rw [convertReporting, convertLogging, built]
  rfl

theorem convert_of_pipeline {t : Target} {v : Vocabulary} {p : Pipeline}
    (built : pipeline t v = .ok p) (source : List Char) :
    convert t v source = .ok (p.report source).1 := by
  rw [convert, built, Pipeline.report, Pipeline.fst_runReporting]
  rfl

theorem convertReporting_of_error {t : Target} {v : Vocabulary} {e : Error}
    (refused : pipeline t v = .error e) (source : List Char) :
    convertReporting t v source = .error e := by
  rw [convertReporting, convertLogging, refused]
  rfl

section Ends

variable {source : String} {converted : List Char} {rules : List Edit.Hit}
  (read : fs.readText job.input = .ok source)
  (reporting : convertReporting job.target job.vocabulary source.toList = .ok (converted, rules))
include read reporting

theorem run_of_unwritten {cause : IoError}
    (unwritten : fs.write job.output (Bytes.ofText (.ofList converted)) = .error cause) :
    ((convertFile job).run fs).value = .error (.io job.output cause) ∧
      ((convertFile job).run fs).files = fs := by
  rw [convertFile, Script.run, read]
  simp only [convertLogging_eq, reporting, Except.map]
  rw [(run_logAll _ _ fs).1, (run_logAll _ _ fs).2]
  simp only [Script.run, unwritten, and_self]

theorem run_of_written {changed : FileSystem}
    (written : fs.write job.output (Bytes.ofText (.ofList converted)) = .ok changed) :
    ((convertFile job).run fs).value =
        .ok ⟨job.input, job.output, job.target.className, rules⟩ ∧
      ((convertFile job).run fs).files = changed := by
  rw [convertFile, Script.run, read]
  simp only [convertLogging_eq, reporting, Except.map]
  rw [(run_logAll _ _ fs).1, (run_logAll _ _ fs).2]
  simp only [Script.run, written, and_self]

end Ends

/-! ## 3. Conversions -/

/-- How a conversion ends, and the files that it leaves. -/
inductive Ends (job : Job) (fs : FileSystem) : Except Error Report → FileSystem → Prop
  | fails {e : Error} (fails : FailsWith job fs e) : Ends job fs (.error e) fs
  | converts {fs' : FileSystem} {p : Pipeline} {source converted : String} {place : Location}
      {rules : List Edit.Hit} (built : pipeline job.target job.vocabulary = .ok p)
      (reporting : convertReporting job.target job.vocabulary source.toList =
        .ok (converted.toList, rules))
      (reports : Reports p source.toList rules) (converts : Converts job fs fs' source converted place) :
      Ends job fs (.ok ⟨job.input, job.output, job.target.className, rules⟩) fs'

theorem ends_convertFile (job : Job) (fs : FileSystem) :
    Ends job fs ((convertFile job).run fs).value ((convertFile job).run fs).files := by
  cases read : fs.readText job.input with
  | error cause =>
    have stops : (convertFile job).run fs = ⟨.error (.io job.input cause), fs, []⟩ := by
      rw [convertFile, Script.run, read]
      rfl
    rw [stops]
    exact .fails (.source read)
  | ok source =>
    cases built : pipeline job.target job.vocabulary with
    | error e =>
      have stops : (convertFile job).run fs = ⟨.error e, fs, []⟩ := by
        rw [convertFile, Script.run, read]
        simp only [convertLogging_eq, convertReporting_of_error built, Except.map]
        rfl
      rw [stops]
      exact .fails (.rules read built)
    | ok p =>
      have reporting := convertReporting_of_pipeline built source.toList
      have reports : Reports p source.toList (p.report source.toList).2 :=
        Pipeline.getElem?_runReporting p.rules source.toList
      have result := convert_of_pipeline built source.toList
      generalize p.report source.toList = answer at reporting reports result
      obtain ⟨converted, rules⟩ := answer
      cases written : fs.write job.output (Bytes.ofText (.ofList converted)) with
      | error cause =>
        obtain ⟨value, files⟩ := run_of_unwritten read reporting written
        rw [value, files]
        exact .fails (.output read built (FileSystem.write_eq_error_iff.mp written))
      | ok changed =>
        obtain ⟨value, files⟩ := run_of_written read reporting written
        obtain ⟨place, writable, replaced⟩ := FileSystem.replaced_of_write written
        rw [← String.toList_ofList (l := converted)] at reporting result
        rw [value, files]
        exact .converts built reporting reports ⟨read, result, writable, replaced⟩

/-- **A conversion of a file is all or nothing.** Either it fails, for the first of its steps that cannot
be taken, and every file is as it was; or the output holds exactly the converted text of what the source
held before, no other file has changed, and the report has one entry for each rule in order, with the
counts of the reported conversion. -/
theorem file_conversion_is_atomic (job : Job) (fs : FileSystem) :
    let o := (convertFile job).run fs
    (∃ e, o.value = .error e ∧ FailsWith job fs e ∧ o.files = fs) ∨
    ∃ report p source converted place, o.value = .ok report ∧
      pipeline job.target job.vocabulary = .ok p ∧
      Converts job fs o.files source converted place ∧
      o.files.readText job.output = .ok converted ∧
      convertReporting job.target job.vocabulary source.toList =
        .ok (converted.toList, report.rules) ∧
      Reports p source.toList report.rules ∧
      report = ⟨job.input, job.output, job.target.className, report.rules⟩ := by
  intro o
  have ends : Ends job fs o.value o.files := ends_convertFile job fs
  generalize o.value = value at ends
  generalize o.files = files at ends
  cases ends with
  | fails fails => exact .inl ⟨_, rfl, fails, rfl⟩
  | converts built reporting reports converts =>
    exact .inr ⟨_, _, _, _, _, rfl, built, converts, converts.readText, reporting, reports, rfl⟩

end ModelLoading.Conversion
