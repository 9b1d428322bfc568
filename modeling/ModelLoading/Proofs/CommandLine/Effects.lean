import ModelLoading.CommandLine.Run
import ModelLoading.Proofs.Conversion.Reporting

/-!
# What the command line does to files

The program resolves a job, converts a file, and writes a report if it was given a path for one. Only
the last two steps change files, and the conversion is all or nothing. So a failure leaves every file as it
was, unless the report is what failed; and the report is written under a path that can be judged by the
files before the run, since the conversion closes and opens no way.
-/

namespace ModelLoading.CommandLine

open Conversion (Converts Job Report)
open Files (FileSystem IoError Location Script)

variable {a : Arguments} {job : Job} {fs fs' : FileSystem}

/-! ## 1. Steps -/

/-- Finding out what is to be done changes no file. -/
theorem files_job (a : Arguments) (fs : FileSystem) : (a.job.run fs).files = fs := by
  unfold Arguments.job
  cases a.config with
  | none => rfl
  | some path =>
    simp only [Job.load, Script.run]
    cases fs.readText path <;> rfl

/-- Where the report goes. -/
def Arguments.ReportsTo (a : Arguments) (fs : FileSystem) (place : Location) : Prop :=
  ∃ path, a.report = some path ∧ fs.target path = .ok place

/-- The report is written, or there is none to write. -/
inductive Reported (a : Arguments) (report : Report) (fs : FileSystem) : FileSystem → Prop
  | none (unwanted : a.report = none) : Reported a report fs fs
  | written {path : String} {place : Location} {fs' : FileSystem} (wanted : a.report = some path)
      (writable : fs.target path = .ok place)
      (replaced : fs.Replaced place (Bytes.ofText report.toJson.print) fs') : Reported a report fs fs'

theorem run_writeReport (a : Arguments) (report : Report) (fs : FileSystem) :
    let o := (writeReport report a.report).run fs
    (o.value = .ok () ∧ Reported a report fs o.files) ∨
    ∃ path cause, o.value = .error (.io path cause) ∧ o.files = fs ∧ a.report = some path ∧
      fs.target path = .error cause := by
  cases wanted : a.report with
  | none => exact .inl ⟨rfl, .none wanted⟩
  | some path =>
    cases written : fs.write path (Bytes.ofText report.toJson.print) with
    | ok changed =>
      obtain ⟨place, writable, replaced⟩ := FileSystem.replaced_of_write written
      refine .inl ⟨?_, ?_⟩ <;> simp only [writeReport, Script.run, written]
      exact .written wanted writable replaced
    | error cause =>
      have unwritable := FileSystem.write_eq_error_iff.mp written
      refine .inr ⟨path, cause, ?_, ?_, rfl, unwritable⟩ <;>
        simp only [writeReport, Script.run, written]

/-- How the conversion that arguments ask for ends. -/
inductive ConvertEnds (a : Arguments) (fs : FileSystem) : Except Conversion.Error Unit → FileSystem → Prop
  | unresolved {e : Conversion.Error} (unresolved : (a.job.run fs).value = .error e) :
      ConvertEnds a fs (.error e) fs
  | unconverted {job : Job} {e : Conversion.Error} (resolved : (a.job.run fs).value = .ok job)
      (fails : Conversion.FailsWith job fs e) : ConvertEnds a fs (.error e) fs
  | unreported {job : Job} {fs' : FileSystem} {source converted path : String} {place : Location}
      {cause : IoError} (resolved : (a.job.run fs).value = .ok job)
      (converts : Converts job fs fs' source converted place) (wanted : a.report = some path)
      (unwritable : fs'.target path = .error cause) : ConvertEnds a fs (.error (.io path cause)) fs'
  | converted {job : Job} {middle fs' : FileSystem} {source converted : String} {place : Location}
      {report : Report} (resolved : (a.job.run fs).value = .ok job)
      (made : ((Conversion.convertFile job).run fs).value = .ok report)
      (converts : Converts job fs middle source converted place)
      (reported : Reported a report middle fs') : ConvertEnds a fs (.ok ()) fs'

theorem ends_convert (a : Arguments) (fs : FileSystem) :
    ConvertEnds a fs ((convert a).run fs).value ((convert a).run fs).files := by
  simp only [convert, Script.run_bind_value, Script.run_bind_files, files_job]
  cases resolved : (a.job.run fs).value with
  | error e => exact .unresolved resolved
  | ok job =>
    simp only [Script.run_bind_value, Script.run_bind_files]
    have ends := Conversion.ends_convertFile job fs
    generalize made : ((Conversion.convertFile job).run fs).value = value at ends
    generalize ((Conversion.convertFile job).run fs).files = middle at ends
    cases ends with
    | fails fails => exact .unconverted resolved fails
    | converts built reporting reports converts =>
      dsimp only
      generalize (⟨_, _, _, _⟩ : Report) = report at made ⊢
      obtain ⟨value, files⟩ := Conversion.run_logAll (missRecords report)
        (writeReport report a.report) middle
      rw [value, files]
      rcases run_writeReport a report middle with
        ⟨value, reported⟩ | ⟨path, cause, value, files, wanted, unwritable⟩
      · rw [value]
        exact .converted resolved made converts reported
      · rw [value, files]
        exact .unreported resolved converts wanted unwritable

/-! ## 2. Files after a successful run -/

/-- The files after a run that converted a file: the output holds the converted text, if the report goes
elsewhere; the report is where it goes; and no other file has changed. -/
structure Leaves (a : Arguments) (job : Job) (report : Report) (converted : String) (place : Location)
    (fs fs' : FileSystem) : Prop where
  output : ¬a.ReportsTo fs place →
    fs'.node? place = some (.file (Bytes.ofText converted)) ∧ fs'.readText job.output = .ok converted
  report : ∀ path, a.report = some path → ∃ l, fs.target path = .ok l ∧
    fs'.node? l = some (.file (Bytes.ofText report.toJson.print))
  others : ∀ l, l ≠ place → ¬a.ReportsTo fs l → fs'.node? l = fs.node? l
  working : fs'.working = fs.working

theorem leaves_of_reported {middle : FileSystem} {report : Report} {source converted : String}
    {place : Location} (converts : Converts job fs middle source converted place)
    (reported : Reported a report middle fs') : Leaves a job report converted place fs fs' := by
  have first := converts.replaced
  cases reported with
  | none unwanted =>
    refine ⟨fun _ => ⟨first.file, converts.readText⟩, fun path wanted => ?_,
      fun l other _ => first.others l other, first.working⟩
    rw [unwanted] at wanted
    cases wanted
  | @written path reportPlace _ wanted writable second =>
    have goes := converts.target_eq_ok_iff.mp writable
    have free := (FileSystem.target_eq_ok_iff.mp writable).not_directory
    refine ⟨fun elsewhere => ?_, fun path' wanted' => ?_, fun l other elsewhere => ?_,
      second.working.trans first.working⟩
    · have apart : place ≠ reportPlace := by
        rintro rfl
        exact elsewhere ⟨path, wanted, goes⟩
      have file : fs'.node? place = some (.file (Bytes.ofText converted)) := by
        rw [second.others place apart, first.file]
      have output : fs'.target job.output = .ok place :=
        (second.target_eq_ok_iff free).mpr (converts.target_eq_ok_iff.mpr converts.writable)
      exact ⟨file, FileSystem.readText_of_target output file⟩
    · obtain rfl := Option.some.inj (wanted.symm.trans wanted')
      exact ⟨reportPlace, goes, second.file⟩
    · have apart : l ≠ reportPlace := by
        rintro rfl
        exact elsewhere ⟨path, wanted, goes⟩
      rw [second.others l apart, first.others l other]

/-! ## 3. Runs -/

/-- How a run fails before anything is written, by what it meets first, and how the program ends then. -/
inductive FailsEarly (words : List String) (fs : FileSystem) : Exit → Prop
  | arguments {e : ArgumentError} (refused : Arguments.parse words = .error e) :
      FailsEarly words fs { success := false, errors := usage }
  | job {a : Arguments} {e : Conversion.Error} (parsed : Arguments.parse words = .ok a) (work : a.help = false)
      (unresolved : (a.job.run fs).value = .error e) : FailsEarly words fs { success := false }
  | conversion {a : Arguments} {job : Job} {e : Conversion.Error} (parsed : Arguments.parse words = .ok a)
      (work : a.help = false) (resolved : (a.job.run fs).value = .ok job)
      (fails : Conversion.FailsWith job fs e) : FailsEarly words fs { success := false }

/-- A run gets as far as writing where there is a job, its source can be read, its rules can be built, and its output
can be written. -/
theorem not_failsEarly {words : List String} {source : String} {p : Edit.Pipeline} {place : Location} {exit : Exit}
    (parsed : Arguments.parse words = .ok a) (resolved : (a.job.run fs).value = .ok job)
    (read : fs.readText job.input = .ok source)
    (built : Conversion.pipeline job.target job.vocabulary = .ok p)
    (writable : fs.target job.output = .ok place) : ¬FailsEarly words fs exit := by
  intro fails
  cases fails with
  | arguments refused => cases parsed.symm.trans refused
  | job parsed' _ unresolved =>
    cases parsed.symm.trans parsed'
    cases resolved.symm.trans unresolved
  | conversion parsed' _ resolved' fails =>
    cases parsed.symm.trans parsed'
    cases resolved.symm.trans resolved'
    cases fails with
    | source unread => cases read.symm.trans unread
    | rules _ refused => cases built.symm.trans refused
    | output _ _ unwritable => cases writable.symm.trans unwritable

/-- **What a run of the program does to files.** A run that fails has changed nothing, where the arguments cannot
be read, make no job, or the conversion fails; or it has changed only the output, which then holds exactly the
converted text of the input, and this happens only where a report was asked for and could not be written. A run
that succeeds was asked for help and has changed nothing; or the output holds exactly the converted text of what
the input held before, unless the report went to the same place, and no file but output and report has changed. -/
theorem run_effects (words : List String) (fs : FileSystem) :
    let o := (run words).run fs
    (o.value.success = false ∧ o.files = fs ∧ FailsEarly words fs o.value) ∨
    (o.value.success = false ∧ ∃ a job source converted place path cause,
      Arguments.parse words = .ok a ∧ a.help = false ∧ (a.job.run fs).value = .ok job ∧
      Converts job fs o.files source converted place ∧
      o.files.readText job.output = .ok converted ∧
      a.report = some path ∧ o.files.target path = .error cause) ∨
    (o.value.success = true ∧ o.files = fs ∧ ∃ a, Arguments.parse words = .ok a ∧ a.help = true) ∨
    (o.value.success = true ∧ ∃ a job report source converted place,
      Arguments.parse words = .ok a ∧ a.help = false ∧ (a.job.run fs).value = .ok job ∧
      ((Conversion.convertFile job).run fs).value = .ok report ∧
      fs.readText job.input = .ok source ∧
      Conversion.convert job.target job.vocabulary source.toList = .ok converted.toList ∧
      fs.target job.output = .ok place ∧ Leaves a job report converted place fs o.files) := by
  intro o
  have ran : o = (run words).run fs := rfl
  unfold run at ran
  cases parsed : Arguments.parse words with
  | error e =>
    rw [parsed] at ran
    exact .inl (by rw [ran]; exact ⟨rfl, rfl, .arguments parsed⟩)
  | ok a =>
    rw [parsed] at ran
    dsimp only at ran
    cases help : a.help with
    | true =>
      rw [if_pos help] at ran
      exact .inr (.inr (.inl (by rw [ran]; exact ⟨rfl, rfl, a, rfl, help⟩)))
    | false =>
      rw [if_neg (by simp [help])] at ran
      have value := congrArg Script.Outcome.value ran
      have files := congrArg Script.Outcome.files ran
      rw [Script.run_bind_value] at value
      rw [Script.run_bind_files] at files
      have ends := ends_convert a fs
      generalize ((convert a).run fs).value = answer at ends value files
      generalize ((convert a).run fs).files = after at ends value files
      have failure : ∀ e, answer = .error e → o.value = { success := false } ∧ o.files = after := by
        rintro e rfl
        exact ⟨value, files⟩
      cases ends with
      | unresolved unresolved =>
        obtain ⟨exit, same⟩ := failure _ rfl
        rw [exit]
        exact .inl ⟨rfl, same, .job parsed help unresolved⟩
      | unconverted resolved fails =>
        obtain ⟨exit, same⟩ := failure _ rfl
        rw [exit]
        exact .inl ⟨rfl, same, .conversion parsed help resolved fails⟩
      | unreported resolved converts wanted unwritable =>
        obtain ⟨exit, same⟩ := failure _ rfl
        rw [exit, same]
        exact .inr (.inl ⟨rfl, a, _, _, _, _, _, _, rfl, help, resolved, converts,
          converts.readText, wanted, unwritable⟩)
      | converted resolved made converts reported =>
        have succeeds : o.value.success = true := congrArg Exit.success value
        have same : o.files = after := files
        rw [same]
        exact .inr (.inr (.inr ⟨succeeds, a, _, _, _, _, _, rfl, help, resolved, made,
          converts.read, converts.result, converts.writable, leaves_of_reported converts reported⟩))

/-- A run that converts a file, and is not asked for a report. -/
theorem run_effects_of_comment :
    let words := ["in.cs", "out.cs", "--type", "Game.Model", "--class", "Loader", "--bytes", "model.bytes"]
    let source := "// new Tower(T) is kept\n"
    let fs : FileSystem := { entries := [(["in.cs"], .file (Bytes.ofText source))] }
    let o := (run words).run fs
    o.value.success = true ∧ o.files.readText "out.cs" = .ok (Conversion.preamble ++ source) ∧
      o.files.node? ["in.cs"] = fs.node? ["in.cs"] := by
  intro words source fs
  have effects := run_effects words fs
  -- what the run comes to is read off its effects, and not computed
  generalize (run words).run fs = o at effects ⊢
  let target : Conversion.Target :=
    { payloadType := "Game.Model", className := "Loader", bytesFileName := "model.bytes" }
  let job : Job := { target, input := "in.cs", output := "out.cs" }
  let a : Arguments := { positional := ["in.cs", "out.cs"], payloadType := some "Game.Model",
                         className := some "Loader", bytesFile := some "model.bytes" }
  have parsed : Arguments.parse words = .ok a := rfl
  have resolved : (a.job.run fs).value = .ok job := rfl
  have there : fs.target "in.cs" = .ok ["in.cs"] := by decide
  have read : fs.readText "in.cs" = .ok source := FileSystem.readText_of_target there rfl
  have writable : fs.target "out.cs" = .ok ["out.cs"] := by decide
  have inert : Conversion.Inert source.toList := ⟨by decide, by decide, by decide, by decide⟩
  have valid : target.validate = .ok () := by decide
  obtain ⟨p, built, -⟩ := inert.silent valid rfl
  have unreported : ∀ l, ¬a.ReportsTo fs l := by
    rintro l ⟨path, wanted, -⟩
    cases wanted
  rcases effects with
    ⟨-, -, fails⟩ | ⟨-, a', job', -, -, -, path, -, parsed', -, -, -, -, wanted, -⟩ |
    ⟨-, -, a', parsed', help⟩ |
    ⟨success, a', job', report, source', converted, place, parsed', -, resolved', -, read', result, place', leaves⟩
  · exact absurd fails (not_failsEarly parsed resolved read built writable)
  · cases parsed.symm.trans parsed'
    cases wanted
  · cases parsed.symm.trans parsed'
    cases help
  · cases parsed.symm.trans parsed'
    cases resolved.symm.trans resolved'
    cases read.symm.trans read'
    cases writable.symm.trans place'
    obtain ⟨-, output⟩ := leaves.output (unreported _)
    have text : converted = Conversion.preamble ++ source := by
      rw [← String.toList_inj, String.toList_append]
      exact Except.ok.inj (result.symm.trans (inert.convert valid rfl))
    exact ⟨success, text ▸ output, leaves.others _ (by decide) (unreported _)⟩

end ModelLoading.CommandLine
