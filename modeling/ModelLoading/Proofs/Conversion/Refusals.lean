import ModelLoading.Proofs.Conversion.Building

/-!
# Refused targets

The rules of a conversion are refused for a blank field of the target. They are refused for nothing else, as
long as no pattern that is made for a name is too large (`refused_only_for_blank_fields`): every name is
escaped in the patterns, so none of them is malformed, and the groups of rules come in the order of their
stages, whichever of them are empty.
-/

namespace ModelLoading.Conversion

open Edit

/-- A text with something other than white space. -/
def Written (s : String) : Prop := ∃ c ∈ s.toList, Text.isBlank c = false

/-- The first of the required fields of a target that is blank. -/
def Target.FirstBlank (t : Target) (field : String) : Prop :=
  ∃ before value after, t.requiredFields = before ++ (field, value) :: after ∧
    (∀ earlier ∈ before, Written earlier.2) ∧ ¬Written value

section Targets

variable {t : Target} {v : Vocabulary} {s field : String} {e : Error}

theorem allBlank_eq_false_iff : Text.allBlank s = false ↔ Written s := by
  simp [Text.allBlank, Written]

theorem allBlank_iff : Text.allBlank s = true ↔ ¬Written s := by
  rw [← allBlank_eq_false_iff, Bool.not_eq_false]

theorem firstBlank_iff : t.FirstBlank field ↔ ∃ value,
    t.requiredFields.find? (fun (_, value) => Text.allBlank value) = some (field, value) := by
  simp only [List.find?_eq_some_iff_append, allBlank_iff, Bool.not_eq_true', allBlank_eq_false_iff]
  constructor
  · rintro ⟨before, value, after, split, earlier, blank⟩
    exact ⟨value, blank, before, after, split, earlier⟩
  · rintro ⟨value, blank, before, after, split, earlier⟩
    exact ⟨before, value, after, split, earlier, blank⟩

theorem validate_eq_ok_iff : t.validate = .ok () ↔ ∀ entry ∈ t.requiredFields, Written entry.2 := by
  have none : (∀ entry ∈ t.requiredFields, Written entry.2) ↔
      t.requiredFields.find? (fun (_, value) => Text.allBlank value) = none := by
    simp only [List.find?_eq_none, allBlank_iff, not_not]
  rw [none, Target.validate]
  cases t.requiredFields.find? (fun (_, value) => Text.allBlank value) <;> simp

theorem validate_eq_error_iff : t.validate = .error e ↔ ∃ field, t.FirstBlank field ∧ e = .missingField field := by
  simp only [firstBlank_iff, Target.validate]
  cases t.requiredFields.find? (fun (_, value) => Text.allBlank value) with
  | none => simp
  | some entry => simp [Prod.ext_iff, eq_comm]

/-- A target is refused before any rule is built. -/
theorem pipeline_eq_of_invalid (invalid : t.validate = .error e) : pipeline t v = .error e := by
  rw [pipeline, invalid]
  rfl

/-- A pipeline that is built holds the groups of rules one after another. -/
theorem groups_of_built {p : Pipeline} (built : pipeline t v = .ok p) :
    ∃ g, Groups.Of v g ∧ p = ⟨(g.all t v).flatten⟩ := by
  cases validated : t.validate with
  | error e =>
    rw [pipeline_eq_of_invalid validated] at built
    cases built
  | ok =>
    rcases pipeline_cases (v := v) validated with ⟨g, of, rules⟩ | ⟨-, rule, refused⟩
    · exact ⟨g, of, Except.ok.inj (built.symm.trans rules)⟩
    · cases refused.symm.trans built

/-- A pipeline that is built holds its rules in the order of their stages. -/
theorem inOrder_of_built {p : Pipeline} (built : pipeline t v = .ok p) : InOrder p.rules := by
  obtain ⟨g, of, rfl⟩ := groups_of_built built
  exact of.inOrder

/-- The rules are refused for the first required field that is blank, and for nothing else; otherwise they
can be built, in the order of their stages. The names may hold any characters, as long as no pattern that is
made for one of them is too large. -/
theorem refused_only_for_blank_fields (fits : v.Fits) :
    ((∃ p, pipeline t v = .ok p) ↔ Written t.payloadType ∧ Written t.className ∧ Written t.bytesFileName) ∧
    (∀ e, pipeline t v = .error e ↔ ∃ field, t.FirstBlank field ∧ e = .missingField field) ∧
    ∀ p, pipeline t v = .ok p → InOrder p.rules := by
  have fields : t.validate = .ok () ↔ Written t.payloadType ∧ Written t.className ∧ Written t.bytesFileName := by
    simp [validate_eq_ok_iff, Target.requiredFields]
  rw [← fields]
  simp only [← validate_eq_error_iff]
  cases validated : t.validate with
  | error e =>
    have refused := pipeline_eq_of_invalid (v := v) validated
    simp [refused]
  | ok =>
    rcases pipeline_cases (v := v) validated with ⟨g, of, built⟩ | ⟨large, -⟩
    · refine ⟨by simp [built], by simp [built], fun p => inOrder_of_built⟩
    · exact absurd fits large

/-- Names that are empty or repeated, that mean something in patterns, and that break the line: with them rules
are built for a full target, and a target with two blank fields is refused for the first one. -/
theorem refused_only_for_blank_fields_of_metacharacters :
    let full : Target := { payloadType := "Game.Model", className := "Loader", bytesFileName := "m.bytes" }
    let blank : Target := { payloadType := "Game.Model", className := "\u3000\t", bytesFileName := "" }
    let v : Vocabulary := { referenceArray := "(?<", enums := ["", "a|\n*", "a|\n*", "[^"], assetRefs := ["$", "\\"] }
    v.Fits ∧ (∃ p, pipeline full v = .ok p ∧ InOrder p.rules) ∧
      pipeline blank v = .error (.missingField "class_name") := by
  intro full blank v
  have short : ¬v.HasLongName := by decide +kernel
  have fits : v.Fits := not_not.mp (mt hasLongName_of_not_fits short)
  have written : Written full.payloadType ∧ Written full.className ∧ Written full.bytesFileName := by
    simp only [← allBlank_eq_false_iff]
    decide
  have first : blank.FirstBlank "class_name" := firstBlank_iff.mpr ⟨"\u3000\t", by decide⟩
  obtain ⟨built, -, order⟩ := refused_only_for_blank_fields (t := full) fits
  obtain ⟨p, ok⟩ := built.mpr written
  obtain ⟨-, refused, -⟩ := refused_only_for_blank_fields (t := blank) fits
  exact ⟨fits, ⟨p, ok, order p ok⟩, (refused _).mpr ⟨"class_name", first, rfl⟩⟩

end Targets

end ModelLoading.Conversion
