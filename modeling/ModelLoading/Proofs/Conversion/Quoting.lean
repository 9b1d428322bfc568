import ModelLoading.Proofs.Conversion.Effects
import ModelLoading.Proofs.Conversion.Refusals
import ModelLoading.Proofs.Pattern.Templates

/-!
# Names in templates

A configured name is quoted before it becomes a part of a template, so that it stands for itself, whatever dollar
signs and braces it has and whatever follows it (`Template.expand_quote`). The rules with patterns are listed here
with the parts of what they write in the place of a match, names and the text of the group (`patternParts`). Every
one of them writes these parts (`quoted_names_stand_for_themselves`).
-/

namespace ModelLoading.Edit

/-- Whether a rule replaces the matches of a pattern. -/
def Rule.hasPattern (r : Rule) : Bool :=
  match r.change with
  | .pattern .. => true
  | _ => false

end ModelLoading.Edit

namespace ModelLoading.Conversion

open Edit Pattern
open Pattern.Template (quote_nil quote_cons)

/-! ## 1. Parts of templates -/

/-- A part of what a rule writes in the place of a match. -/
inductive Part where
  | text (s : String)
  /-- The text of the first group. -/
  | group

/-- What a part comes to, given the text of the first group. -/
def Part.written (group : List Char) : Part → List Char
  | text s => s.toList
  | .group => group

/-- What parts come to one after another. -/
def written (group : List Char) (parts : List Part) : List Char := parts.flatMap (Part.written group)

/-- A part in a template. -/
def Part.template : Part → List Char
  | text s => Template.quote s.toList
  | group => firstGroup.toList

/-- A template of parts comes to what the parts come to. -/
theorem expand_parts (value : Reference → List Char) (parts : List Part) :
    Template.expand value (parts.flatMap Part.template) = written (value (.number 1)) parts := by
  have one : Template.reference ['1'] = .number 1 := by decide +kernel
  induction parts with
  | nil => rfl
  | cons part parts ih =>
    rw [written, List.flatMap_cons, List.flatMap_cons, ← written, ← ih]
    cases part with
    | text s => exact Template.expand_quote value s.toList _
    | group =>
      have reference := @Template.expand_reference value ['1'] (by decide) (parts.flatMap Part.template)
      rw [one] at reference
      exact reference

/-- A rule replaces every match of its pattern by parts. -/
def Writes (r : Rule) (parts : List Part) : Prop :=
  ∃ regex template, r.change = .pattern regex template ∧
    (∀ value, Template.expand value template.toList = written (value (.number 1)) parts) ∧
    ∀ s, (r.change.apply s).1 = (regex.scan s).flatMap
      (Piece.replaced fun m => written (m.value regex.names (.number 1)) parts)

theorem writes_of_template {r : Rule} {regex : Regex} {template : String} {parts : List Part}
    (change : r.change = .pattern regex template) (made : template.toList = parts.flatMap Part.template) :
    Writes r parts := by
  have expands : ∀ value, Template.expand value template.toList = written (value (.number 1)) parts :=
    fun value => made ▸ expand_parts value parts
  refine ⟨regex, template, change, expands, fun s => ?_⟩
  simp only [change, ← expands]
  rfl

/-! ## 2. The rules with patterns -/

/-- What the rules for sized arrays of enum types write. -/
def sizedParts (family : String) (v : Vocabulary) : List (String × List Part) :=
  v.enums.map fun name => (s!"{family}_new:{name}", [.text name, .text "[", .group, .text "]"])

/-- What the rules write that send the construction of asset references to the factory. -/
def factoryParts (v : Vocabulary) : List (String × List Part) :=
  v.assetRefs.map fun name =>
    (s!"asset_factory:{name}", [.text v.assetFactory, .text name, .text "(", .group, .text ")"])

/-- The rules with patterns in their order, with what they write in the place of a match. -/
def patternParts (v : Vocabulary) : List (String × List Part) :=
  [("assets_root", [.text "Il2CppAssets"]),
    ("generic_reader_constraint", [.text "private void ", .group, .text "<T>() where T : ",
      .text v.objectBase, .text " \x7b"]),
    ("generic_array", [.text (v.referenceArrayOf "T")]),
    ("typeof", [.text "Il2CppType.Of<", .group, .text ">()"])] ++
  (sizedParts "enum_array" v ++
    ([("setter_arguments", [.text "SetValue(v,br.Read", .group, .text "().ToIl2Cpp())"]),
      ("array_cast_sweep", [.text "(", .text v.referenceArray, .text "<", .group, .text ">)"])] ++
    (sizedParts "enum_array_recheck" v ++ factoryParts v)))

/-- The rules with patterns among several are the listed ones, and write the listed parts. -/
def PatternsWrite (rules : List Rule) (listed : List (String × List Part)) : Prop :=
  List.Forall₂ (fun r e => r.name = e.1 ∧ Writes r e.2) (rules.filter Rule.hasPattern) listed

section Rules

variable {t : Target} {v : Vocabulary} {rules rules' : List Rule} {listed listed' : List (String × List Part)}

theorem PatternsWrite.append (h : PatternsWrite rules listed) (h' : PatternsWrite rules' listed') :
    PatternsWrite (rules ++ rules') (listed ++ listed') := by
  rw [PatternsWrite, List.filter_append]
  exact List.rel_append h h'

theorem patternsWrite_nil (none : ∀ r ∈ rules, r.hasPattern = false) : PatternsWrite rules [] := by
  rw [PatternsWrite, List.filter_eq_nil_iff.mpr fun r member => by simp [none r member]]
  exact .nil

/-- A rule with a pattern, and then others. -/
theorem patternsWrite_cons {r : Rule} {name template : String} {parts : List Part}
    (first : r.name = name ∧ ∃ regex, r.change = .pattern regex template)
    (made : template.toList = parts.flatMap Part.template) (h : PatternsWrite rules listed) :
    PatternsWrite (r :: rules) ((name, parts) :: listed) := by
  obtain ⟨named, regex, change⟩ := first
  have has : r.hasPattern = true := by rw [Rule.hasPattern, change]
  rw [PatternsWrite, List.filter_cons_of_pos has]
  exact .cons ⟨named, writes_of_template change made⟩ h

/-- A group of rules that is made around a rule with a pattern. -/
theorem patternsWrite_of_pattern {stage : Stage} {name source template : String} {make : Rule → List Rule}
    (h : (do return make (← Rule.pattern stage name source template)) = .ok rules)
    (each : ∀ r : Rule, (r.name = name ∧ ∃ regex, r.change = .pattern regex template) →
      PatternsWrite (make r) listed) : PatternsWrite rules listed := by
  obtain ⟨r, pattern, made⟩ := bind_eq_ok.mp h
  obtain ⟨regex, rfl⟩ := pattern_eq_ok pattern
  rw [← Except.ok.inj made]
  exact each _ ⟨rfl, regex, rfl⟩

/-- Rules that are made for each of several names, one of them with a pattern. -/
theorem patternsWrite_each {f : String → Except Edit.Error (List Rule)} {names : List String}
    {written : String → String × List Part}
    (each : ∀ name group, f name = .ok group → PatternsWrite group [written name])
    (h : (do return (← names.mapM f).flatten) = .ok rules) : PatternsWrite rules (names.map written) :=
  each_induction (P := fun names rules => PatternsWrite rules (names.map written)) .nil
    (fun name group _ _ made others => (each name group made).append others) h

theorem namespaces_write (h : namespaceRules = .ok rules) :
    PatternsWrite rules [("assets_root", [.text "Il2CppAssets"])] :=
  patternsWrite_of_pattern h fun r first => patternsWrite_cons first (by simp [Part.template, quote_cons, quote_nil])
    (patternsWrite_nil (by simp [Rule.hasPattern, Rule.literal, Rule.runsAfter]))

theorem constraints_write (h : genericConstraintRules v = .ok rules) :
    PatternsWrite rules [("generic_reader_constraint", [.text "private void ", .group,
      .text "<T>() where T : ", .text v.objectBase, .text " \x7b"])] :=
  patternsWrite_of_pattern h fun r first =>
    patternsWrite_cons first (by simp [Part.template, toList_quoted, quote_cons, quote_nil]) (patternsWrite_nil (by simp))

theorem arrayTypes_write (h : arrayTypeRules v = .ok rules) :
    PatternsWrite rules [("generic_array", [.text (v.referenceArrayOf "T")])] :=
  patternsWrite_of_pattern h fun r first => patternsWrite_cons first (by simp [Part.template, toList_quoted])
    (patternsWrite_nil (by simp [primitiveArrays, Rule.hasPattern, Rule.literal, Rule.withOrigin]))

theorem casts_write (h : castRules = .ok rules) :
    PatternsWrite rules [("typeof", [.text "Il2CppType.Of<", .group, .text ">()"])] := by
  refine patternsWrite_of_pattern h fun r first => ?_
  have typeof : PatternsWrite [r] [("typeof", [.text "Il2CppType.Of<", .group, .text ">()"])] :=
    patternsWrite_cons first (by simp [Part.template, quote_cons, quote_nil]) (patternsWrite_nil (by simp))
  -- the rule before it replaces a literal
  exact typeof

theorem domainArrays_write (v : Vocabulary) : PatternsWrite (domainArrayRules v) [] := by
  refine patternsWrite_nil fun r member => ?_
  obtain ⟨entry, -, inside⟩ := List.mem_flatMap.mp member
  simp only [List.mem_cons, List.not_mem_nil, or_false] at inside
  rcases inside with rfl | rfl <;> rfl

theorem enumArrays_write {stage : Stage} {group reason : String}
    (h : enumArrayRules stage group reason v = .ok rules) : PatternsWrite rules (sizedParts group v) := by
  refine patternsWrite_each (fun name group made => patternsWrite_of_pattern made fun r first => ?_) h
  exact patternsWrite_cons first (by simp [Part.template, toList_quoted, quote_cons, quote_nil])
    (patternsWrite_nil (by simp [Rule.hasPattern, Rule.literal, Rule.withOrigin, Rule.runsAfter]))

theorem setters_write (h : setterArgumentRules = .ok rules) :
    PatternsWrite rules [("setter_arguments", [.text "SetValue(v,br.Read", .group, .text "().ToIl2Cpp())"])] :=
  patternsWrite_of_pattern h fun r first =>
    patternsWrite_cons first (by simp [Part.template, quote_cons, quote_nil]) (patternsWrite_nil (by simp))

theorem castSweep_write (h : castSweepRules v = .ok rules) :
    PatternsWrite rules (("array_cast_sweep",
      [.text "(", .text v.referenceArray, .text "<", .group, .text ">)"]) :: sizedParts "enum_array_recheck" v) := by
  obtain ⟨sweep, pattern, h⟩ := bind_eq_ok.mp h
  obtain ⟨recheck, made, h⟩ := bind_eq_ok.mp h
  obtain ⟨regex, rfl⟩ := pattern_eq_ok pattern
  rw [← Except.ok.inj h]
  exact patternsWrite_cons ⟨rfl, regex, rfl⟩ (by simp [Part.template, toList_quoted, quote_cons, quote_nil])
    (enumArrays_write made)

theorem assetReferences_write (h : assetReferenceRules v = .ok rules) :
    PatternsWrite rules (factoryParts v) := by
  refine patternsWrite_each (fun name group made => patternsWrite_of_pattern made fun r first => ?_) h
  exact patternsWrite_cons first (by simp [Part.template, toList_quoted, quote_cons, quote_nil])
    (patternsWrite_nil (by simp [Rule.hasPattern, Rule.literal, Rule.withOrigin, Rule.runsAfter]))

/-- The rules with patterns of a conversion are the listed ones. -/
theorem Groups.Of.patternsWrite {g : Groups} (h : g.Of v) :
    PatternsWrite (g.all t v).flatten (patternParts v) := by
  have header : PatternsWrite (headerRules t) [] :=
    patternsWrite_nil (by simp [headerRules, Rule.hasPattern, Rule.insertFirst])
  have classSignature : PatternsWrite (classSignatureRules t v) [] :=
    patternsWrite_nil (by simp [classSignatureRules, Rule.hasPattern, Rule.literal])
  have literals : PatternsWrite literalConstructRules [] :=
    patternsWrite_nil (by simp [literalConstructRules, Rule.hasPattern, Rule.literal, Rule.runsAfter])
  have all := header.append <| classSignature.append <| (namespaces_write h.namespaces).append <|
    (constraints_write h.constraints).append <| literals.append <| (arrayTypes_write h.arrayTypes).append <|
    (casts_write h.casts).append <| (domainArrays_write v).append <| (enumArrays_write h.enumArrays).append <|
    (setters_write h.setterArguments).append <| (castSweep_write h.castSweep).append
    (assetReferences_write h.assetReferences)
  simpa [Groups.all, patternParts] using all

/-! ## 3. Names -/

/-- **A quoted name stands for itself.** In front of any template, whatever the groups are, it comes to the name,
and the template to what it comes to alone. What that is, the rules of templates say. Quoting is doubling every
dollar sign. So each rule with a pattern writes the configured names as they are, in front of the text of the
group or behind it. -/
theorem quoted_names_stand_for_themselves :
    (∀ (value : Reference → List Char) (name : String) (template : List Char),
      Template.expand value ((quoted name).toList ++ template) =
        name.toList ++ Template.expand value template) ∧
    (∀ (value : Reference → List Char) (template out : List Char),
      Template.expand value template = out ↔ Template.Expands value template out) ∧
    (∀ name : String, (quoted name).toList = Text.replaceAll ['$'] ['$', '$'] name.toList) ∧
    ∀ (t : Target) (v : Vocabulary) (p : Pipeline), pipeline t v = .ok p →
      PatternsWrite p.rules (patternParts v) := by
  refine ⟨fun value name template => ?_, fun _ _ _ => Template.expand_eq_iff, fun name => ?_,
    fun t v p built => ?_⟩
  · rw [toList_quoted, Template.expand_quote]
  · rw [toList_quoted, Template.quote_eq_replaceAll]
  · obtain ⟨g, of, rfl⟩ := groups_of_built built
    exact of.patternsWrite

/-- Names of dollar signs, and names that look like references. -/
theorem quoted_names_stand_for_themselves_of_dollars :
    let t : Target := { payloadType := "Game.Model", className := "Loader", bytesFileName := "m.bytes" }
    let v : Vocabulary :=
      { enums := ["", "$", "$1", "A$$", "$\x7bname\x7d$"], assetRefs := ["$0", "$\x7b1"], assetFactory := "$$$"
        referenceArray := "$1$", objectBase := "$\x7b1\x7d" }
    ∃ p, pipeline t v = .ok p ∧ PatternsWrite p.rules (patternParts v) := by
  intro t v
  have valid : t.validate = .ok () := by decide
  have short : ¬v.HasLongName := by decide +kernel
  obtain ⟨g, -, built⟩ := (pipeline_built (v := v) valid).resolve_right fun h => short h.1
  exact ⟨_, built, quoted_names_stand_for_themselves.2.2.2 t v _ built⟩

-- A name that is not quoted can take the dollar sign of the reference behind it.
example : Template.expand (fun _ => ['x']) ((quoted "A$").toList ++ "$1".toList) = "A$x".toList := by decide +kernel

example : Template.expand (fun _ => ['x']) ("A$".toList ++ "$1".toList) = "A$1".toList := by decide +kernel

end Rules

end ModelLoading.Conversion
