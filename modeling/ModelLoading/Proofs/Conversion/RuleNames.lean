import Mathlib.Data.List.Count
import Mathlib.Data.List.Nodup
import ModelLoading.Proofs.Conversion.Building
import ModelLoading.Proofs.Text.Occurrences

/-!
# The names of the rules

Some rules have fixed names. The others are made for each name of a list, and are called by the family they
belong to and that name, with a colon between them. Neither a fixed name nor a family has a colon, so the rules of
a conversion have different names exactly if no list names something twice (`rules_have_distinct_names`).
-/

namespace ModelLoading.Conversion

open Edit

/-! ## 1. Families -/

/-- The name of a rule of a family that is made for a name. -/
def ruleName (family name : String) : String := family ++ ":" ++ name

/-- The families of rules that are made for listed names, with the names. -/
def Vocabulary.families (v : Vocabulary) : List (String × List String) :=
  [("domain_array_new", v.references ++ v.structs), ("domain_array", v.references ++ v.structs),
    ("enum_array_new", v.enums), ("enum_array", v.enums),
    ("enum_array_recheck_new", v.enums), ("enum_array_recheck", v.enums),
    ("asset_factory", v.assetRefs), ("asset_array_cast", v.assetRefs)]

/-- The names of the rules of a family. -/
def familyNames (entry : String × List String) : List String := entry.2.map (ruleName entry.1)

/-- The names of rules that are made in pairs, one of each family for a name. -/
def pairNames (family family' : String) (listed : List String) : List String :=
  listed.flatMap fun name => [ruleName family name, ruleName family' name]

/-- The families by name. -/
def families : List String :=
  ["domain_array_new", "domain_array", "enum_array_new", "enum_array", "enum_array_recheck_new",
    "enum_array_recheck", "asset_factory", "asset_array_cast"]

/-- The names of the other rules. -/
def fixedNames : List String :=
  ["preamble", "class_signature", "public_members", "object_table_field", "assets_root", "system_usings",
    "system_io", "generic_reader_constraint", "samples_field", "target_type_element", "target_type_field",
    "generic_array", "generic_array_new", "string_array", "string_array_new", "float_array",
    "float_array_new", "int_array", "int_array_new", "uninitialized_cast", "typeof", "setter_arguments",
    "array_cast_sweep"]

theorem colon_not_mem_families : ∀ family ∈ families, ':' ∉ family.toList := by decide

theorem colon_not_mem_fixedNames : ∀ name ∈ fixedNames, ':' ∉ name.toList := by decide

theorem nodup_fixedNames : fixedNames.Nodup := by decide

section Families

variable {v : Vocabulary} {family family' name name' : String}

theorem toList_ruleName (family name : String) :
    (ruleName family name).toList = family.toList ++ ':' :: name.toList := by
  simp [ruleName]

/-- The name of a rule tells its family and what it is made for. -/
theorem ruleName_inj (member : family ∈ families) (member' : family' ∈ families)
    (same : ruleName family name = ruleName family' name') : family = family' ∧ name = name' := by
  have split := congrArg String.toList same
  rw [toList_ruleName, toList_ruleName] at split
  obtain ⟨label, rest⟩ := Text.eq_of_append_cons (colon_not_mem_families _ member)
    (colon_not_mem_families _ member') split
  exact ⟨String.toList_inj.mp label, String.toList_inj.mp rest⟩

/-- The name of a rule of a family is no fixed name. -/
theorem ruleName_not_mem_fixedNames (family name : String) : ruleName family name ∉ fixedNames :=
  fun fixed => colon_not_mem_fixedNames _ fixed (by simp [toList_ruleName])

theorem mem_families {entry : String × List String} (member : entry ∈ v.families) : entry.1 ∈ families :=
  List.mem_map_of_mem (f := Prod.fst) member

/-- A name of a rule of a family is as often among the names of the family as what it is made for is listed. -/
theorem count_familyNames (member : family ∈ families) (member' : family' ∈ families) (listed : List String) :
    (familyNames (family', listed)).count (ruleName family name) =
      if family = family' then listed.count name else 0 := by
  split
  case isTrue same =>
    subst same
    exact List.count_map_of_injective _ _ (fun _ _ same => (ruleName_inj member member same).2) _
  case isFalse other =>
    refine List.count_eq_zero.mpr fun inside => ?_
    obtain ⟨name', -, same⟩ := List.mem_map.mp inside
    exact other (ruleName_inj member' member same).1.symm

/-- The names of all rules. -/
def Vocabulary.ruleNames (v : Vocabulary) : List String := fixedNames ++ v.families.flatMap familyNames

theorem mem_ruleNames {rule : String} (member : rule ∈ v.ruleNames) :
    rule ∈ fixedNames ∨ ∃ entry ∈ v.families, ∃ name ∈ entry.2, rule = ruleName entry.1 name := by
  refine (List.mem_append.mp member).imp_right fun made => ?_
  obtain ⟨entry, listed, inside⟩ := List.mem_flatMap.mp made
  obtain ⟨name, mem, rfl⟩ := List.mem_map.mp inside
  exact ⟨entry, listed, name, mem, rfl⟩

/-- A fixed name is the name of one rule. -/
theorem count_fixedName {rule : String} (fixed : rule ∈ fixedNames) : v.ruleNames.count rule = 1 := by
  have others : (v.families.flatMap familyNames).count rule = 0 := by
    refine List.count_eq_zero.mpr fun made => ?_
    obtain ⟨entry, -, inside⟩ := List.mem_flatMap.mp made
    obtain ⟨name, -, rfl⟩ := List.mem_map.mp inside
    exact ruleName_not_mem_fixedNames _ _ fixed
  rw [Vocabulary.ruleNames, List.count_append, others, List.count_eq_one_of_mem nodup_fixedNames fixed]

/-- A name made in a family is the name of as many rules as what it is made for is listed in that family. -/
theorem count_ruleName {entry : String × List String} (member : entry ∈ v.families) (name : String) :
    v.ruleNames.count (ruleName entry.1 name) = entry.2.count name := by
  have own : ∀ entry' ∈ v.families, (familyNames entry').count (ruleName entry.1 name) =
      if entry.1 = entry'.1 then entry'.2.count name else 0 := fun entry' member' =>
    count_familyNames (mem_families member) (mem_families member') entry'.2
  rw [Vocabulary.ruleNames, List.count_append,
    List.count_eq_zero.mpr (ruleName_not_mem_fixedNames _ _), zero_add, List.count_flatMap, Function.comp_def,
    List.map_congr_left own]
  simp only [Vocabulary.families, List.mem_cons, List.not_mem_nil, or_false] at member
  rcases member with rfl | rfl | rfl | rfl | rfl | rfl | rfl | rfl <;> simp [Vocabulary.families]

theorem pairNames_perm (family family' : String) (listed : List String) :
    (pairNames family family' listed).Perm (familyNames (family, listed) ++ familyNames (family', listed)) := by
  simpa [pairNames, familyNames, List.map_eq_flatMap] using
    (List.flatMap_append_perm listed (fun name => [ruleName family name]) fun name => [ruleName family' name]).symm

/-- The names of all rules are distinct if and only if nothing is listed twice. -/
theorem nodup_ruleNames_iff (v : Vocabulary) : v.ruleNames.Nodup ↔
    (v.references ++ v.structs).Nodup ∧ v.enums.Nodup ∧ v.assetRefs.Nodup := by
  have each : v.ruleNames.Nodup ↔ ∀ entry ∈ v.families, entry.2.Nodup := by
    simp only [List.nodup_iff_count_le_one]
    constructor
    · intro once entry member name
      rw [← count_ruleName member]
      exact once _
    · intro listed rule
      by_cases member : rule ∈ v.ruleNames
      · rcases mem_ruleNames member with fixed | ⟨entry, made, name, -, rfl⟩
        · exact (count_fixedName fixed).le
        · rw [count_ruleName made]
          exact listed entry made name
      · rw [List.count_eq_zero.mpr member]
        exact Nat.zero_le 1
  rw [each]
  simp [Vocabulary.families]

end Families

/-! ## 2. The names of the groups -/

section Names

variable {t : Target} {v : Vocabulary} {rules : List Rule}

/-- The names of rules. -/
def names (rules : List Rule) : List String := rules.map (·.name)

theorem names_of_pattern {stage : Stage} {name source template : String} {make : Rule → List Rule}
    (h : (do return make (← Rule.pattern stage name source template)) = .ok rules)
    {expected : List String} (named : ∀ r : Rule, r.name = name → names (make r) = expected) :
    names rules = expected := by
  obtain ⟨r, pattern, made⟩ := bind_eq_ok.mp h
  obtain ⟨regex, rfl⟩ := pattern_eq_ok pattern
  rw [← Except.ok.inj made]
  exact named _ rfl

/-- The names of rules that are made for each of several names. -/
theorem names_of_each {f : String → Except Edit.Error (List Rule)} {listed : List String}
    (h : (do return (← listed.mapM f).flatten) = .ok rules) {expected : String → List String}
    (each : ∀ name rules, f name = .ok rules → names rules = expected name) :
    names rules = listed.flatMap expected := by
  refine each_induction (P := fun listed rules => names rules = listed.flatMap expected) rfl ?_ h
  intro name group listed rules made others
  rw [List.flatMap_cons, ← others, ← each name group made]
  exact List.map_append

theorem names_namespaces (h : namespaceRules = .ok rules) :
    names rules = ["assets_root", "system_usings", "system_io"] :=
  names_of_pattern h fun r named => by simp [names, named, Rule.literal, Rule.runsAfter]

theorem names_constraints (h : genericConstraintRules v = .ok rules) :
    names rules = ["generic_reader_constraint"] :=
  names_of_pattern h fun r named => by simp [names, named]

theorem names_arrayTypes (h : arrayTypeRules v = .ok rules) :
    names rules = ["generic_array", "generic_array_new", "string_array", "string_array_new", "float_array",
      "float_array_new", "int_array", "int_array_new"] :=
  names_of_pattern h fun r named => by
    simp only [names, List.cons_append, List.nil_append, List.map_cons, named]
    rfl

theorem names_casts (h : castRules = .ok rules) : names rules = ["uninitialized_cast", "typeof"] :=
  names_of_pattern h fun r named => by simp [names, named, Rule.literal]

theorem names_setterArguments (h : setterArgumentRules = .ok rules) : names rules = ["setter_arguments"] :=
  names_of_pattern h fun r named => by simp [names, named, Rule.withOrigin]

theorem names_domainArrays (v : Vocabulary) :
    names (domainArrayRules v) = pairNames "domain_array_new" "domain_array" (v.references ++ v.structs) := by
  simp only [names, domainArrayRules, List.flatMap_append, List.map_append, List.map_flatMap, List.flatMap_map,
    pairNames]
  rfl

theorem names_enumArrays {stage : Stage} {group reason : String}
    (h : enumArrayRules stage group reason v = .ok rules) :
    names rules = pairNames (group ++ "_new") group v.enums :=
  names_of_each h fun name rules made => by
    refine names_of_pattern made fun r named => ?_
    have sized : ruleName (group ++ "_new") name = group ++ "_new:" ++ name := by
      rw [ruleName, @String.append_assoc group]
      rfl
    rw [sized]
    simp only [names, List.map_cons, List.map_nil, Rule.withOrigin, Rule.runsAfter, Rule.literal, named]
    rfl

theorem names_castSweep (h : castSweepRules v = .ok rules) : names rules =
    "array_cast_sweep" :: pairNames "enum_array_recheck_new" "enum_array_recheck" v.enums := by
  obtain ⟨sweep, pattern, h⟩ := bind_eq_ok.mp h
  obtain ⟨recheck, made, h⟩ := bind_eq_ok.mp h
  obtain ⟨regex, rfl⟩ := pattern_eq_ok pattern
  obtain rfl := Except.ok.inj h
  exact congrArg _ (names_enumArrays made)

theorem names_assetReferences (h : assetReferenceRules v = .ok rules) :
    names rules = pairNames "asset_factory" "asset_array_cast" v.assetRefs :=
  names_of_each h fun name rules made => by
    refine names_of_pattern made fun r named => ?_
    simp only [names, List.map_cons, List.map_nil, Rule.withOrigin, Rule.runsAfter, Rule.literal, named]
    rfl

theorem names_flatten (groups : List (List Rule)) : names groups.flatten = groups.flatMap names :=
  List.map_flatten.trans (List.flatMap_def ..).symm

/-- The names of all rules are the fixed ones and those of the families. -/
theorem Groups.Of.names_perm {g : Groups} (h : g.Of v) :
    (names (g.all t v).flatten).Perm v.ruleNames := by
  let early := pairNames "domain_array_new" "domain_array" (v.references ++ v.structs) ++
    pairNames "enum_array_new" "enum_array" v.enums
  let late := pairNames "enum_array_recheck_new" "enum_array_recheck" v.enums ++
    pairNames "asset_factory" "asset_array_cast" v.assetRefs
  -- twenty-one fixed names stand before the first family, and two stand between families
  have ordered : names (g.all t v).flatten =
      fixedNames.take 21 ++ (early ++ (fixedNames.drop 21 ++ late)) := by
    rw [names_flatten]
    simp only [Groups.all, List.flatMap_cons, names_namespaces h.namespaces, names_constraints h.constraints,
      names_arrayTypes h.arrayTypes, names_casts h.casts, names_domainArrays, names_enumArrays h.enumArrays,
      names_setterArguments h.setterArguments, names_castSweep h.castSweep,
      names_assetReferences h.assetReferences]
    simp [early, late, fixedNames, names, headerRules, classSignatureRules, literalConstructRules, Rule.literal,
      Rule.insertFirst, Rule.runsAfter]
  have listed : (early ++ late).Perm (v.families.flatMap familyNames) := by
    have pairs := ((pairNames_perm "domain_array_new" "domain_array" (v.references ++ v.structs)).append
      (pairNames_perm "enum_array_new" "enum_array" v.enums)).append
      ((pairNames_perm "enum_array_recheck_new" "enum_array_recheck" v.enums).append
        (pairNames_perm "asset_factory" "asset_array_cast" v.assetRefs))
    simpa [early, late, Vocabulary.families] using pairs
  rw [ordered]
  exact ((List.perm_append_comm_assoc ..).append_left _).trans (listed.append_left fixedNames)

/-- What the names of the rules of a conversion are: a fixed name is the name of one rule, a name made for a
listed name is the name of as many rules as its own list names it, and there are no others. So the names are
distinct if and only if no list names something twice. -/
theorem rules_have_distinct_names (t : Target) (v : Vocabulary) (valid : t.validate = .ok ()) :
    (∃ p, pipeline t v = .ok p ∧
      ((names p.rules).Nodup ↔ (v.references ++ v.structs).Nodup ∧ v.enums.Nodup ∧ v.assetRefs.Nodup) ∧
      (∀ rule ∈ p.rules, rule.name ∈ fixedNames ∨
        ∃ entry ∈ v.families, ∃ name ∈ entry.2, rule.name = ruleName entry.1 name) ∧
      (∀ name ∈ fixedNames, (names p.rules).count name = 1) ∧
      ∀ entry ∈ v.families, ∀ name, (names p.rules).count (ruleName entry.1 name) = entry.2.count name) ∨
    v.HasLongName ∧ ∃ rule, pipeline t v = .error (.rule (.pattern rule .tooLarge)) := by
  refine (pipeline_built valid).imp_left fun ⟨g, of, built⟩ => ⟨_, built, ?_⟩
  have same : (names (g.all t v).flatten).Perm v.ruleNames := of.names_perm
  refine ⟨same.nodup_iff.trans (nodup_ruleNames_iff v), fun rule member => ?_, fun name fixed => ?_,
    fun entry member name => ?_⟩
  · exact mem_ruleNames (same.mem_iff.mp (List.mem_map_of_mem (f := Rule.name) member))
  · rw [same.count_eq, count_fixedName fixed]
  · rw [same.count_eq, count_ruleName member]

/-- An enum type whose name begins like the end of a family still has rules of its own. -/
theorem rules_have_distinct_names_of_recheck :
    let t : Target := { payloadType := "M", className := "L", bytesFileName := "l" }
    let v : Vocabulary := { references := ["X"], structs := ["new:X"], enums := ["recheck:X", "X"] }
    t.validate = .ok () ∧ ∃ p, pipeline t v = .ok p ∧ (names p.rules).Nodup := by
  refine ⟨by decide, ?_⟩
  rcases rules_have_distinct_names { payloadType := "M", className := "L", bytesFileName := "l" }
    { references := ["X"], structs := ["new:X"], enums := ["recheck:X", "X"] } (by decide) with
    ⟨p, built, distinct, -⟩ | ⟨long, -⟩
  · exact ⟨p, built, distinct.mpr (by decide)⟩
  · exact absurd long (by decide)

end Names

end ModelLoading.Conversion
