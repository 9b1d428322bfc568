import ModelLoading.Proofs.Conversion.CallArguments
import ModelLoading.Proofs.Conversion.EnumArrays
import ModelLoading.Proofs.Edit.Effects
import ModelLoading.Proofs.Pattern.Greedy

/-!
# The effects of the rules of a conversion

Every rule after the header has one effect, whatever text it works on. The effects of each group of rules
are listed here for every vocabulary, and `Groups.Of.have` says that the rules have them.
-/

namespace ModelLoading.Conversion

open Edit Pattern
open Pattern.Template (quote_append quote_nil quote_cons)

/-! ## 1. Lists of effects -/

def classSignatureEffects (t : Target) (v : Vocabulary) : List (String × Effect) :=
  [("class_signature", literalEffect s!"{t.shortName}Loader : {v.generatorInterface}"
      s!"{t.className} : {v.baseLoader}<{t.payloadType}>"),
    ("public_members", literalEffect "\tpublic" "\tprotected override"),
    ("object_table_field", literalEffect "object[] m;"
      s!"protected override string BytesFileName => \"{t.bytesFileName}\";")]

def namespaceEffects : List (String × Effect) :=
  [("assets_root", wordEffect Text.wholeWord "Assets" "Il2CppAssets"),
    ("system_usings", literalEffect "using System" "using Il2CppSystem"),
    ("system_io", literalEffect "using Il2CppSystem.IO" "using System.IO")]

/-- A word that is not empty. -/
def IsWord (s : List Char) : Prop := s ≠ [] ∧ ∀ c ∈ s, Text.isWord c = true

/-- A generic reader is constrained. -/
def readerEffect (v : Vocabulary) : Effect :=
  exactEffect "private void " "<T>() \x7b" "private void "
    ("<T>() where T : " ++ v.objectBase ++ " \x7b") IsWord

def constraintEffects (v : Vocabulary) : List (String × Effect) :=
  [("generic_reader_constraint", readerEffect v)]

def literalConstructEffects : List (String × Effect) :=
  [("samples_field", literalEffect "samplesField.SetValue(v,(System.Single[]) m[br.ReadInt32()]);"
      "v.samples = (System.Single[]) m[br.ReadInt32()];"),
    ("target_type_element",
      literalEffect ("arr[j] = new " ++ targetType ++ "(br.ReadString(), br.ReadBoolean())")
        ("arr[j] = new " ++ targetType ++
          " \x7bid = br.ReadString(), isActionable = br.ReadBoolean()\x7d")),
    ("target_type_field",
      literalEffect ("v.targetType = new " ++ targetType ++ "(br.ReadString(), br.ReadBoolean());")
        "v.targetType.id = br.ReadString();\n\t\t\tv.targetType.actionOnCreate = br.ReadBoolean();")]

def arrayTypeEffects (v : Vocabulary) : List (String × Effect) :=
  let generic := v.referenceArrayOf "T"
  [("generic_array", wordEffect Text.fromWord "T[]" generic),
    ("generic_array_new",
      literalEffect "new T[br.ReadInt32()]" s!"new {generic}(br.ReadInt32())")] ++
    (primitiveArrays v).flatMap fun (qualified, keyword, interop) =>
      [(s!"{keyword}_array", literalEffect s!"{qualified}[]" interop),
        (s!"{keyword}_array_new",
          literalEffect s!"new {keyword}[arrCount]" s!"new {interop}(arrCount)")]

/-- A type is asked for by name. -/
def typeofEffect : Effect :=
  exactEffect "typeof(" ")" "Il2CppType.Of<" ">()" (Capitalized noParenthesis)

def castEffects : List (String × Effect) :=
  [("uninitialized_cast", literalEffect "(T)FormatterServices.GetUninitializedObject(t)"
      "FormatterServices.GetUninitializedObject(t).Cast<T>()"), ("typeof", typeofEffect)]

def domainArrayEffects (v : Vocabulary) : List (String × Effect) :=
  (v.references.map (fun name => (name, v.referenceArrayOf name)) ++
      v.structs.map (fun name => (name, v.structArrayOf name))).flatMap fun (name, interop) =>
    [(s!"domain_array_new:{name}", literalEffect s!"{name}[arrCount]" s!"{interop}(arrCount)"),
      (s!"domain_array:{name}", literalEffect s!"{name}[]" interop)]

/-- A sized reference array of an enum type becomes native. -/
def sizedEnumEffect (v : Vocabulary) (name : String) : Effect :=
  { exactEffect (v.referenceArrayOf name ++ "(") ")" (name ++ "[") "]" Unparenthesized with
    finds := fun _ _ _ => True }

/-- A sized reference array of an enum type becomes native, whatever calls the size is made of. -/
def sizedCallEffect (v : Vocabulary) (name : String) : Effect :=
  exactEffect (v.referenceArrayOf name ++ "(") ")" (name ++ "[") "]" Shallow

/-- A reference array of an enum type becomes native. -/
def enumEffect (v : Vocabulary) (name : String) : Effect :=
  literalEffect (v.referenceArrayOf name) s!"{name}[]"

def enumArrayEffects (group : String) (v : Vocabulary) : List (String × Effect) :=
  (v.enums.map fun name => [(s!"{group}_new:{name}", sizedEnumEffect v name),
    (s!"{group}:{name}", enumEffect v name)]).flatten

/-- The value that a setter is given is converted. -/
def setterEffect : Effect :=
  exactEffect "SetValue(v,br.Read" "())" "SetValue(v,br.Read" "().ToIl2Cpp())" (· ∈ setterNames)

def setterEffects : List (String × Effect) := [("setter_arguments", setterEffect)]

/-- An array cast becomes one to a reference array. -/
def sweepEffect (v : Vocabulary) : Effect :=
  { exactEffect "(" "[])" ("(" ++ v.referenceArray ++ "<") ">)" IsName with
    finds := fun _ text _ => Castable text }

def castSweepEffects (v : Vocabulary) : List (String × Effect) :=
  ("array_cast_sweep", sweepEffect v) :: enumArrayEffects "enum_array_recheck" v

/-- A text on one line that is not empty. -/
def OnLine (s : List Char) : Prop := s ≠ [] ∧ '\n' ∉ s

/-- The construction of an asset reference goes to the factory, up to the last parenthesis on the line. -/
def factoryEffect (v : Vocabulary) (name : String) : Effect :=
  { exactEffect ("new " ++ v.assetRefPath name ++ "(") ")" (v.assetFactory ++ name ++ "(") ")" OnLine with
    finds := fun _ text rest => OnLine text ∧ ')' ∉ rest.takeWhile (· ≠ '\n') }

/-- An array of asset references becomes native. -/
def assetArrayEffect (v : Vocabulary) (name : String) : Effect :=
  literalEffect s!"({v.referenceArrayOf (v.assetRefPath name)})" s!"({v.assetRefPath name}[])"

def assetReferenceEffects (v : Vocabulary) : List (String × Effect) :=
  (v.assetRefs.map fun name => [(s!"asset_factory:{name}", factoryEffect v name),
    (s!"asset_array_cast:{name}", assetArrayEffect v name)]).flatten

/-- The effects of the rules after the class signature, group by group. -/
def laterEffects (v : Vocabulary) : List (List (String × Effect)) :=
  [namespaceEffects, constraintEffects v, literalConstructEffects, arrayTypeEffects v, castEffects,
    domainArrayEffects v, enumArrayEffects "enum_array" v, setterEffects, castSweepEffects v,
    assetReferenceEffects v]

/-! ## 2. Rules and their effects -/

/-- The rule of a pattern that is understood, with what was read. -/
theorem exists_regex {stage : Stage} {name source template : String} {r : Rule}
    (h : Rule.pattern stage name source template = .ok r) : ∃ regex,
    Regex.parse source = .ok regex ∧
      r = { name, stage, origin := .pattern, change := .pattern regex template } := by
  unfold Rule.pattern at h
  split at h
  · rename_i regex read
    exact ⟨regex, read, (Except.ok.inj h).symm⟩
  · cases h

/-- A template of quoted text expands to the text. -/
theorem expand_template {template replacement : String}
    (written : template.toList = Template.quote replacement.toList)
    (value : Reference → List Char) : Template.expand value template.toList = replacement.toList := by
  rw [written, Template.expand_quoted]

theorem have_singleton {r : Rule} {e : Effect} (h : r.change.Has e) : Have [r] [(r.name, e)] :=
  .cons ⟨rfl, h⟩ .nil

/-- A rule that replaces a text, and then others. -/
theorem have_literal_cons {r : Rule} {rules : List Rule} {effects : List (String × Effect)}
    {what replacement : String} (change : r.change = .literal what replacement)
    (some : what.toList ≠ []) (h : Have rules effects) :
    Have (r :: rules) ((r.name, literalEffect what replacement) :: effects) :=
  .cons ⟨rfl, change ▸ Change.has_literal some⟩ h

/-- Rules that are made for each of several names have the effects that are made for them. -/
theorem have_each {f : String → Except Edit.Error (List Rule)} {effects : String → List (String × Effect)}
    (each : ∀ name rules, f name = .ok rules → Have rules (effects name)) {names : List String}
    {rules : List Rule} (h : (do return (← names.mapM f).flatten) = .ok rules) :
    Have rules (names.map effects).flatten :=
  each_induction (P := fun names rules => Have rules (names.map effects).flatten) .nil
    (fun name group _ _ made others => (each name group made).append others) h

section Patterns

variable {v : Vocabulary} {name : String} {regex : Regex}

theorem has_assetsRoot (read : Regex.parse "\\bAssets\\b" = .ok regex) :
    (Change.pattern regex "Il2CppAssets").Has (wordEffect Text.wholeWord "Assets" "Il2CppAssets") := by
  refine Change.has_word (body_assetsRoot read) ⟨fun _ => ?_, fun _ => ?_⟩ (by simp)
    (expand_template ?_)
  · simp
    decide
  · simp
    decide
  · simp [quote_cons, quote_nil]

theorem has_genericArray (read : Regex.parse "\\bT\\[\\]" = .ok regex) :
    (Change.pattern regex (quoted (v.referenceArrayOf "T"))).Has
      (wordEffect Text.fromWord "T[]" (v.referenceArrayOf "T")) := by
  refine Change.has_word (body_genericArray read) ⟨fun _ => ?_, by simp [Text.fromWord]⟩ (by simp)
    (expand_template (toList_quoted _))
  simp
  decide

theorem has_reader (read : Regex.parse "private void (\\w+)<T>\\(\\) \\\x7b" = .ok regex) :
    (Change.pattern regex ("private void " ++ firstGroup ++ "<T>() where T : " ++
      quoted v.objectBase ++ " \x7b")).Has (readerEffect v) := by
  have around : Around regex ("private void " ++ firstGroup ++ "<T>() where T : " ++
      quoted v.objectBase ++ " \x7b") "private void " "<T>() \x7b" "private void "
      ("<T>() where T : " ++ v.objectBase ++ " \x7b") (.repeated 1 none true (.one .word)) :=
    { body := by rw [body_reader read]; simp [readerStart, readerEnd]
      template := by simp [firstGroup, toList_quoted, quote_append, quote_cons, quote_nil]
      some := by simp
      productive := by decide
      ungrouped := by decide }
  refine Change.has_exact around (fun _ _ _ _ found => ⟨found.some rfl, found.passed.2 _ fun _ => id⟩) ?_
  exact fun _ _ word stands => mem_ways_run word.1 stands word.2

theorem has_typeof (read : Regex.parse "typeof\\(([A-Z][^()]*)\\)" = .ok regex) :
    (Change.pattern regex ("Il2CppType.Of<" ++ firstGroup ++ ">()")).Has typeofEffect := by
  refine Change.has_exact (show Around regex _ _ _ _ _ typeofTree.expr from ?_)
    (fun _ _ _ _ found => capitalized_of_mem_ways found.mem_ways found.passed)
    fun _ _ capitalized stands => mem_ways_capitalized capitalized stands
  exact { body := by rw [body_typeof read]; simp [typeofStart]
          template := by simp [firstGroup, quote_cons, quote_nil]
          some := by simp
          productive := by decide
          ungrouped := by decide }

/-- The pattern for sized reference arrays, and its template. -/
theorem around_sizedEnum
    (read : Regex.parse (escaped (v.referenceArrayOf name) ++ "\\(" ++ callArguments ++ "\\)") =
      .ok regex) :
    Around regex (quoted name ++ "[" ++ firstGroup ++ "]") (v.referenceArrayOf name ++ "(") ")"
      (name ++ "[") "]" argumentsTree.expr where
  body := by rw [body_call read]; simp
  template := by simp [firstGroup, toList_quoted, quote_append, quote_cons, quote_nil]
  some := by simp
  productive := by decide
  ungrouped := by decide

theorem has_sizedCall
    (read : Regex.parse (escaped (v.referenceArrayOf name) ++ "\\(" ++ callArguments ++ "\\)") =
      .ok regex) :
    (Change.pattern regex (quoted name ++ "[" ++ firstGroup ++ "]")).Has (sizedCallEffect v name) := by
  refine Change.has_exact (around_sizedEnum read) (fun s u text rest found => ?_)
    fun s text shallow stands => mem_ways_arguments shallow.arguments stands
  obtain ⟨passed, arguments, passes⟩ := passes_of_mem_ways_arguments found.mem_ways
  have whole := passes.rest.symm.trans found.passed.1.rest
  exact List.append_cancel_right whole ▸ arguments.shallow

theorem has_sizedEnum
    (read : Regex.parse (escaped (v.referenceArrayOf name) ++ "\\(" ++ callArguments ++ "\\)") =
      .ok regex) :
    (Change.pattern regex (quoted name ++ "[" ++ firstGroup ++ "]")).Has (sizedEnumEffect v name) :=
  (has_sizedCall read).mono (fun _ _ _ _ ⟨text, _, old, new⟩ => ⟨text, trivial, old, new⟩)
    fun _ _ left text plain => left text plain.arguments.shallow

theorem has_setter
    (read : Regex.parse "SetValue\\(v,br\\.Read(Int32|Single|Boolean)\\(\\)\\)" = .ok regex) :
    (Change.pattern regex ("SetValue(v,br.Read" ++ firstGroup ++ "().ToIl2Cpp())")).Has
      setterEffect := by
  have around : Around regex ("SetValue(v,br.Read" ++ firstGroup ++ "().ToIl2Cpp())")
      "SetValue(v,br.Read" "())" "SetValue(v,br.Read" "().ToIl2Cpp())" setterTree.expr :=
    { body := body_setter read
      template := by simp [firstGroup, quote_cons, quote_nil]
      some := by simp
      productive := by decide
      ungrouped := by decide }
  have ways : ∀ {s t : Spot}, t ∈ setterTree.expr.ways s ↔
      ∃ name ∈ setterNames, name <+: s.place.rest ∧ t = s.after name := by
    intro s t
    rw [expr_setter, mem_ways_firstOf (by simp [setterNames])]
  refine Change.has_exact around (fun s u text rest found => ?_) fun s text member stands =>
    ways.mpr ⟨text, member, stands, rfl⟩
  -- the group is one of the three names
  obtain ⟨name, member, stands, rfl⟩ := ways.mp found.mem_ways
  have whole := (Cursor.passes_after stands).rest.symm.trans found.passed.1.rest
  exact List.append_cancel_right whole ▸ member

theorem has_sweep
    (read : Regex.parse "\\(([A-Z][\\w.]*(?:<[^()]*>)?(?:\\[\\])*)\\[\\]\\)" = .ok regex) :
    (Change.pattern regex ("(" ++ quoted v.referenceArray ++ "<" ++ firstGroup ++ ">)")).Has
      (sweepEffect v) := by
  have around : Around regex ("(" ++ quoted v.referenceArray ++ "<" ++ firstGroup ++ ">)") "(" "[])"
      ("(" ++ v.referenceArray ++ "<") ">)" sweepTree.expr :=
    { body := by rw [body_sweep read]; simp
      template := by simp [firstGroup, toList_quoted, quote_append, quote_cons, quote_nil]
      some := by simp
      productive := by decide
      ungrouped := by decide }
  exact around.has (fun _ _ _ _ _ found => castable_of_mem_ways found.mem_ways found.passed)
    fun _ _ => around.not_prefix fun _ _ isName stands => mem_ways_sweep isName stands

theorem has_factory
    (read : Regex.parse ("new " ++ escaped (v.assetRefPath name) ++ "\\((.+)\\)") = .ok regex) :
    (Change.pattern regex (quoted v.assetFactory ++ quoted name ++ "(" ++ firstGroup ++ ")")).Has
      (factoryEffect v name) := by
  have around : Around regex (quoted v.assetFactory ++ quoted name ++ "(" ++ firstGroup ++ ")")
      ("new " ++ v.assetRefPath name ++ "(") ")" (v.assetFactory ++ name ++ "(") ")"
      (.repeated 1 none true (.one .dot)) :=
    { body := by rw [body_construction read]; simp; rfl
      template := by simp [firstGroup, toList_quoted, quote_append, quote_cons, quote_nil]
      some := by simp
      productive := by decide
      ungrouped := by decide }
  have dot : CharClass.dot.mem = fun c => decide (c ≠ '\n') := by
    funext c
    rw [Bool.eq_iff_iff, CharClass.dot, CharClass.mem, Bool.not_eq_true', ← Bool.not_eq_true, mem_single,
      decide_eq_true_eq]
  have found : ∀ s u text rest, Found (.repeated 1 none true (.one .dot)) ")".toList s u text rest →
      OnLine text ∧ ')' ∉ rest.takeWhile (· ≠ '\n') := by
    intro s u text rest found
    refine ⟨⟨found.some rfl, fun inside => ?_⟩, dot ▸ found.not_mem_of_run (by decide)⟩
    exact found.passed.2 (· ≠ '\n') (Expr.only_ne_of_lacks (by decide)) _ inside rfl
  refine around.has (fun _ => found) fun _ _ => around.not_prefix fun s text line stands => ?_
  refine mem_ways_run line.1 stands fun c hc => ?_
  rw [dot, decide_eq_true_eq]
  exact fun same => line.2 (same ▸ hc)

end Patterns

section Rules

variable {t : Target} {v : Vocabulary} {rules : List Rule}

theorem classSignature_have : Have (classSignatureRules t v) (classSignatureEffects t v) :=
  have_literal_cons rfl (by simp [toString]) <| have_literal_cons rfl (by simp) <|
    have_literal_cons rfl (by simp) .nil

theorem namespaces_have (h : namespaceRules = .ok rules) : Have rules namespaceEffects := by
  obtain ⟨assets, pattern, h⟩ := bind_eq_ok.mp h
  obtain ⟨regex, read, rfl⟩ := exists_regex pattern
  rw [← Except.ok.inj h]
  exact .cons ⟨rfl, has_assetsRoot read⟩ <| have_literal_cons rfl (by simp) <|
    have_literal_cons rfl (by simp) .nil

theorem constraints_have (h : genericConstraintRules v = .ok rules) :
    Have rules (constraintEffects v) := by
  obtain ⟨reader, pattern, h⟩ := bind_eq_ok.mp h
  obtain ⟨regex, read, rfl⟩ := exists_regex pattern
  rw [← Except.ok.inj h]
  exact have_singleton (has_reader read)

theorem literalConstructs_have : Have literalConstructRules literalConstructEffects :=
  have_literal_cons rfl (by simp) <| have_literal_cons rfl (by simp) <|
    have_literal_cons rfl (by simp) .nil

theorem arrayTypes_have (h : arrayTypeRules v = .ok rules) : Have rules (arrayTypeEffects v) := by
  obtain ⟨generic, pattern, h⟩ := bind_eq_ok.mp h
  obtain ⟨regex, read, rfl⟩ := exists_regex pattern
  rw [← Except.ok.inj h]
  refine Have.append (.cons ⟨rfl, has_genericArray read⟩ <| have_literal_cons rfl (by simp) .nil) ?_
  simp only [primitiveArrays, List.flatMap_cons, List.flatMap_nil, List.append_nil]
  refine Have.append ?_ (Have.append ?_ ?_) <;>
    exact have_literal_cons rfl (by simp [toString]) <| have_literal_cons rfl (by simp [toString]) .nil

theorem casts_have (h : castRules = .ok rules) : Have rules castEffects := by
  obtain ⟨typeof, pattern, h⟩ := bind_eq_ok.mp h
  obtain ⟨regex, read, rfl⟩ := exists_regex pattern
  rw [← Except.ok.inj h]
  exact have_literal_cons rfl (by simp) (have_singleton (has_typeof read))

theorem domainArrays_have : Have (domainArrayRules v) (domainArrayEffects v) := by
  unfold domainArrayRules domainArrayEffects
  generalize v.references.map _ ++ v.structs.map _ = names
  induction names with
  | nil => exact .nil
  | cons name names ih =>
    exact have_literal_cons rfl (by simp [toString]) <| have_literal_cons rfl (by simp [toString]) ih

/-- The two rules for each enum type, given an effect of the first. -/
theorem enumArrays_have_of {stage : Stage} {group reason : String} {effect : String → Effect}
    (sized : ∀ {name : String} {regex : Regex},
      Regex.parse (escaped (v.referenceArrayOf name) ++ "\\(" ++ callArguments ++ "\\)") = .ok regex →
        (Change.pattern regex (quoted name ++ "[" ++ firstGroup ++ "]")).Has (effect name))
    (h : enumArrayRules stage group reason v = .ok rules) :
    Have rules (v.enums.map fun name => [(s!"{group}_new:{name}", effect name),
      (s!"{group}:{name}", enumEffect v name)]).flatten := by
  refine have_each (fun name rules made => ?_) h
  obtain ⟨_, pattern, made⟩ := bind_eq_ok.mp made
  obtain ⟨regex, read, rfl⟩ := exists_regex pattern
  rw [← Except.ok.inj made]
  exact .cons ⟨rfl, sized read⟩ <| have_literal_cons rfl (by simp [toList_referenceArrayOf]) .nil

theorem enumArrays_have {stage : Stage} {group reason : String}
    (h : enumArrayRules stage group reason v = .ok rules) : Have rules (enumArrayEffects group v) :=
  enumArrays_have_of has_sizedEnum h

theorem setters_have (h : setterArgumentRules = .ok rules) : Have rules setterEffects := by
  obtain ⟨setter, pattern, h⟩ := bind_eq_ok.mp h
  obtain ⟨regex, read, rfl⟩ := exists_regex pattern
  rw [← Except.ok.inj h]
  exact have_singleton (has_setter read)

theorem castSweep_have (h : castSweepRules v = .ok rules) : Have rules (castSweepEffects v) := by
  obtain ⟨sweep, pattern, h⟩ := bind_eq_ok.mp h
  obtain ⟨recheck, made, h⟩ := bind_eq_ok.mp h
  obtain ⟨regex, read, rfl⟩ := exists_regex pattern
  rw [← Except.ok.inj h]
  exact .cons ⟨rfl, has_sweep read⟩ (enumArrays_have made)

theorem assetReferences_have (h : assetReferenceRules v = .ok rules) :
    Have rules (assetReferenceEffects v) := by
  refine have_each (fun name rules made => ?_) h
  obtain ⟨factory, pattern, made⟩ := bind_eq_ok.mp made
  obtain ⟨regex, read, rfl⟩ := exists_regex pattern
  rw [← Except.ok.inj made]
  exact .cons ⟨rfl, has_factory read⟩ <| have_literal_cons rfl (by simp [toString]) .nil

/-- The groups of rules after the class signature. -/
def Groups.later (g : Groups) (v : Vocabulary) : List (List Rule) :=
  [g.namespaces, g.constraints, literalConstructRules, g.arrayTypes, g.casts, domainArrayRules v,
    g.enumArrays, g.setterArguments, g.castSweep, g.assetReferences]

/-- The rules after the class signature have the listed effects. -/
theorem Groups.Of.have {g : Groups} (h : g.Of v) :
    List.Forall₂ Have (g.later v) (laterEffects v) :=
  .cons (namespaces_have h.namespaces) <| .cons (constraints_have h.constraints) <|
  .cons literalConstructs_have <| .cons (arrayTypes_have h.arrayTypes) <|
  .cons (casts_have h.casts) <| .cons domainArrays_have <| .cons (enumArrays_have h.enumArrays) <|
  .cons (setters_have h.setterArguments) <| .cons (castSweep_have h.castSweep) <|
  .cons (assetReferences_have h.assetReferences) .nil

end Rules

end ModelLoading.Conversion
