import ModelLoading.Proofs.Conversion.Patterns
import ModelLoading.Proofs.Edit.Running

/-!
# Building the rules

The rules of a conversion are twelve groups, one for each stage and in the order of the stages, so none
of them is refused for its place. A pattern that is made for a name can be refused for its size, but
only if a name is very long (`pipeline_built`). What the rules are is said by `Groups`.
-/

namespace ModelLoading.Conversion

open Edit Pattern

/-! ## 1. Computations of rules -/

section Computations

variable {α β : Type}

theorem ok_bind {ε : Type} (a : α) (f : α → Except ε β) : Except.ok a >>= f = f a := rfl

theorem bind_eq_ok {ε : Type} {x : Except ε α} {f : α → Except ε β} {b : β} :
    x >>= f = .ok b ↔ ∃ a, x = .ok a ∧ f a = .ok b := by
  cases x with
  | error e => simp [bind, Except.bind]
  | ok a => simp [bind, Except.bind]

theorem mem_of_mapM_eq_ok {ε : Type} {f : α → Except ε β} {as : List α} {bs : List β}
    (h : as.mapM f = .ok bs) :
    (∀ b ∈ bs, ∃ a ∈ as, f a = .ok b) ∧ ∀ a ∈ as, ∃ b ∈ bs, f a = .ok b := by
  induction as generalizing bs with
  | nil =>
    obtain rfl : [] = bs := Except.ok.inj h
    simp
  | cons a as ih =>
    rw [List.mapM_cons] at h
    obtain ⟨b, first, h⟩ := bind_eq_ok.mp h
    obtain ⟨bs, rest, h⟩ := bind_eq_ok.mp h
    obtain rfl := Except.ok.inj h
    obtain ⟨back, forth⟩ := ih rest
    simp only [List.mem_cons, forall_eq_or_imp, exists_eq_or_imp]
    refine ⟨⟨.inl first, fun b hb => .inr (back b hb)⟩, .inl first, fun a ha => .inr (forth a ha)⟩

/-- A computation that succeeds, unless a pattern is too large; that happens only under a condition. -/
def Succeeds (long : Prop) (x : Except Edit.Error α) : Prop :=
  (∃ a, x = .ok a) ∨ long ∧ ∃ rule, x = .error (.pattern rule .tooLarge)

namespace Succeeds

variable {long : Prop}

theorem ok (a : α) : Succeeds long (.ok a) := .inl ⟨a, rfl⟩

theorem bind {x : Except Edit.Error α} {f : α → Except Edit.Error β} (h : Succeeds long x)
    (next : ∀ a, x = .ok a → Succeeds long (f a)) : Succeeds long (x >>= f) := by
  rcases h with ⟨a, done⟩ | ⟨holds, rule, refused⟩
  · rw [done]
    exact next a done
  · exact .inr ⟨holds, rule, by rw [refused]; rfl⟩

theorem mapM {f : α → Except Edit.Error β} {as : List α} (each : ∀ a ∈ as, Succeeds long (f a)) :
    Succeeds long (as.mapM f) := by
  induction as with
  | nil => exact ok []
  | cons a as ih =>
    rw [List.mapM_cons]
    refine (each a (by simp)).bind fun b _ => ?_
    exact (ih fun a ha => each a (by simp [ha])).bind fun bs _ => ok (b :: bs)

theorem pattern {stage : Stage} {name source template : String}
    (parses : (∃ regex, Regex.parse source = .ok regex) ∨
      long ∧ Regex.parse source = .error .tooLarge) :
    Succeeds long (Rule.pattern stage name source template) := by
  unfold Rule.pattern
  rcases parses with ⟨regex, read⟩ | ⟨holds, refused⟩
  · rw [read]
    exact ok _
  · rw [refused]
    exact .inr ⟨holds, name, rfl⟩

end Succeeds

/-- The rule of a pattern that is understood. -/
theorem pattern_eq_ok {stage : Stage} {name source template : String} {r : Rule}
    (h : Rule.pattern stage name source template = .ok r) : ∃ regex,
    r = { name, stage, origin := .pattern, change := .pattern regex template } := by
  unfold Rule.pattern at h
  split at h
  · exact ⟨_, (Except.ok.inj h).symm⟩
  · cases h

end Computations

/-! ## 2. The groups -/

/-- The names that patterns are made for. -/
def Vocabulary.patternNames (v : Vocabulary) : List String :=
  v.referenceArray :: v.assetRefNamespace :: (v.enums ++ v.assetRefs)

/-- Whether a pattern is made for a very long name. -/
def Vocabulary.HasLongName (v : Vocabulary) : Prop := ∃ name ∈ v.patternNames, 30000 < name.length

instance (v : Vocabulary) : Decidable v.HasLongName :=
  inferInstanceAs (Decidable (∃ name ∈ v.patternNames, 30000 < name.length))

/-- The patterns that are made for names. -/
def Vocabulary.patterns (v : Vocabulary) : List String :=
  (v.enums.map fun name => escaped (v.referenceArrayOf name) ++ "\\(" ++ callArguments ++ "\\)") ++
    v.assetRefs.map fun name => "new " ++ escaped (v.assetRefPath name) ++ "\\((.+)\\)"

/-- No pattern that is made for a name is too large. -/
def Vocabulary.Fits (v : Vocabulary) : Prop := ∀ source ∈ v.patterns, Regex.parse source ≠ .error .tooLarge

/-- The groups of rules that are computed. -/
structure Groups where
  namespaces : List Rule
  constraints : List Rule
  arrayTypes : List Rule
  casts : List Rule
  enumArrays : List Rule
  setterArguments : List Rule
  castSweep : List Rule
  assetReferences : List Rule

/-- All groups of rules. -/
def Groups.all (g : Groups) (t : Target) (v : Vocabulary) : List (List Rule) :=
  [headerRules t, classSignatureRules t v, g.namespaces, g.constraints, literalConstructRules,
    g.arrayTypes, g.casts, domainArrayRules v, g.enumArrays, g.setterArguments, g.castSweep,
    g.assetReferences]

/-- The groups are those of a vocabulary. -/
structure Groups.Of (v : Vocabulary) (g : Groups) : Prop where
  namespaces : namespaceRules = .ok g.namespaces
  constraints : genericConstraintRules v = .ok g.constraints
  arrayTypes : arrayTypeRules v = .ok g.arrayTypes
  casts : castRules = .ok g.casts
  enumArrays : enumArrayRules .enumArrays "enum_array"
    "array and domain rules wrap enum element types too" v = .ok g.enumArrays
  setterArguments : setterArgumentRules = .ok g.setterArguments
  castSweep : castSweepRules v = .ok g.castSweep
  assetReferences : assetReferenceRules v = .ok g.assetReferences

section Groups

variable {t : Target} {v : Vocabulary}

theorem exists_groups {groups : List (List Rule)} (h : ruleGroups t v = .ok groups) :
    ∃ g, Groups.Of v g ∧ groups = g.all t v := by
  unfold ruleGroups at h
  obtain ⟨namespaces, hnamespaces, h⟩ := bind_eq_ok.mp h
  obtain ⟨constraints, hconstraints, h⟩ := bind_eq_ok.mp h
  obtain ⟨arrayTypes, harrayTypes, h⟩ := bind_eq_ok.mp h
  obtain ⟨casts, hcasts, h⟩ := bind_eq_ok.mp h
  obtain ⟨enumArrays, henumArrays, h⟩ := bind_eq_ok.mp h
  obtain ⟨setterArguments, hsetters, h⟩ := bind_eq_ok.mp h
  obtain ⟨castSweep, hsweep, h⟩ := bind_eq_ok.mp h
  obtain ⟨assetReferences, hassets, h⟩ := bind_eq_ok.mp h
  refine ⟨⟨namespaces, constraints, arrayTypes, casts, enumArrays, setterArguments, castSweep,
    assetReferences⟩, ?_, (Except.ok.inj h).symm⟩
  exact ⟨hnamespaces, hconstraints, harrayTypes, hcasts, henumArrays, hsetters, hsweep, hassets⟩

theorem toList_referenceArrayOf (name : String) : (v.referenceArrayOf name).toList =
    v.referenceArray.toList ++ '<' :: (name.toList ++ ['>']) := by
  simp [Vocabulary.referenceArrayOf, toString]

theorem toList_assetRefPath (name : String) :
    (v.assetRefPath name).toList = v.assetRefNamespace.toList ++ '.' :: name.toList := by
  simp [Vocabulary.assetRefPath, toString]

/-- One of two names is long if both together are very long. -/
theorem hasLongName_of_length (name name' : String) (h : name ∈ v.patternNames)
    (h' : name' ∈ v.patternNames) (long : 60000 < name.length + name'.length) : v.HasLongName := by
  by_cases first : 30000 < name.length
  · exact ⟨name, h, first⟩
  · exact ⟨name', h', by omega⟩

/-- Only a pattern for a very long name is too large. -/
theorem hasLongName_of_not_fits (large : ¬v.Fits) : v.HasLongName := by
  obtain ⟨source, made, refused⟩ : ∃ source ∈ v.patterns, Regex.parse source = .error .tooLarge := by
    simpa [Vocabulary.Fits] using large
  rcases List.mem_append.mp made with enum | asset
  · obtain ⟨name, hname, rfl⟩ := List.mem_map.mp enum
    rcases parse_call (v.referenceArrayOf name) with ⟨regex, read⟩ | ⟨long, -⟩
    · cases read.symm.trans refused
    · rw [← String.length_toList, toList_referenceArrayOf] at long
      simp only [List.length_append, List.length_cons, List.length_nil, String.length_toList] at long
      exact hasLongName_of_length v.referenceArray name (by simp [Vocabulary.patternNames])
        (by simp [Vocabulary.patternNames, hname]) (by omega)
  · obtain ⟨name, hname, rfl⟩ := List.mem_map.mp asset
    rcases parse_construction (v.assetRefPath name) with ⟨regex, read⟩ | ⟨long, -⟩
    · cases read.symm.trans refused
    · rw [← String.length_toList, toList_assetRefPath] at long
      simp only [List.length_append, List.length_cons, String.length_toList] at long
      exact hasLongName_of_length v.assetRefNamespace name (by simp [Vocabulary.patternNames])
        (by simp [Vocabulary.patternNames, hname]) (by omega)

theorem enumArrayRules_succeeds (stage : Stage) (group reason : String) :
    Succeeds (¬v.Fits) (enumArrayRules stage group reason v) := by
  refine (Succeeds.mapM fun name hname => ?_).bind fun _ _ => .ok _
  have parses := (parse_call (v.referenceArrayOf name)).imp_right And.right
  exact (Succeeds.pattern (parses.imp_right fun refused =>
    ⟨fun fits => fits _ (List.mem_append_left _ (List.mem_map_of_mem hname)) refused, refused⟩)).bind
    fun _ _ => .ok _

theorem assetReferenceRules_succeeds : Succeeds (¬v.Fits) (assetReferenceRules v) := by
  refine (Succeeds.mapM fun name hname => ?_).bind fun _ _ => .ok _
  have parses := (parse_construction (v.assetRefPath name)).imp_right And.right
  exact (Succeeds.pattern (parses.imp_right fun refused =>
    ⟨fun fits => fits _ (List.mem_append_right _ (List.mem_map_of_mem hname)) refused, refused⟩)).bind
    fun _ _ => .ok _

theorem ruleGroups_succeeds : Succeeds (¬v.Fits) (ruleGroups t v) := by
  unfold ruleGroups
  refine Succeeds.bind ?_ fun _ _ => Succeeds.bind ?_ fun _ _ => Succeeds.bind ?_ fun _ _ =>
    Succeeds.bind ?_ fun _ _ => (enumArrayRules_succeeds ..).bind fun _ _ =>
    Succeeds.bind ?_ fun _ _ => Succeeds.bind ?_ fun _ _ => assetReferenceRules_succeeds.bind
    fun _ _ => .ok _
  · exact (Succeeds.pattern (.inl parse_assetsRoot)).bind fun _ _ => .ok _
  · exact (Succeeds.pattern (.inl parse_reader)).bind fun _ _ => .ok _
  · exact (Succeeds.pattern (.inl parse_genericArray)).bind fun _ _ => .ok _
  · exact (Succeeds.pattern (.inl parse_typeof)).bind fun _ _ => .ok _
  · exact (Succeeds.pattern (.inl parse_setter)).bind fun _ _ => .ok _
  · exact (Succeeds.pattern (.inl parse_sweep)).bind fun _ _ =>
      (enumArrayRules_succeeds ..).bind fun _ _ => .ok _

/-! ## 3. The rules for each name -/

/-- The two rules for an enum type. -/
theorem enumArrayRulesFor_eq_ok {stage : Stage} {group reason name : String} {rules : List Rule}
    (h : enumArrayRulesFor stage group reason v name = .ok rules) :
    ∃ sized plain, rules = [sized, plain] ∧ OfStage stage rules ∧
      (∃ regex, sized.change = .pattern regex (quoted name ++ "[" ++ firstGroup ++ "]")) ∧
      plain.change = .literal (v.referenceArrayOf name) s!"{name}[]" := by
  obtain ⟨sized, pattern, h⟩ := bind_eq_ok.mp h
  obtain ⟨regex, rfl⟩ := pattern_eq_ok pattern
  refine ⟨_, _, (Except.ok.inj h).symm, ?_, ⟨regex, rfl⟩, rfl⟩
  rw [← Except.ok.inj h]
  simp [OfStage, Rule.withOrigin, Rule.runsAfter, Rule.literal]

/-- The two rules for an asset reference type. -/
theorem assetReferenceRulesFor_eq_ok {name : String} {rules : List Rule}
    (h : assetReferenceRulesFor v name = .ok rules) :
    ∃ factory cast, rules = [factory, cast] ∧ OfStage .assetReferences rules ∧
      (∃ regex, factory.change =
        .pattern regex (quoted v.assetFactory ++ quoted name ++ "(" ++ firstGroup ++ ")")) ∧
      cast.change = .literal s!"({v.referenceArrayOf (v.assetRefPath name)})"
        s!"({v.assetRefPath name}[])" := by
  obtain ⟨factory, pattern, h⟩ := bind_eq_ok.mp h
  obtain ⟨regex, rfl⟩ := pattern_eq_ok pattern
  refine ⟨_, _, (Except.ok.inj h).symm, ?_, ⟨regex, rfl⟩, rfl⟩
  rw [← Except.ok.inj h]
  simp [OfStage, Rule.withOrigin, Rule.runsAfter, Rule.literal]

/-- Rules made for each of several names. -/
theorem flatten_eq_ok {f : String → Except Edit.Error (List Rule)} {names : List String}
    {rules : List Rule} (h : (do return (← names.mapM f).flatten) = .ok rules) :
    ∃ groups, names.mapM f = .ok groups ∧ rules = groups.flatten := by
  obtain ⟨groups, each, h⟩ := bind_eq_ok.mp h
  exact ⟨groups, each, (Except.ok.inj h).symm⟩

/-- Rules that are made for each of several names, one name after another. -/
theorem each_induction {f : String → Except Edit.Error (List Rule)} {P : List String → List Rule → Prop}
    (nil : P [] [])
    (cons : ∀ name group names rules, f name = .ok group → P names rules → P (name :: names) (group ++ rules))
    {names : List String} {rules : List Rule} (h : (do return (← names.mapM f).flatten) = .ok rules) :
    P names rules := by
  obtain ⟨groups, made, rfl⟩ := flatten_eq_ok h
  clear h
  induction names generalizing groups with
  | nil =>
    obtain rfl : [] = groups := Except.ok.inj made
    exact nil
  | cons name names ih =>
    rw [List.mapM_cons] at made
    obtain ⟨group, first, made⟩ := bind_eq_ok.mp made
    obtain ⟨groups, others, made⟩ := bind_eq_ok.mp made
    obtain rfl := Except.ok.inj made
    exact cons name group names _ first (ih groups others)

theorem ofStage_flatten {stage : Stage} {f : String → Except Edit.Error (List Rule)}
    {names : List String} {rules : List Rule}
    (h : (do return (← names.mapM f).flatten) = .ok rules)
    (each : ∀ name rules, f name = .ok rules → OfStage stage rules) : OfStage stage rules := by
  obtain ⟨groups, made, rfl⟩ := flatten_eq_ok h
  intro r hr
  obtain ⟨group, inside, member⟩ := List.mem_flatten.mp hr
  obtain ⟨name, -, group_eq⟩ := (mem_of_mapM_eq_ok made).1 group inside
  exact each name group group_eq r member

theorem ofStage_enumArrays {stage : Stage} {group reason : String} {rules : List Rule}
    (h : enumArrayRules stage group reason v = .ok rules) : OfStage stage rules :=
  ofStage_flatten h fun _ _ made =>
    have ⟨_, _, _, staged, _⟩ := enumArrayRulesFor_eq_ok made
    staged

/-- The rule for array casts, and then those that revert it. -/
theorem castSweepRules_eq_ok {rules : List Rule} (h : castSweepRules v = .ok rules) :
    ∃ sweep recheck, rules = sweep :: recheck ∧ sweep.stage = .castSweep ∧
      enumArrayRules .castSweep "enum_array_recheck" "array_cast_sweep wraps enum casts too" v =
        .ok recheck := by
  obtain ⟨sweep, pattern, h⟩ := bind_eq_ok.mp h
  obtain ⟨recheck, made, h⟩ := bind_eq_ok.mp h
  obtain ⟨regex, rfl⟩ := pattern_eq_ok pattern
  exact ⟨_, recheck, (Except.ok.inj h).symm, rfl, made⟩

/-! ## 4. The pipeline -/

/-- A group that begins with the computation of a pattern. -/
theorem ofStage_of_pattern {stage : Stage} {name source template : String} {make : Rule → List Rule}
    {rules : List Rule} (h : (do return make (← Rule.pattern stage name source template)) = .ok rules)
    (staged : ∀ r : Rule, r.stage = stage → OfStage stage (make r)) : OfStage stage rules := by
  obtain ⟨r, pattern, made⟩ := bind_eq_ok.mp h
  obtain ⟨regex, rfl⟩ := pattern_eq_ok pattern
  rw [← Except.ok.inj made]
  exact staged _ rfl

/-- There is a group for each stage. -/
theorem Groups.Of.staged {g : Groups} (h : g.Of v) : List.Forall₂ OfStage Stage.all (g.all t v) := by
  have header : OfStage .header (headerRules t) := by simp [OfStage, headerRules, Rule.insertFirst]
  have classSignature : OfStage .classSignature (classSignatureRules t v) := by
    simp [OfStage, classSignatureRules, Rule.literal]
  have namespaces : OfStage .namespaces g.namespaces :=
    ofStage_of_pattern h.namespaces (by simp [OfStage, Rule.literal, Rule.runsAfter])
  have constraints : OfStage .genericConstraints g.constraints :=
    ofStage_of_pattern h.constraints (by simp [OfStage])
  have literals : OfStage .literalConstructs literalConstructRules := by
    simp [OfStage, literalConstructRules, Rule.literal, Rule.runsAfter]
  have arrayTypes : OfStage .arrayTypes g.arrayTypes :=
    ofStage_of_pattern h.arrayTypes
      (by simp [OfStage, primitiveArrays, Rule.literal, Rule.withOrigin])
  have casts : OfStage .casts g.casts :=
    ofStage_of_pattern h.casts (by simp [OfStage, Rule.literal])
  have domainArrays : OfStage .domainArrays (domainArrayRules v) := by
    intro r hr
    obtain ⟨entry, -, inside⟩ := List.mem_flatMap.mp hr
    simp only [List.mem_cons, List.not_mem_nil, or_false] at inside
    rcases inside with rfl | rfl <;> rfl
  have setterArguments : OfStage .setterArguments g.setterArguments :=
    ofStage_of_pattern h.setterArguments (by simp [OfStage, Rule.withOrigin])
  have castSweep : OfStage .castSweep g.castSweep := by
    obtain ⟨sweep, recheck, made, staged, rechecks⟩ := castSweepRules_eq_ok h.castSweep
    rw [made]
    intro r hr
    rcases List.mem_cons.mp hr with rfl | later
    · exact staged
    · exact ofStage_enumArrays rechecks r later
  have assetReferences : OfStage .assetReferences g.assetReferences :=
    ofStage_flatten h.assetReferences fun _ _ made =>
      have ⟨_, _, _, staged, _⟩ := assetReferenceRulesFor_eq_ok made
      staged
  exact .cons header <| .cons classSignature <| .cons namespaces <| .cons constraints <| .cons literals <|
    .cons arrayTypes <| .cons casts <| .cons domainArrays <| .cons (ofStage_enumArrays h.enumArrays) <|
    .cons setterArguments <| .cons castSweep <| .cons assetReferences .nil

/-- The groups are in the order of their stages. -/
theorem Groups.Of.inOrder {g : Groups} (h : g.Of v) : InOrder (g.all t v).flatten :=
  inOrder_flatten h.staged (by decide)

/-- The rules of a stage are those of its group. -/
theorem Groups.Of.ofStage {g : Groups} (h : g.Of v) {stage : Stage} {group : List Rule}
    (member : (stage, group) ∈ Stage.all.zip (g.all t v)) :
    (⟨(g.all t v).flatten⟩ : Pipeline).ofStage stage = group :=
  filter_flatten h.staged (by decide) member

theorem addGroups_of_inOrder {p : Pipeline} {groups : List (List Rule)}
    (order : InOrder (p.rules ++ groups.flatten)) :
    addGroups p groups = .ok ⟨p.rules ++ groups.flatten⟩ := by
  induction groups generalizing p with
  | nil => simp [addGroups]
  | cons group groups ih =>
    rw [List.flatten_cons, ← List.append_assoc] at order ⊢
    have first : InOrder (p.rules ++ group) := order.sublist (List.sublist_append_left ..)
    rw [addGroups, Pipeline.extend_of_inOrder first]
    exact ih order

/-- The rules of a valid target can be built, unless a pattern that is made for a name is too large. -/
theorem pipeline_cases (valid : t.validate = .ok ()) :
    (∃ g, Groups.Of v g ∧ pipeline t v = .ok ⟨(g.all t v).flatten⟩) ∨
      ¬v.Fits ∧ ∃ rule, pipeline t v = .error (.rule (.pattern rule .tooLarge)) := by
  have built : pipeline t v = (ruleGroups t v >>= addGroups {}).mapError .rule := by
    rw [pipeline, valid, ok_bind]
  rw [built]
  rcases ruleGroups_succeeds (t := t) (v := v) with ⟨groups, done⟩ | ⟨large, rule, refused⟩
  · obtain ⟨g, of, same⟩ := exists_groups done
    have order : InOrder groups.flatten := same ▸ of.inOrder
    have added : addGroups {} groups = .ok ⟨groups.flatten⟩ := addGroups_of_inOrder order
    refine .inl ⟨g, of, ?_⟩
    rw [done, ← same, ok_bind, added]
    rfl
  · exact .inr ⟨large, rule, by rw [refused]; rfl⟩

/-- The rules of a valid target can be built, unless a pattern is made for a very long name and is too
large. -/
theorem pipeline_built (valid : t.validate = .ok ()) :
    (∃ g, Groups.Of v g ∧ pipeline t v = .ok ⟨(g.all t v).flatten⟩) ∨
      v.HasLongName ∧ ∃ rule, pipeline t v = .error (.rule (.pattern rule .tooLarge)) :=
  (pipeline_cases valid).imp_right (And.imp_left hasLongName_of_not_fits)

end Groups

end ModelLoading.Conversion
