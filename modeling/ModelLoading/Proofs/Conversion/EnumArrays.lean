import ModelLoading.Proofs.Conversion.Building

/-!
# Arrays of enum types

Whatever wraps an array of an enum type, the output of a conversion has it in native form
(`enum_arrays_stay_native`). The cast sweep ends with two rules for each enum type, the second of which
clears its reference array. All rules after that one are of two kinds: those for further enum types,
which insert a name and a part of the text in square brackets, and those for asset references, which
insert a part of the text in parentheses. No reference array reaches into brackets that its name lacks,
nor does it end before them, as it ends in an angle bracket.
-/

namespace ModelLoading.Conversion

open Edit Text

/-! ## 1. Names without brackets -/

/-- Whether a name has no brackets; dotted identifiers have none. -/
def Unbracketed (name : String) : Prop := ∀ c ∈ ['<', '>', '(', ')', '[', ']'], c ∉ name.toList

instance (name : String) : Decidable (Unbracketed name) :=
  List.decidableBAll (fun c => c ∉ name.toList) _

/-- The names that are written from the cast sweep on have no brackets. -/
structure Vocabulary.Plain (v : Vocabulary) : Prop where
  referenceArray : Unbracketed v.referenceArray
  enums : ∀ name ∈ v.enums, Unbracketed name
  assetFactory : Unbracketed v.assetFactory
  assetRefNamespace : Unbracketed v.assetRefNamespace
  assetRefs : ∀ name ∈ v.assetRefs, Unbracketed name

section Rules

variable {v : Vocabulary} {e name : String} {rules : List Rule}

/-- A reference array is blocked by what encloses something in parentheses or square brackets. -/
theorem blocks_referenceArrayOf (plain : v.Plain) (he : e ∈ v.enums) {front inner : List Char}
    {first last : Char} (hfirst : first = '(' ∨ first = '[') (hlast : last = ')' ∨ last = ']')
    (hfront : '>' ∉ front) :
    (Enclosure.mk front first inner last).Blocks (v.referenceArrayOf e).toList := by
  have lacks : ∀ c, c ∈ ['(', ')', '[', ']'] → c ∉ (v.referenceArrayOf e).toList := by
    intro c hc inside
    have bracket : c ∈ ['<', '>', '(', ')', '[', ']'] := List.mem_cons_of_mem _ (List.mem_cons_of_mem _ hc)
    rw [toList_referenceArrayOf] at inside
    simp only [List.mem_append, List.mem_cons, List.not_mem_nil, or_false] at inside
    rcases inside with array | rfl | element | rfl
    · exact plain.referenceArray c bracket array
    · exact absurd hc (by decide)
    · exact plain.enums e he c bracket element
    · exact absurd hc (by decide)
  refine ⟨lacks first ?_, lacks last ?_, '>', ?_, hfront⟩
  · rcases hfirst with rfl | rfl <;> decide
  · rcases hlast with rfl | rfl <;> decide
  · rw [toList_referenceArrayOf, ← List.cons_append, ← List.append_assoc, List.getLast?_concat]

/-- A reference array does not occur in a text without an angle bracket. -/
theorem not_infix_of_not_mem {s : List Char} (lacks : '<' ∉ s) :
    ¬(v.referenceArrayOf e).toList <:+: s := by
  intro occurs
  refine lacks (occurs.mem ?_)
  simp [toList_referenceArrayOf]

/-! ## 2. The rules for enum types -/

theorem toList_nativeArray (name : String) : s!"{name}[]".toList =
    (Enclosure.mk name.toList '[' [] ']').text := by
  simp [Enclosure.text, toString]

theorem toList_quoted (name : String) :
    (quoted name).toList = Pattern.Template.quote name.toList := by
  simp [quoted]

/-- A quoted text, and the first group between two characters. -/
theorem expand_firstGroup (value : Pattern.Reference → List Char) (front : List Char)
    (first last : Char) (hfirst : first ≠ '$') (hlast : last ≠ '$') :
    Pattern.Template.expand value
        (Pattern.Template.quote front ++ first :: (firstGroup.toList ++ [last])) =
      (Enclosure.mk front first (value (.number 1)) last).text := by
  have group : firstGroup.toList ++ [last] = '$' :: '\x7b' :: (['1'] ++ ['\x7d', last]) := by
    simp [firstGroup]
  rw [group]
  exact Pattern.Template.expand_enclosing value front ['1'] (by decide) hfirst hlast

theorem clears_enumArrayRulesFor {stage : Stage} {group reason : String} (plain : v.Plain)
    (hname : name ∈ v.enums) (h : enumArrayRulesFor stage group reason v name = .ok rules) :
    Clears (v.referenceArrayOf name).toList rules := by
  obtain ⟨sized, unsized, rfl, -, -, change⟩ := enumArrayRulesFor_eq_ok h
  have front : '>' ∉ name.toList := plain.enums name hname '>' (by decide)
  refine Clears.after [sized] (clears_literal change (toList_nativeArray name) ?_ ?_)
  · exact blocks_referenceArrayOf plain hname (.inr rfl) (.inr rfl) front
  · exact not_infix_of_not_mem (by simp)

theorem spares_enumArrayRulesFor {stage : Stage} {group reason : String} (plain : v.Plain)
    (he : e ∈ v.enums) (hname : name ∈ v.enums)
    (h : enumArrayRulesFor stage group reason v name = .ok rules) :
    Spares (v.referenceArrayOf e).toList rules := by
  obtain ⟨sized, unsized, rfl, -, ⟨regex, change⟩, change'⟩ := enumArrayRulesFor_eq_ok h
  have front : '>' ∉ name.toList := plain.enums name hname '>' (by decide)
  have spares_sized : Spares (v.referenceArrayOf e).toList [sized] := by
    have template : (quoted name ++ "[" ++ firstGroup ++ "]").toList =
        Pattern.Template.quote name.toList ++ '[' :: (firstGroup.toList ++ [']']) := by
      simp [toList_quoted]
    have expands := fun value => expand_firstGroup value name.toList '[' ']' (by decide) (by decide)
    rw [← template] at expands
    exact spares_pattern change expands fun inner =>
      blocks_referenceArrayOf plain he (.inr rfl) (.inr rfl) front
  have spares_unsized : Spares (v.referenceArrayOf e).toList [unsized] := by
    refine spares_literal change' (toList_nativeArray name) ?_ ?_
    · exact blocks_referenceArrayOf plain he (.inr rfl) (.inr rfl) front
    · exact not_infix_of_not_mem (by simp)
  exact spares_sized.append spares_unsized

/-- The cast sweep leaves no reference array of an enum type. -/
theorem clears_castSweep (plain : v.Plain) (he : e ∈ v.enums) (h : castSweepRules v = .ok rules) :
    Clears (v.referenceArrayOf e).toList rules := by
  obtain ⟨sweep, recheck, rfl, -, rechecks⟩ := castSweepRules_eq_ok h
  obtain ⟨groups, each, rfl⟩ := flatten_eq_ok rechecks
  obtain ⟨back, forth⟩ := mem_of_mapM_eq_ok each
  refine Clears.after [sweep] (clears_flatten (fun group hgroup => ?_) ?_)
  · obtain ⟨name, hname, rules_eq⟩ := back group hgroup
    exact spares_enumArrayRulesFor plain he hname rules_eq
  · obtain ⟨group, hgroup, rules_eq⟩ := forth e he
    exact ⟨group, hgroup, clears_enumArrayRulesFor plain he rules_eq⟩

/-! ## 3. The rules for asset references -/

theorem spares_assetReferenceRulesFor (plain : v.Plain) (he : e ∈ v.enums) (hname : name ∈ v.assetRefs)
    (h : assetReferenceRulesFor v name = .ok rules) : Spares (v.referenceArrayOf e).toList rules := by
  obtain ⟨factory, cast, rfl, -, ⟨regex, change⟩, change'⟩ := assetReferenceRulesFor_eq_ok h
  have lacks : ∀ c ∈ ['<', '>', '(', ')', '[', ']'], c ∉ v.assetFactory.toList ++ name.toList ∧
      c ∉ (v.assetRefPath name).toList := by
    intro c hc
    have factory := plain.assetFactory c hc
    have namespace_ := plain.assetRefNamespace c hc
    have own := plain.assetRefs name hname c hc
    have dot : c ≠ '.' := by
      rintro rfl
      exact absurd hc (by decide)
    simp [toList_assetRefPath, factory, namespace_, own, dot]
  have spares_factory : Spares (v.referenceArrayOf e).toList [factory] := by
    have template : (quoted v.assetFactory ++ quoted name ++ "(" ++ firstGroup ++ ")").toList =
        Pattern.Template.quote (v.assetFactory.toList ++ name.toList) ++
          '(' :: (firstGroup.toList ++ [')']) := by
      simp [toList_quoted, Pattern.Template.quote]
    have expands := fun value => expand_firstGroup value (v.assetFactory.toList ++ name.toList) '(' ')'
      (by decide) (by decide)
    rw [← template] at expands
    exact spares_pattern change expands fun inner =>
      blocks_referenceArrayOf plain he (.inl rfl) (.inl rfl) (lacks '>' (by decide)).1
  have spares_cast : Spares (v.referenceArrayOf e).toList [cast] := by
    have native : s!"({v.assetRefPath name}[])".toList =
        (Enclosure.mk [] '(' ((v.assetRefPath name).toList ++ ['[', ']']) ')').text := by
      simp [Enclosure.text, toString]
    refine spares_literal change' native ?_ ?_
    · exact blocks_referenceArrayOf plain he (.inl rfl) (.inl rfl) (by simp)
    · exact not_infix_of_not_mem (by simp [(lacks '<' (by decide)).2])
  exact spares_factory.append spares_cast

theorem spares_assetReferences (plain : v.Plain) (he : e ∈ v.enums)
    (h : assetReferenceRules v = .ok rules) : Spares (v.referenceArrayOf e).toList rules := by
  obtain ⟨groups, each, rfl⟩ := flatten_eq_ok h
  refine spares_flatten fun group hgroup => ?_
  obtain ⟨name, hname, rules_eq⟩ := (mem_of_mapM_eq_ok each).1 group hgroup
  exact spares_assetReferenceRulesFor plain he hname rules_eq

end Rules

/-! ## 4. The conversion -/

/-- The output of a conversion has no reference array of an enum type, whatever the source has. The
conversion of a valid target succeeds, unless a name is so long that a pattern for it is too large. -/
theorem enum_arrays_stay_native {t : Target} {v : Vocabulary} (valid : t.validate = .ok ())
    (plain : v.Plain) (source : List Char) :
    (∃ out, convert t v source = .ok out ∧
      ∀ e ∈ v.enums, ¬(v.referenceArrayOf e).toList <:+: out) ∨
    (v.HasLongName ∧ ∃ rule, convert t v source = .error (.rule (.pattern rule .tooLarge))) := by
  rcases pipeline_built (v := v) valid with ⟨g, of, built⟩ | ⟨long, rule, refused⟩
  · refine .inl ⟨_, by rw [convert, built, ok_bind]; rfl, fun e he => ?_⟩
    have late : Clears (v.referenceArrayOf e).toList (g.castSweep ++ g.assetReferences) :=
      (clears_castSweep plain he of.castSweep).append
        (spares_assetReferences plain he of.assetReferences)
    -- whatever the ten groups before do, these two have the last word
    have split : (g.all t v).flatten = ((g.all t v).take 10).flatten ++
        (g.castSweep ++ g.assetReferences) := by
      simp [Groups.all]
    rw [split]
    exact (late.after _) source
  · exact .inr ⟨long, rule, by rw [convert, refused]; rfl⟩

/-- Reference arrays of enum types inside the arguments of others, with the default names. -/
theorem enum_arrays_stay_native_of_nested :
    let t : Target := { payloadType := "Game.Model", className := "Loader", bytesFileName := "m.bytes" }
    let v : Vocabulary := {}
    let area := v.referenceArrayOf "Il2CppAssets.Scripts.Models.Map.AreaType"
    let source := s!"new {area}(new {area}(m[0]), ({area}) m[1])".toList
    t.validate = .ok () ∧ v.Plain ∧ ∃ out, convert t v source = .ok out ∧
      ∀ e ∈ v.enums, ¬(v.referenceArrayOf e).toList <:+: out := by
  intro t v area source
  have valid : t.validate = .ok () := by decide +kernel
  have plain : v.Plain := by
    constructor <;> decide +kernel
  have short : ¬v.HasLongName := by
    unfold Vocabulary.HasLongName
    decide +kernel
  exact ⟨valid, plain, (enum_arrays_stay_native valid plain source).resolve_right fun h => short h.1⟩

end ModelLoading.Conversion
