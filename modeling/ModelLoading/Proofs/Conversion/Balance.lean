import Mathlib.Data.List.Count
import ModelLoading.Proofs.Conversion.Wording

/-!
# Brackets and lines

A conversion keeps the balance of every kind of bracket, and adds a line only where it writes two
statements for one (`structure_kept`).

Both are numbers that add up along a text, so only the short texts of the effects count: no effect
changes a balance, and all but one keep the number of lines. The names of a target may be any texts
without brackets and line breaks, as these weigh nothing.
-/

namespace ModelLoading.Conversion

open Edit

/-! ## 1. Weights -/

/-- The weight of a text, given that of each character. -/
def weigh (weight : Char → Int) (s : List Char) : Int := (s.map weight).sum

section Weights

variable {weight : Char → Int}

theorem weigh_append (a b : List Char) : weigh weight (a ++ b) = weigh weight a + weigh weight b := by
  simp [weigh]

theorem weigh_eq_zero {s : List Char} (each : ∀ c ∈ s, weight c = 0) : weigh weight s = 0 := by
  induction s with
  | nil => rfl
  | cons c s ih =>
    rw [weigh, List.map_cons, List.sum_cons, each c (by simp), zero_add]
    exact ih fun c hc => each c (by simp [hc])

end Weights

/-- The number of opening brackets less that of closing ones. -/
def balance (opening closing : Char) (s : List Char) : Int := s.count opening - s.count closing

/-- The weight of a character in a balance. -/
def bracketWeight (opening closing c : Char) : Int :=
  (if c = opening then 1 else 0) - (if c = closing then 1 else 0)

theorem balance_eq_weigh (opening closing : Char) (s : List Char) :
    balance opening closing s = weigh (bracketWeight opening closing) s := by
  induction s with
  | nil => rfl
  | cons c s ih =>
    rw [weigh, List.map_cons, List.sum_cons, ← weigh, ← ih, balance, balance, bracketWeight,
      List.count_cons, List.count_cons]
    simp only [beq_iff_eq]
    split <;> split <;> push_cast <;> ring

/-- The weight of a character in the number of line breaks. -/
def lineWeight (c : Char) : Int := if c = '\n' then 1 else 0

theorem count_eq_weigh (s : List Char) : (s.count '\n' : Int) = weigh lineWeight s := by
  induction s with
  | nil => rfl
  | cons c s ih =>
    rw [weigh, List.map_cons, List.sum_cons, ← weigh, ← ih, lineWeight, List.count_cons]
    simp only [beq_iff_eq]
    split <;> push_cast <;> ring

/-! ## 2. What the texts weigh -/

/-- The kinds of brackets. -/
def brackets : List (Char × Char) := [('(', ')'), ('[', ']'), ('\x7b', '\x7d')]

/-- The rule that writes two statements for one, on lines of their own. -/
def doublingRule : String := "target_type_field"

/-- Effects that change what a text weighs only under one name, and then by a number. -/
def Changes (weight : Char → Int) (number : Int) (effects : List (String × Effect)) : Prop :=
  ∀ x ∈ texts effects, x.2.gain (weigh weight) = if x.1 = doublingRule.toList then number else 0

set_option maxRecDepth 10000 in
theorem later_changes_balance : ∀ kind ∈ brackets,
    Changes (bracketWeight kind.1 kind.2) 0 (laterEffects {}).flatten := by
  unfold Changes
  rw [laterTexts.property]
  decide

set_option maxRecDepth 10000 in
theorem later_changes_lines : Changes lineWeight 1 (laterEffects {}).flatten := by
  unfold Changes
  rw [laterTexts.property]
  decide

/-- The texts of a target. -/
def Target.texts (t : Target) : List String :=
  [t.payloadType, t.className, t.bytesFileName] ++ t.namespaceName.toList

/-- A target whose texts have no brackets and no line breaks. -/
def Target.Unstructured (t : Target) : Prop :=
  ∀ text ∈ t.texts, ∀ c ∈ text.toList, c ≠ '\n' ∧ ∀ kind ∈ brackets, c ≠ kind.1 ∧ c ≠ kind.2

instance (t : Target) : Decidable t.Unstructured :=
  let (text : String) : Decidable (∀ c ∈ text.toList, c ≠ '\n' ∧ ∀ kind ∈ brackets, c ≠ kind.1 ∧ c ≠ kind.2) :=
    List.decidableBAll _ text.toList
  List.decidableBAll _ t.texts

/-- The fixed parts of a class signature. -/
def fixedParts : List String :=
  ["Loader : ", "IGameModelLoader", " : ", "ModByteLoader", "<", ">", "\tpublic", "\tprotected override",
    "object[] m;", "protected override string BytesFileName => \"", "\";"]

section Targets

variable {t : Target} {weight : Char → Int} {number : Int}

theorem Changes.append {effects effects' : List (String × Effect)} (h : Changes weight number effects)
    (h' : Changes weight number effects') : Changes weight number (effects ++ effects') := by
  intro x member
  rw [texts, List.map_append, List.mem_append] at member
  exact member.elim (h x) (h' x)

theorem changes_literal {name what replacement : String} (other : name ≠ doublingRule)
    (old : weigh weight what.toList = 0) (new : weigh weight replacement.toList = 0) :
    Changes weight number [(name, literalEffect what replacement)] := by
  intro x member
  obtain rfl := List.mem_singleton.mp member
  have nothing : weigh weight [] = 0 := rfl
  simp [literalEffect, Wording.gain, old, new, nothing, String.toList_inj, other]

theorem weigh_toList_append {a b : String} (ha : weigh weight a.toList = 0)
    (hb : weigh weight b.toList = 0) : weigh weight (a ++ b).toList = 0 := by
  rw [String.toList_append, weigh_append, ha, hb, add_zero]

theorem mem_of_mem_shortName {c : Char} (h : c ∈ t.shortName.toList) : c ∈ t.payloadType.toList := by
  rw [Target.shortName, String.toList_ofList, Target.lastSegment, List.mem_reverse] at h
  exact List.mem_reverse.mp ((List.takeWhile_prefix _).subset h)

/-- The class signature keeps what a text weighs if neither its fixed parts nor the texts of the target
weigh anything. -/
theorem classSignature_changes (light : ∀ text ∈ t.texts, ∀ c ∈ text.toList, weight c = 0)
    (fixed : ∀ part ∈ fixedParts, weigh weight part.toList = 0) :
    Changes weight number (classSignatureEffects t {}) := by
  have name : ∀ text ∈ t.texts, weigh weight text.toList = 0 :=
    fun text member => weigh_eq_zero (light text member)
  have short : weigh weight t.shortName.toList = 0 :=
    weigh_eq_zero fun c hc => light t.payloadType (by simp [Target.texts]) c (mem_of_mem_shortName hc)
  have class_ := name t.className (by simp [Target.texts])
  have payload := name t.payloadType (by simp [Target.texts])
  have bytes := name t.bytesFileName (by simp [Target.texts])
  rw [fixedParts] at fixed
  repeat rw [List.forall_mem_cons] at fixed
  obtain ⟨loader, interface, colon, base, opening, closing, members, overrides, table, property_, ending, -⟩ :=
    fixed
  -- the texts are read off from left to right
  have generated := weigh_toList_append (weigh_toList_append short loader) interface
  have declared := weigh_toList_append (weigh_toList_append class_ colon) base
  have signature := weigh_toList_append (weigh_toList_append (weigh_toList_append declared opening) payload)
    closing
  have file := weigh_toList_append (weigh_toList_append property_ bytes) ending
  exact (changes_literal (by decide) generated signature).append <|
    (changes_literal (by decide) members overrides).append <| changes_literal (by decide) table file

end Targets

/-! ## 3. Conversions -/

/-- What a run changes is what it changes under one name. -/
theorem sum_gains {weight : Char → Int} {number : Int} {hits : List Hit}
    {effects : List (String × Effect)} (names : hits.map (·.rule) = effects.map (·.1))
    (changes : Changes weight number effects) :
    (List.zipWith (fun hit e => (hit.matched : Int) * e.2.gain (weigh weight)) hits effects).sum =
      ((hits.filter (·.rule = doublingRule)).map fun hit => hit.matched * number).sum := by
  induction hits generalizing effects with
  | nil => simp
  | cons hit hits ih =>
    cases effects with
    | nil => cases names
    | cons e effects =>
      rw [List.map_cons, List.map_cons, List.cons.injEq] at names
      obtain ⟨here, later⟩ := List.forall_mem_cons.mp changes
      have gain : e.2.gain (weigh weight) = if hit.rule = doublingRule then number else 0 := by
        rw [names.1]
        simpa only [String.toList_inj] using here
      rw [List.zipWith_cons_cons, List.sum_cons, ih names.2 later, gain, List.filter_cons]
      by_cases doubling : hit.rule = doublingRule <;> simp [doubling]

/-- One rule writes two statements for one. -/
theorem count_doubling (t : Target) :
    ((classSignatureEffects t {} ++ (laterEffects {}).flatten).map (·.1)).count doublingRule = 1 := by
  have later : ((texts (laterEffects {}).flatten).map (·.1)).count doublingRule.toList = 1 := by
    rw [laterTexts.property]
    decide
  have names : (texts (laterEffects {}).flatten).map (·.1) =
      ((laterEffects {}).flatten.map (·.1)).map String.toList := by
    rw [texts, List.map_map, List.map_map]
    rfl
  rw [names, List.count_map_of_injective _ String.toList fun _ _ => String.toList_inj.mp] at later
  rw [List.map_append, List.count_append, later]
  have signature : (classSignatureEffects t {}).map (·.1) =
      ["class_signature", "public_members", "object_table_field"] := rfl
  rw [signature]
  decide

set_option maxRecDepth 10000 in
/-- The preamble has no brackets. -/
theorem weigh_preamble :
    ∀ kind ∈ brackets, weigh (bracketWeight kind.1 kind.2) preamble.toList = 0 := by
  rw [preambleText.property]
  decide

/-- The fixed parts of a class signature have balanced brackets and are on one line. -/
theorem weigh_fixedParts (part : String) (member : part ∈ fixedParts) :
    weigh lineWeight part.toList = 0 ∧
      ∀ kind ∈ brackets, weigh (bracketWeight kind.1 kind.2) part.toList = 0 := by
  revert part
  decide

section Conversions

variable {t : Target} (plain : t.Unstructured)

include plain

/-- The texts of a target without brackets and line breaks weigh nothing. -/
theorem Target.Unstructured.light :
    (∀ text ∈ t.texts, ∀ c ∈ text.toList, lineWeight c = 0) ∧ ∀ kind ∈ brackets,
      ∀ text ∈ t.texts, ∀ c ∈ text.toList, bracketWeight kind.1 kind.2 c = 0 := by
  constructor
  · exact fun text member c inside => if_neg (plain text member c inside).1
  · intro kind bracket text member c inside
    obtain ⟨opening, closing⟩ := (plain text member c inside).2 kind bracket
    simp [bracketWeight, opening, closing]

theorem weigh_header {kind : Char × Char} (bracket : kind ∈ brackets) :
    weigh (bracketWeight kind.1 kind.2) (header t).toList = 0 := by
  have fixed : ∀ kind ∈ brackets, weigh (bracketWeight kind.1 kind.2) "\nnamespace ".toList = 0 ∧
      weigh (bracketWeight kind.1 kind.2) ";\n".toList = 0 := by decide
  have start := weigh_preamble kind bracket
  unfold header
  split
  · rename_i name named
    have light := weigh_eq_zero (plain.light.2 kind bracket name (by simp [Target.texts, named]))
    split
    · exact start
    · exact weigh_toList_append start (weigh_toList_append (weigh_toList_append (fixed kind bracket).1 light)
        (fixed kind bracket).2)
  · exact start

/-- A conversion keeps the balance of every kind of bracket, and the lines of the output are those of the
header and of the source, and one for each place where one rule wrote two statements for one. -/
theorem structure_kept (valid : t.validate = .ok ()) (source : List Char) :
    ∃ out hits, convertReporting t {} source = .ok (out, hits) ∧
      (∀ kind ∈ brackets, balance kind.1 kind.2 out = balance kind.1 kind.2 source) ∧
      ∃ hit, hits.filter (·.rule = doublingRule) = [hit] ∧
        out.count '\n' = (header t).toList.count '\n' + source.count '\n' + hit.matched := by
  obtain ⟨rules, built, has⟩ := exists_rules valid
  have body := (classSignature_have (t := t) (v := {})).append has
  have names := body.names ((header t).toList ++ source)
  -- a number that adds up changes by what is gained under one name
  have measured := fun {weight : Char → Int} {number : Int} (changes : Changes weight number _) =>
    (body.measure (@weigh_append weight) ((header t).toList ++ source)).trans
      (congrArg (_ + ·) (sum_gains names changes))
  generalize ran : Pipeline.runReporting (classSignatureRules t {} ++ rules)
    ((header t).toList ++ source) = result at names measured
  obtain ⟨out, hits⟩ := result
  refine ⟨out, Pipeline.hit (.insertFirst .header "preamble" (header t)) 1 :: hits, ?_, ?_, ?_⟩
  · have report : Pipeline.report ⟨headerRules t ++ (classSignatureRules t {} ++ rules)⟩ source =
        (out, Pipeline.hit (.insertFirst .header "preamble" (header t)) 1 :: hits) := by
      rw [Pipeline.report, headerRules, List.singleton_append, Pipeline.runReporting_cons]
      simp only [Rule.insertFirst, Change.apply, ran]
    rw [convertReporting, convertLogging, built]
    exact congrArg Except.ok report
  · intro kind bracket
    have changes := (classSignature_changes (plain.light.2 kind bracket)
      (fun part member => (weigh_fixedParts part member).2 kind bracket)).append
      (later_changes_balance kind bracket)
    have kept := measured changes
    simp only [mul_zero] at kept
    rw [balance_eq_weigh, balance_eq_weigh, kept, weigh_append, weigh_header plain bracket]
    simp
  · have one : (hits.filter (·.rule = doublingRule)).length = 1 := by
      rw [← List.countP_eq_length_filter, ← count_doubling t, ← names, List.count, List.countP_map]
      rfl
    obtain ⟨hit, only⟩ := List.length_eq_one_iff.mp one
    have signature : Changes lineWeight 1 (classSignatureEffects t {}) :=
      classSignature_changes plain.light.1 fun part member => (weigh_fixedParts part member).1
    have lines := measured (signature.append later_changes_lines)
    rw [only, ← count_eq_weigh, ← count_eq_weigh, List.count_append] at lines
    simp only [mul_one, List.map_cons, List.map_nil, List.sum_cons, List.sum_nil, add_zero] at lines
    refine ⟨hit, ?_, by exact_mod_cast lines⟩
    refine (List.filter_cons_of_neg ?_).trans only
    change ¬decide ("preamble" = doublingRule) = true
    decide

end Conversions

/-- A source with brackets of each kind, in a namespace. -/
theorem structure_kept_of_namespace :
    let t : Target := { payloadType := "Game.Model", className := "Models.ModelLoader",
                        bytesFileName := "m.bytes", namespaceName := some "Models" }
    let source := "void Set_v() \x7b\n\tvar a = new T[br.ReadInt32()];\n\tb[0] = (Tower[]) m[typeof(T)];\n\x7d".toList
    t.validate = .ok () ∧ t.Unstructured ∧ ∃ out hits, convertReporting t {} source = .ok (out, hits) ∧
      (∀ kind ∈ brackets, balance kind.1 kind.2 out = balance kind.1 kind.2 source) ∧
      ∃ hit, hits.filter (·.rule = doublingRule) = [hit] ∧
        out.count '\n' = (header t).toList.count '\n' + source.count '\n' + hit.matched := by
  intro t source
  have valid : t.validate = .ok () := by decide
  have plain : t.Unstructured := by decide
  exact ⟨valid, plain, structure_kept plain valid source⟩

end ModelLoading.Conversion
