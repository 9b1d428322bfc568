import ModelLoading.Proofs.Conversion.Building
import ModelLoading.Proofs.Conversion.Effects
import ModelLoading.Proofs.Edit.Clearing
import ModelLoading.Proofs.Text.Occurrences

/-!
# Conversions with the default names

With the default names the rules of every valid target are a header, a class signature, and rules with
known effects (`exists_rules`, `exists_converted`). The texts of these effects are spelled out
(`laterTexts`), so that a question about them is decided without looking into strings. What the rules look
for does not occur in the preamble, so that they find only what stands behind it (`misses_of_missesBehind`).
-/

namespace ModelLoading.Conversion

open Edit Text

/-! ## 1. Texts -/

/-- The names of rules and the texts of their effects, with strings as lists of characters. -/
def texts (effects : List (String × Effect)) : List (List Char × Wording) :=
  effects.map fun e => (e.1.toList, e.2.toWording)

/-- The texts of the rules after the class signature, spelled out. -/
def laterTexts : { spelled : List (List Char × Wording) //
    texts (laterEffects {}).flatten = spelled } := ⟨_, by
  simp only [texts, laterEffects, namespaceEffects, constraintEffects, readerEffect, exactEffect,
    aroundEffect, wordEffect, literalEffect, literalConstructEffects, arrayTypeEffects,
    primitiveArrays, castEffects, typeofEffect, domainArrayEffects, enumArrayEffects, sizedEnumEffect,
    enumEffect, setterEffects, setterEffect, castSweepEffects, sweepEffect, assetReferenceEffects,
    factoryEffect, assetArrayEffect, Vocabulary.referenceArrayOf, Vocabulary.structArrayOf,
    Vocabulary.assetRefPath, targetType, toString, String.toList_append, List.map_cons, List.map_nil,
    List.flatMap_cons, List.flatMap_nil, List.flatten_cons, List.flatten_nil, List.cons_append,
    List.nil_append, List.append_nil]
  repeat rewrite [String.toList_ofList]
  rfl⟩

/-- The effects of the rules after the class signature. -/
def later : List Effect := (laterEffects {}).flatten.map (·.2)

theorem later_wordings : later.map (·.toWording) = laterTexts.val.map (·.2) := by
  rw [← laterTexts.property, later, texts, List.map_map, List.map_map]
  rfl

/-- The preamble, spelled out. -/
def preambleText : { spelled : List Char // preamble.toList = spelled } := ⟨_, by
  unfold preamble
  simp only [String.toList_append]
  repeat rewrite [String.toList_ofList]
  rfl⟩

/-! ## 2. Behind the preamble -/

section Behind

variable {s what : List Char}

/-- Brackets, of which the preamble has none. -/
def foreignChars : List Char := ['(', ')', '[', ']', '<', '>']

/-- Whether a text neither occurs in the preamble nor reaches over its end, which is a line break. -/
def outsidePreamble (what : List Char) : Bool :=
  (what.any foreignChars.contains || decide (¬what <:+: preambleText.val)) && !what.contains '\n'

theorem not_infix_of_outsidePreamble (outside : outsidePreamble what = true) (behind : ¬what <:+: s) :
    ¬what <:+: preambleText.val ++ s := by
  have plain : preambleText.val.all (!foreignChars.contains ·) = true := by decide +kernel
  have last : preambleText.val.dropLast ++ ['\n'] = preambleText.val :=
    List.dropLast_append_getLast? '\n' (by decide)
  simp only [outsidePreamble, Bool.and_eq_true, Bool.or_eq_true, decide_eq_true_eq, List.any_eq_true,
    List.contains_iff_mem, Bool.not_eq_true', Bool.eq_false_iff, ne_eq] at outside
  obtain ⟨absent, line⟩ := outside
  intro occurs
  rw [← last, List.append_assoc] at occurs
  rcases infix_of_infix_append_cons line occurs with before | after
  · have within := before.trans (List.dropLast_prefix _).isInfix
    rcases absent with ⟨c, inside, bracket⟩ | absent
    · have none := List.all_eq_true.mp plain c (within.mem inside)
      simp [bracket] at none
    · exact absent within
  · exact behind after

/-- Whether a wording has a text, in front of what is kept or behind, that does not occur behind the
preamble. -/
def missesBehind (s : List Char) (w : Wording) : Bool :=
  decide (¬w.front <:+: s) || (!w.back.isEmpty && decide (¬w.back <:+: s))

set_option maxRecDepth 10000 in
/-- No text that the rules look for occurs in the preamble, or reaches over its end. -/
theorem misses_of_missesBehind {w : Wording} (member : w ∈ laterTexts.val.map (·.2))
    (misses : missesBehind s w = true) : w.misses (preambleText.val ++ s) = true := by
  have outside : ∀ w ∈ laterTexts.val.map (·.2),
      outsidePreamble w.front = true ∧ (w.back = [] ∨ outsidePreamble w.back = true) := by decide
  obtain ⟨front, back⟩ := outside w member
  simp only [missesBehind, Wording.misses, Bool.or_eq_true, Bool.and_eq_true, decide_eq_true_eq,
    Bool.not_eq_true', List.isEmpty_eq_false_iff] at misses ⊢
  rcases misses with absent | ⟨some, absent⟩
  · exact .inl (not_infix_of_outsidePreamble front absent)
  · exact .inr (not_infix_of_outsidePreamble (back.resolve_left some) absent)

end Behind

/-! ## 3. Rules -/

/-- The default names are not long. -/
theorem not_hasLongName : ¬Vocabulary.HasLongName {} := by decide +kernel

/-- The rules of a valid target are one that puts the header in front, those of the class signature, and
others with the listed effects. -/
theorem exists_rules {t : Target} (valid : t.validate = .ok ()) : ∃ rules,
    pipeline t {} = .ok ⟨headerRules t ++ (classSignatureRules t {} ++ rules)⟩ ∧
      Have rules (laterEffects {}).flatten := by
  rcases pipeline_built (v := {}) valid with ⟨g, of, built⟩ | ⟨long, -⟩
  · refine ⟨(g.later {}).flatten, ?_, Have.flatten of.have⟩
    rw [built]
    simp [Groups.all, Groups.later]
  · exact absurd long not_hasLongName

/-- The text with the header in front and the signature of the class. -/
def signed (t : Target) (source : List Char) : List Char :=
  Pipeline.run ⟨headerRules t ++ classSignatureRules t {}⟩ source

/-- The header is in front before the class gets its signature. -/
theorem signed_eq (t : Target) (source : List Char) :
    signed t source = Pipeline.run ⟨classSignatureRules t {}⟩ ((header t).toList ++ source) := by
  rw [signed, Pipeline.run_append]
  rfl

/-- Without a namespace, only the preamble is in front. -/
theorem signed_of_no_namespace {t : Target} (none : t.namespaceName = none) (source : List Char) :
    signed t source = Pipeline.run ⟨classSignatureRules t {}⟩ (preambleText.val ++ source) := by
  have first : header t = preamble := by
    unfold header
    rw [none]
  rw [signed_eq, first]
  exact congrArg (fun s => Pipeline.run _ (s ++ source)) preambleText.property

/-- What the rules after the class signature make of the text with header and signature. -/
theorem convert_eq {t : Target} {rules : List Rule}
    (built : pipeline t {} = .ok ⟨headerRules t ++ (classSignatureRules t {} ++ rules)⟩)
    (source : List Char) : convert t {} source = .ok (Pipeline.run ⟨rules⟩ (signed t source)) := by
  rw [convert, built, ok_bind, ← List.append_assoc, Pipeline.run_append]
  rfl

/-- The conversion of a valid target succeeds, and what it does to the text with header and signature
are the listed effects, one after another. -/
theorem exists_converted {t : Target} (valid : t.validate = .ok ()) (source : List Char) : ∃ out,
    convert t {} source = .ok out ∧
      Ran later (signed t source) out := by
  obtain ⟨rules, built, has⟩ := exists_rules valid
  exact ⟨_, convert_eq built source, has.ran (signed t source)⟩

end ModelLoading.Conversion
