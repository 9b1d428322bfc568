import ModelLoading.Proofs.Conversion.Wording
import ModelLoading.Proofs.Edit.Clearing
import ModelLoading.Proofs.Text.Occurrences

/-!
# Constructions of asset references

The rule for an asset reference takes the arguments of a construction to be everything up to the last
parenthesis on the line. So what it leaves can be said exactly: a construction that no parenthesis closes on
its line behind at least one character, and one behind another on the line (`constructions_left_iff`).
-/

namespace ModelLoading.Conversion

open Edit Text

/-! ## 1. Lines -/

/-- What is left of a line. -/
def line (s : List Char) : List Char := s.takeWhile (· ≠ '\n')

variable {f g s t v text rest : List Char}

theorem line_append (inLine : '\n' ∉ text) : line (text ++ v) = text ++ line v := by
  refine List.takeWhile_append_of_pos fun c hc => ?_
  exact decide_eq_true fun same => inLine (same ▸ hc)

theorem line_closing (s : List Char) : line (')' :: s) = ')' :: line s :=
  List.takeWhile_cons_of_pos (by decide)

theorem exists_line (s : List Char) : ∃ others, s = line s ++ others ∧ '\n' ∉ line s := by
  obtain ⟨others, split⟩ := List.takeWhile_prefix (p := fun c => decide (c ≠ '\n')) (l := s)
  refine ⟨others, split.symm, fun inside => ?_⟩
  simpa using List.all_eq_true.mp List.all_takeWhile _ inside

/-- Something that is not empty, and then a parenthesis, both on one line. -/
theorem exists_onLine_iff :
    (∃ text rest, OnLine text ∧ v = text ++ ')' :: rest) ↔ ')' ∈ (line v).drop 1 := by
  constructor
  · rintro ⟨text, rest, ⟨some, inLine⟩, rfl⟩
    obtain ⟨c, text, rfl⟩ := List.exists_cons_of_ne_nil some
    rw [line_append inLine, line_closing]
    simp
  · intro inside
    obtain ⟨others, split, inLine⟩ := exists_line v
    cases whole : line v with
    | nil => simp [whole] at inside
    | cons c u =>
      rw [whole, List.drop_one, List.tail_cons] at inside
      obtain ⟨a, b, rfl⟩ := List.append_of_mem inside
      rw [whole] at split inLine
      refine ⟨c :: a, b ++ others, ⟨by simp, fun early => inLine ?_⟩, by rw [split]; simp⟩
      rw [← List.cons_append]
      exact List.mem_append_left _ early

/-! ## 2. Greedy replacements -/

/-- Where a construction that begins with a text is left: no parenthesis closes it on its line behind a
character, or another one follows on the line. -/
def Left (f v : List Char) : Prop := ')' ∉ (line v).drop 1 ∨ f <:+: line v

/-- A text that begins a construction, and what takes its place. -/
structure Beginning (f g : List Char) : Prop where
  some : f ≠ []
  alone : alone f = true
  apart : apart false (exactly f) g = true
  unclosed : ')' ∉ f

section Greedy

variable {swap : Swap} {stay : Stay} {before : Option Char} {count : Nat} (beginning : Beginning f g)
  (swaps : ∀ before old new rest, swap before old new rest → ∃ text, OnLine text ∧ ')' ∉ line rest ∧
    old = f ++ (text ++ [')']) ∧ new = g ++ (text ++ [')']))
  (stays : ∀ before s, stay before s → ∀ text, OnLine text → ¬f ++ (text ++ [')']) <+: s)
  (h : Sweep swap stay before s t count)

include beginning swaps stays h

/-- What is there after a greedy replacement was left. Here `k` was kept since the last change. -/
theorem exists_left_of_infix {k : List Char}
    (kept : Kept (fun _ s => ∀ v, s = f ++ v → ')' ∉ (line v).drop 1) none k s)
    (occurs : f <:+: k ++ t) : ∃ u v, k ++ s = u ++ (f ++ v) ∧ Left f v := by
  have some : ∀ r, f ++ r ≠ [] := fun r empty => beginning.some (List.append_eq_nil_iff.mp empty).1
  induction h generalizing k with
  | done =>
    obtain ⟨l, r, split⟩ := occurs
    rw [List.append_nil] at split
    have split : k = l ++ (f ++ r) := by simpa using split.symm
    exact ⟨l, r, by rw [split, List.append_nil], .inl (kept l (f ++ r) split (some r) r (List.append_nil _))⟩
  | @keep before c s t count here rest ih =>
    have goesOn := ih (k := k ++ [c]) (kept.snoc fun v split closed => ?_) (by simpa using occurs)
    · simpa using goesOn
    · obtain ⟨text, rest, onLine, rfl⟩ := exists_onLine_iff.mpr closed
      exact stays _ _ here text onLine ⟨rest, by rw [split]; simp⟩
  | @swap before old new s t count here _ rest ih =>
    obtain ⟨text, onLine, -, rfl, rfl⟩ := swaps _ _ _ _ here
    obtain ⟨l, r, split⟩ := occurs
    have split : k ++ (g ++ (text ++ ')' :: t)) = l ++ (f ++ r) := by simpa using split.symm
    rcases Apart.of_exactly beginning.apart _ _ _ _ split (by simp) with
      ⟨m, rfl, -⟩ | ⟨m, hm, -⟩
    · -- it stands in what was kept
      have left := kept l (f ++ m) rfl (some m) _ (List.append_assoc ..)
      exact ⟨l, _, by simp only [List.append_assoc], .inl left⟩
    · rcases infix_of_infix_append_cons (a := text) (b := t) beginning.unclosed
          ⟨m, r, by rw [hm]; simp⟩ with inside | behind
      · -- it stands in the arguments of the construction that was replaced
        refine ⟨k, text ++ ')' :: s, by simp, .inr ?_⟩
        rw [line_append onLine.2]
        exact inside.trans (List.prefix_append ..).isInfix
      · obtain ⟨u, v, later, left⟩ := ih (k := []) .nil behind
        exact ⟨k ++ (f ++ (text ++ ')' :: u)), v, by simp at later; simp [later], left⟩

omit stays in
/-- What was left is there after a greedy replacement. -/
theorem infix_of_left {k u v : List Char} (split : k ++ s = u ++ (f ++ v)) (left : Left f v) :
    f <:+: k ++ t := by
  induction h generalizing k u v with
  | done => exact ⟨u, v, by rw [split]; simp⟩
  | @keep before c s t count here rest ih =>
    have goesOn := ih (k := k ++ [c]) (by simpa using split) left
    simpa using goesOn
  | @swap before old new s t count here _ rest ih =>
    obtain ⟨text, onLine, last, rfl, rfl⟩ := swaps _ _ _ _ here
    have inside : text <:+: k ++ ((g ++ (text ++ [')'])) ++ t) := ⟨k ++ g, ')' :: t, by simp⟩
    have behind : t <:+: k ++ ((g ++ (text ++ [')'])) ++ t) := ⟨k ++ (g ++ (text ++ [')'])), [], by simp⟩
    have split : k ++ (f ++ (text ++ ')' :: s)) = u ++ (f ++ v) := by simpa using split
    rcases cases_of_alone beginning.alone split with ⟨m, rfl⟩ | ⟨-, rfl⟩ | ⟨m, hm⟩
    · exact ⟨u, m ++ ((g ++ (text ++ [')'])) ++ t), by simp⟩
    · -- it is the construction that is replaced, so another one follows on the line
      rcases left with unclosed | again
      · exact absurd (exists_onLine_iff.mp ⟨text, s, onLine, rfl⟩) unclosed
      · rw [line_append onLine.2, line_closing] at again
        rcases infix_of_infix_append_cons beginning.unclosed again with early | late
        · exact early.trans inside
        · -- and if it stands behind the last parenthesis it is left itself
          obtain ⟨l, r, found⟩ := late
          obtain ⟨others, whole, inLine⟩ := exists_line s
          rw [← found] at whole inLine last
          have rest_ : line (r ++ others) = r := by
            have cut := @line_append (r ++ others) (l ++ f) fun early =>
              inLine (List.mem_append_left _ early)
            rw [← List.append_assoc, ← whole, ← found] at cut
            exact (List.append_cancel_left cut).symm
          refine (ih (k := []) (u := l) (v := r ++ others) (by rw [whole]; simp) (.inl ?_)).trans behind
          rw [rest_]
          exact fun closed => last (List.mem_append_right _ (List.mem_of_mem_drop closed))
    · rcases cases_of_append_cons beginning.unclosed hm with ⟨m, rfl⟩ | ⟨m, rfl⟩
      · exact (List.infix_append' ..).trans inside
      · exact (ih (k := []) (u := m) (v := v) rfl left).trans behind

end Greedy

/-! ## 3. Conversions -/

/-- What the construction of an asset reference begins with. -/
def construction (name : String) : List Char := ("new " ++ ({} : Vocabulary).assetRefPath name ++ "(").toList

/-- What a call of the factory begins with. -/
def factoryCall (name : String) : List Char := (({} : Vocabulary).assetFactory ++ name ++ "(").toList

/-- The rule that sends the constructions of an asset reference to the factory. -/
def factoryRule (name : String) : String := s!"asset_factory:{name}"

/-- The text that the first rule of a name works on. -/
def reaching (p : Pipeline) (rule : String) (source : List Char) : List Char :=
  Pipeline.run ⟨p.rules.takeWhile (·.name ≠ rule)⟩ source

theorem beginning_construction :
    ∀ name ∈ ({} : Vocabulary).assetRefs, Beginning (construction name) (factoryCall name) := by
  have each : ∀ name ∈ ({} : Vocabulary).assetRefs, construction name ≠ [] ∧
      alone (construction name) = true ∧
      apart false (exactly (construction name)) (factoryCall name) = true ∧ ')' ∉ construction name := by
    decide
  exact fun name member =>
    have ⟨nonempty, alone, apart, unclosed⟩ := each name member
    { some := nonempty, alone, apart, unclosed }

section Rules

variable {rules : List Rule} {name : String} {k : Nat}

/-- A construction is left by its rule and by those after it where it is not the last one on its line that a
parenthesis closes. -/
theorem construction_left_iff (has : Have rules (laterEffects {}).flatten)
    (member : name ∈ ({} : Vocabulary).assetRefs)
    (here : (laterEffects {}).flatten[k]? = some (factoryRule name, factoryEffect {} name))
    (after : ((laterTexts.val.map (·.2)).drop (k + 1)).all (·.neutral free (exactly (construction name))) = true)
    (s : List Char) : construction name <:+: Pipeline.run ⟨rules⟩ s ↔
      ∃ u v, Pipeline.run ⟨rules.take k⟩ s = u ++ (construction name ++ v) ∧ Left (construction name) v := by
  have beginning := beginning_construction name member
  have wordings : ((laterEffects {}).flatten.drop (k + 1)).map (·.2.toWording) =
      (laterTexts.val.map (·.2)).drop (k + 1) := by
    rw [← later_wordings, later, List.map_map, List.map_drop]
    rfl
  obtain ⟨u, count, swept, ran⟩ := has.ran_at here s
  have kept : construction name <:+: u ↔ construction name <:+: Pipeline.run ⟨rules⟩ s := by
    rw [← occurs_free, ← occurs_free]
    refine ran.occurs_iff ?_ (spells_exactly _)
    rw [List.map_map]
    exact wordings ▸ after
  have swaps : ∀ before old new rest, (factoryEffect {} name).swap before old new rest →
      ∃ text, OnLine text ∧ ')' ∉ line rest ∧ old = construction name ++ (text ++ [')']) ∧
        new = factoryCall name ++ (text ++ [')']) := by
    rintro before old new rest ⟨text, ⟨onLine, last⟩, rfl, rfl⟩
    exact ⟨text, onLine, last, rfl, rfl⟩
  rw [← kept]
  constructor
  · intro occurs
    exact exists_left_of_infix beginning swaps (fun _ _ leaves => leaves) swept (k := []) .nil occurs
  · rintro ⟨before, v, split, left⟩
    exact infix_of_left beginning swaps swept (k := []) split left

/-- The names of the rules up to the class signature. -/
def firstNames : List String := ["preamble", "class_signature", "public_members", "object_table_field"]

/-- What reaches a rule with a name that none before it has. -/
theorem reaching_eq {t : Target} (has : Have rules (laterEffects {}).flatten) {rule : String}
    (here : ((laterEffects {}).flatten.map (·.1))[k]? = some rule)
    (first : rule.toList ∉ firstNames.map String.toList ++ (laterTexts.val.map (·.1)).take k)
    (source : List Char) :
    reaching ⟨headerRules t ++ (classSignatureRules t {} ++ rules)⟩ rule source =
      Pipeline.run ⟨rules.take k⟩ (signed t source) := by
  have names : (headerRules t ++ (classSignatureRules t {} ++ rules)).map (·.name) =
      firstNames ++ (laterEffects {}).flatten.map (·.1) := by
    rw [List.map_append, List.map_append, has.map_name]
    rfl
  have spelled : (laterTexts.val.map (·.1)).take k =
      (((laterEffects {}).flatten.map (·.1)).take k).map String.toList := by
    rw [← laterTexts.property, texts, List.map_map, List.map_take, List.map_map]
    rfl
  rw [spelled, ← List.map_append] at first
  have split := takeWhile_name_eq (headerRules t ++ (classSignatureRules t {} ++ rules)) (k := k + 4)
    (by rw [names]; exact here) (by rw [names]; exact fun early => first (List.mem_map_of_mem early))
  rw [reaching, split, signed, ← Pipeline.run_append, List.append_assoc]
  rfl

end Rules

/-- The asset references, and how many rules after the class signature run before theirs. -/
def factoryPlaces : List (String × Nat) :=
  [("SpriteReference", 35), ("PrefabReference", 37), ("AudioSourceReference", 39)]

/-- No rule before that of an asset reference has its name, and none after it has to do with what the
constructions begin with. -/
theorem factoryPlaces_apart : ∀ place ∈ factoryPlaces,
    (factoryRule place.1).toList ∉
        firstNames.map String.toList ++ (laterTexts.val.map (·.1)).take place.2 ∧
      ((laterTexts.val.map (·.2)).drop (place.2 + 1)).all
        (·.neutral free (exactly (construction place.1))) = true := by
  decide

/-- Where constructions of asset references are left by a conversion: in the text that reaches their rule,
those that no parenthesis closes on their line behind a character, and those before another one on the line. -/
theorem constructions_left_iff {t : Target} (valid : t.validate = .ok ()) (source : List Char) :
    ∃ p out, pipeline t {} = .ok p ∧ convert t {} source = .ok out ∧
      ∀ name ∈ ({} : Vocabulary).assetRefs, construction name <:+: out ↔
        ∃ u v, reaching p (factoryRule name) source = u ++ (construction name ++ v) ∧
          Left (construction name) v := by
  obtain ⟨rules, built, has⟩ := exists_rules valid
  refine ⟨_, _, built, convert_eq built source, ?_⟩
  have each : ∀ {name : String} {k : Nat}, name ∈ ({} : Vocabulary).assetRefs → (name, k) ∈ factoryPlaces →
      (laterEffects {}).flatten[k]? = some (factoryRule name, factoryEffect {} name) →
      (construction name <:+: Pipeline.run ⟨rules⟩ (signed t source) ↔
        ∃ u v, reaching ⟨headerRules t ++ (classSignatureRules t {} ++ rules)⟩ (factoryRule name) source =
          u ++ (construction name ++ v) ∧ Left (construction name) v) := by
    intro name k member place here
    obtain ⟨first, after⟩ := factoryPlaces_apart _ place
    rw [reaching_eq has (by rw [List.getElem?_map, here]; rfl) first]
    exact construction_left_iff has member here after _
  simp only [List.forall_mem_cons]
  exact ⟨each (by decide) (.head _) rfl, each (by decide) (.tail _ (.head _)) rfl,
    each (by decide) (.tail _ (.tail _ (.head _))) rfl, by simp⟩

/-- A source without a namespace reaches the rule of the first asset reference as it is, behind the preamble, where
the class signature and the rules before that rule find nothing in it. -/
theorem run_take_eq {t : Target} {rules : List Rule} {source : List Char}
    (has : Have rules (laterEffects {}).flatten) (start : signed t source = preambleText.val ++ source)
    (root : clear wholeWord.left (exactly "Assets".toList) none (preambleText.val ++ source) = true)
    (misses : (((laterTexts.val.map (·.2)).take 35).drop 1).all (missesBehind source) = true) :
    Pipeline.run ⟨rules.take 35⟩ (signed t source) = preambleText.val ++ source := by
  have ran : Ran (later.take 35) (signed t source) (Pipeline.run ⟨rules.take 35⟩ (signed t source)) := by
    have taken := Have.ran (List.forall₂_take 35 has) (signed t source)
    rwa [List.map_take] at taken
  rw [start] at ran ⊢
  have first : (wordEffect wholeWord "Assets" "Il2CppAssets").Turns (preambleText.val ++ source)
      (preambleText.val ++ source) :=
    word_turns (not_occurs_of_clear root (spells_exactly _) (by decide))
  have others : ∀ e ∈ (later.take 35).drop 1, e.Turns (preambleText.val ++ source) (preambleText.val ++ source) := by
    refine turns_of_misses ?_
    rw [List.map_drop, List.map_take, later_wordings]
    refine List.all_eq_true.mpr fun w member => ?_
    exact misses_of_missesBehind (List.mem_of_mem_take (List.mem_of_mem_drop member))
      (List.all_eq_true.mp misses w member)
  exact ran.eq_of_turns (List.forall_mem_cons.mpr ⟨first, others⟩)

set_option maxRecDepth 10000 in
/-- Two constructions on a line: the second one is left. -/
theorem constructions_left_iff_of_line :
    let t : Target := { payloadType := "Game.Model", className := "Loader", bytesFileName := "m.bytes" }
    let source := construction "SpriteReference" ++ ("a), ".toList ++ (construction "SpriteReference" ++ "b);".toList))
    t.validate = .ok () ∧
      ∃ out, convert t {} source = .ok out ∧ construction "SpriteReference" <:+: out := by
  intro t source
  have valid : t.validate = .ok () := by decide
  obtain ⟨p, out, built, done, left⟩ := constructions_left_iff valid source
  obtain ⟨rules, built', has⟩ := exists_rules valid
  obtain rfl := Except.ok.inj (built.symm.trans built')
  have start : signed t source = preambleText.val ++ source := by
    rw [signed_of_no_namespace rfl]
    decide
  refine ⟨valid, out, done, (left "SpriteReference" (by decide)).mpr ?_⟩
  rw [reaching_eq has rfl (factoryPlaces_apart _ (.head _)).1, run_take_eq has start (by decide) (by decide)]
  exact ⟨preambleText.val, _, rfl, .inr (by decide)⟩

set_option maxRecDepth 10000 in
/-- A construction without arguments is left. -/
theorem empty_construction_left :
    let t : Target := { payloadType := "Game.Model", className := "Loader", bytesFileName := "m.bytes" }
    let source := construction "SpriteReference" ++ [')']
    t.validate = .ok () ∧
      (∀ text ∈ [t.payloadType, t.className, t.bytesFileName], ¬"Reference".toList <:+: text.toList) ∧
      ∃ out, convert t {} source = .ok out ∧ construction "SpriteReference" <:+: out := by
  intro t source
  have valid : t.validate = .ok () := by decide
  obtain ⟨rules, built, has⟩ := exists_rules valid
  have start : signed t source = preambleText.val ++ source := by
    rw [signed_of_no_namespace rfl]
    decide
  refine ⟨valid, by decide, _, convert_eq built source, ?_⟩
  rw [construction_left_iff has (by decide) rfl (factoryPlaces_apart _ (.head _)).2]
  exact ⟨preambleText.val, [')'], run_take_eq has start (by decide) (by decide), .inl (by decide)⟩

end ModelLoading.Conversion
