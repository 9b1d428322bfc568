import Mathlib.Data.List.Forall2
import ModelLoading.Edit.Pipeline
import ModelLoading.Proofs.Edit.Running
import ModelLoading.Proofs.Pattern.Words

/-!
# The effects of rules

What a rule does at one place has a simple form: it changes what stands before and behind a text that
it keeps (`Effect`). A rule that replaces a text keeps nothing of it, and a rule with a pattern of fixed
text around a group keeps the text of the group. So a question about a rule, whatever text it works on,
becomes a question about the four short texts of its `Wording`. How a rule alters a number that adds up
along the text is such a question (`Have.measure`); which occurrences it can bring forth is another one, for
`Proofs/Edit/Clearing`.
-/

namespace ModelLoading.Edit

open Text (Sweep Swap Stay Bounds Begins Occurs Safe Item Spells)
open Pattern

/-! ## 1. Effects -/

/-- The texts of an effect: what stands before and behind a text that is kept, and what takes their
place. -/
structure Wording where
  front : List Char
  back : List Char := []
  newFront : List Char
  newBack : List Char := []

/-- What a rule does at one place. -/
structure Effect extends Wording where
  /-- What is known of a place where something is found: the character before it, the text that is kept,
  and the text behind it all. -/
  finds : Option Char → (text rest : List Char) → Prop := fun _ text _ => text = []
  /-- What is known of a place where nothing is found. -/
  leaves : Stay := fun _ _ => True

/-- What an effect puts in the place of what. -/
def Effect.swap (e : Effect) : Swap := fun before old new rest => ∃ text, e.finds before text rest ∧
  old = e.front ++ (text ++ e.back) ∧ new = e.newFront ++ (text ++ e.newBack)

/-- A change goes through a text, puts some texts in the place of others, and leaves the places where
it finds nothing. -/
def Change.Sweeps (change : Change) (swap : Swap) (stay : Stay) : Prop :=
  ∀ s, Sweep swap stay none s (change.apply s).1 (change.apply s).2

/-- A change has an effect. -/
def Change.Has (change : Change) (e : Effect) : Prop := change.Sweeps e.swap e.leaves

theorem Change.Sweeps.mono {change : Change} {swap swap' : Swap} {stay stay' : Stay}
    (h : change.Sweeps swap stay)
    (swaps : ∀ before old new rest, swap before old new rest → swap' before old new rest)
    (stays : ∀ before s, stay before s → stay' before s) : change.Sweeps swap' stay' :=
  fun s => (h s).mono swaps stays

/-- The effect of replacing a text. -/
def literalEffect (what replacement : String) : Effect :=
  { front := what.toList, newFront := replacement.toList, leaves := Text.literalStay what.toList }

theorem Change.has_literal {what replacement : String} (some : what.toList ≠ []) :
    (literal what replacement).Has (literalEffect what replacement) := by
  refine fun s => (Text.sweep_replaceAll replacement.toList some none s).mono ?_ fun _ _ => id
  rintro _ old new _ ⟨rfl, rfl⟩
  exact ⟨[], rfl, by simp [literalEffect], by simp [literalEffect]⟩

/-! ## 2. Patterns around a group -/

theorem nullable_sequence (ps : List Expr) :
    (Expr.sequence ps).nullable = ps.all Expr.nullable := by
  induction ps with
  | nil => rfl
  | cons p ps ih =>
    cases ps with
    | nil => simp [Expr.sequence]
    | cons q ps =>
      rw [List.all_cons, ← ih]
      rfl

theorem productive_sequence (ps : List Expr) :
    (Expr.sequence ps).productive = ps.all Expr.productive := by
  induction ps with
  | nil => rfl
  | cons p ps ih =>
    cases ps with
    | nil => simp [Expr.sequence]
    | cons q ps =>
      rw [List.all_cons, ← ih]
      rfl

section Enclosing

variable {regex : Regex} {template : String} {front back : List Char} {inner : Expr}

/-- A template of text before and behind a reference to the group. -/
theorem expand_around (value : Reference → List Char) (front back : List Char) :
    Template.expand value
        (Template.quote front ++ '$' :: '\x7b' :: '1' :: '\x7d' :: Template.quote back) =
      front ++ (value (.number 1) ++ back) := by
  have number : Template.reference ['1'] = .number 1 := by decide +kernel
  have group := @Template.expand_reference value ['1'] (by decide) (Template.quote back)
  rw [number, Template.expand_quoted] at group
  rw [Template.expand_quote]
  exact congrArg (front ++ ·) group

/-- A pattern of fixed text around a group, with a template around the group, is a sweep. -/
theorem Change.sweeps_enclosing (body : regex.body = .enclosing front inner back)
    (some : front ≠ []) (productive : inner.productive = true) (template : String) :
    (pattern regex template).Sweeps (regex.swap template.toList) regex.stay := by
  refine fun s => Regex.sweep ?_ ?_ template.toList s
  · rw [body, Expr.enclosing, productive_sequence]
    simp [Expr.productive, productive, Expr.char]
  · obtain ⟨c, rest, rfl⟩ := List.exists_cons_of_ne_nil some
    rw [body, Expr.enclosing, nullable_sequence]
    simp [Expr.nullable, Expr.char]

/-- A pattern of the given texts around a group, and a template of the given texts around it. -/
structure Around (regex : Regex) (template what behind with_ withBehind : String) (inner : Expr) :
    Prop where
  body : regex.body = .enclosing what.toList inner behind.toList
  template : template.toList = Template.quote with_.toList ++
    '$' :: '\x7b' :: '1' :: '\x7d' :: Template.quote withBehind.toList
  some : what.toList ≠ []
  productive : inner.productive = true
  ungrouped : inner.ungrouped = true

/-- The effect of a pattern of a text before and behind a group, and a template of the same form, given
what is known of the text of the group. -/
def aroundEffect (front back newFront newBack : String) (keeps : List Char → Prop) : Effect :=
  { front := front.toList, back := back.toList, newFront := newFront.toList,
    newBack := newBack.toList, finds := fun _ text _ => keeps text }

/-- The effect of a pattern whose group can match every text that may be kept. -/
def exactEffect (front back newFront newBack : String) (keeps : List Char → Prop) : Effect :=
  { aroundEffect front back newFront newBack keeps with
    leaves := fun _ s => ∀ text, keeps text → ¬front.toList ++ (text ++ back.toList) <+: s }

variable {what behind with_ withBehind : String} {keeps : List Char → Prop}

/-- A pattern around a group has an effect with the given texts. -/
theorem Around.has (around : Around regex template what behind with_ withBehind inner)
    {finds : Option Char → List Char → List Char → Prop}
    (found : ∀ before s u text rest, Found inner behind.toList s u text rest → finds before text rest)
    {leaves : Stay} (left : ∀ before s, regex.stay before s → leaves before s) :
    (Change.pattern regex template).Has
      { aroundEffect what behind with_ withBehind (fun _ => True) with finds, leaves } := by
  refine (Change.sweeps_enclosing around.body around.some around.productive template).mono ?_ left
  intro before old new rest swap
  have expands := fun value => expand_around value with_.toList withBehind.toList
  rw [← around.template] at expands
  obtain ⟨u, text, rfl, rfl, here⟩ := Regex.swap_enclosing around.body around.ungrouped expands swap
  exact ⟨text, found _ _ u text rest here, rfl, rfl⟩

/-- Where a pattern finds nothing, no text stands that its group can match. -/
theorem Around.not_prefix (around : Around regex template what behind with_ withBehind inner)
    (all : ∀ s text, keeps text → text <+: s.place.rest → s.after text ∈ inner.ways s)
    {before : Option Char} {s : List Char} (stay : regex.stay before s) (text : List Char)
    (kept : keeps text) : ¬what.toList ++ (text ++ behind.toList) <+: s := by
  rintro ⟨rest, rfl⟩
  rw [List.append_assoc, List.append_assoc] at stay
  refine Regex.not_mem_ways_of_stay around.body rfl stay (all _ text kept ?_)
  simp [groupSpot, Cursor.after]

theorem Change.has_exact (around : Around regex template what behind with_ withBehind inner)
    (kept : ∀ s u text rest, Found inner behind.toList s u text rest → keeps text)
    (all : ∀ s text, keeps text → text <+: s.place.rest → s.after text ∈ inner.ways s) :
    (pattern regex template).Has (exactEffect what behind with_ withBehind keeps) :=
  around.has (fun _ => kept) fun _ _ => around.not_prefix all

end Enclosing

section Words

variable {regex : Regex} {template what replacement : String} {b : Bounds}

/-- The effect of replacing a text where it does not touch a word. -/
def wordEffect (b : Bounds) (what replacement : String) : Effect :=
  { front := what.toList, newFront := replacement.toList
    finds := fun before text rest => text = [] ∧ Begins b what.toList before (what.toList ++ rest)
    leaves := fun before s => ¬Begins b what.toList before s }

/-- A pattern of a text between boundaries replaces it where it does not touch a word. -/
theorem Change.has_word (body : regex.body = .word b what.toList)
    (bounded : Bounded b what.toList) (some : what.toList ≠ [])
    (expands : ∀ value, Template.expand value template.toList = replacement.toList) :
    (pattern regex template).Has (wordEffect b what replacement) := by
  have productive : regex.body.productive = true := by
    rw [body, Expr.word, productive_sequence]
    cases b.left <;> cases b.right <;> simp [Expr.productive, Expr.char]
  have nonnull : regex.body.nullable = false := by
    obtain ⟨c, rest, split⟩ := List.exists_cons_of_ne_nil some
    rw [body, Expr.word, nullable_sequence, split]
    cases b.left <;> cases b.right <;> simp [Expr.nullable, Expr.char]
  refine fun s => (Regex.sweep productive nonnull template.toList s).mono ?_ fun before s =>
    Regex.not_begins_of_stay body bounded
  intro before old new rest swap
  obtain ⟨rfl, rfl, begins⟩ := Regex.swap_word body bounded expands swap
  exact ⟨[], ⟨rfl, begins⟩, by simp [wordEffect], by simp [wordEffect]⟩

end Words

/-! ## 3. Rules one after another -/

/-- Rules have the given names and effects, one each. -/
def Have (rules : List Rule) (effects : List (String × Effect)) : Prop :=
  List.Forall₂ (fun r e => r.name = e.1 ∧ r.change.Has e.2) rules effects

theorem Have.append {rules rules' : List Rule} {effects effects' : List (String × Effect)}
    (h : Have rules effects) (h' : Have rules' effects') :
    Have (rules ++ rules') (effects ++ effects') := List.rel_append h h'

theorem Have.flatten {groups : List (List Rule)} {effects : List (List (String × Effect))}
    (h : List.Forall₂ Have groups effects) : Have groups.flatten effects.flatten :=
  List.rel_flatten h

/-- One text becomes another by effects one after another. -/
inductive Ran : List Effect → List Char → List Char → Prop
  | nil {s : List Char} : Ran [] s s
  | cons {e : Effect} {effects : List Effect} {s t u : List Char} {count : Nat}
      (first : Sweep e.swap e.leaves none s t count) (rest : Ran effects t u) : Ran (e :: effects) s u

theorem Have.ran {rules : List Rule} {effects : List (String × Effect)} (h : Have rules effects)
    (s : List Char) : Ran (effects.map (·.2)) s (Pipeline.run ⟨rules⟩ s) := by
  induction h generalizing s with
  | nil => exact .nil
  | cons has _ ih => exact .cons (has.2 s) (ih _)

theorem Have.map_name {rules : List Rule} {effects : List (String × Effect)} (h : Have rules effects) :
    rules.map (·.name) = effects.map (·.1) := by
  induction h with
  | nil => rfl
  | cons has _ ih => rw [List.map_cons, List.map_cons, has.1, ih]

theorem Have.exists_effect {rules : List Rule} {effects : List (String × Effect)} (h : Have rules effects)
    {r : Rule} (member : r ∈ rules) : ∃ e, (r.name, e) ∈ effects ∧ r.change.Has e := by
  induction h with
  | nil => cases member
  | @cons r' e rules effects has _ ih =>
    rcases List.mem_cons.mp member with rfl | later
    · exact ⟨e.2, has.1 ▸ List.mem_cons_self, has.2⟩
    · obtain ⟨e', inside, has'⟩ := ih later
      exact ⟨e', List.mem_cons_of_mem e inside, has'⟩

theorem Have.exists_rule {rules : List Rule} {effects : List (String × Effect)} (h : Have rules effects)
    {name : String} {e : Effect} (member : (name, e) ∈ effects) :
    ∃ r ∈ rules, r.name = name ∧ r.change.Has e := by
  induction h with
  | nil => cases member
  | @cons r e' rules effects has _ ih =>
    rcases List.mem_cons.mp member with rfl | later
    · exact ⟨r, List.mem_cons_self, has⟩
    · obtain ⟨r', inside, has'⟩ := ih later
      exact ⟨r', List.mem_cons_of_mem r inside, has'⟩

/-- The rules before the first one of a name. -/
theorem takeWhile_name_eq (rules : List Rule) {name : String} {k : Nat}
    (here : (rules.map (·.name))[k]? = some name) (first : name ∉ (rules.map (·.name)).take k) :
    rules.takeWhile (·.name ≠ name) = rules.take k := by
  induction rules generalizing k with
  | nil => simp at here
  | cons r rules ih =>
    cases k with
    | zero =>
      have same : r.name = name := by simpa using here
      simp [same]
    | succ k =>
      simp only [List.map_cons, List.take_succ_cons, List.mem_cons, not_or] at first
      have other : r.name ≠ name := Ne.symm first.1
      rw [List.takeWhile_cons_of_pos (by simpa using other), List.take_succ_cons,
        ih (by simpa using here) first.2]

/-- What a rule does to the text that the rules before it left, and what the rules after it do. -/
theorem Have.ran_at {rules : List Rule} {effects : List (String × Effect)} {k : Nat} {e : String × Effect}
    (h : Have rules effects) (here : effects[k]? = some e) (s : List Char) : ∃ u count,
    Sweep e.2.swap e.2.leaves none (Pipeline.run ⟨rules.take k⟩ s) u count ∧
      Ran ((effects.drop (k + 1)).map (·.2)) u (Pipeline.run ⟨rules⟩ s) := by
  induction h generalizing k s with
  | nil => simp at here
  | @cons r e' rules effects has rest ih =>
    cases k with
    | zero =>
      obtain rfl : e' = e := by simpa using here
      exact ⟨_, _, has.2 s, Have.ran rest _⟩
    | succ k => exact ih (by simpa using here) (r.change.apply s).1

/-- Effects can be cut where they run. -/
theorem Ran.append {effects effects' : List Effect} {s u : List Char} :
    Ran (effects ++ effects') s u ↔ ∃ t, Ran effects s t ∧ Ran effects' t u := by
  induction effects generalizing s with
  | nil =>
    refine ⟨fun h => ⟨s, .nil, h⟩, ?_⟩
    rintro ⟨t, ⟨⟩, h⟩
    exact h
  | cons e effects ih =>
    constructor
    · rintro (_ | ⟨first, rest⟩)
      obtain ⟨t, before, after⟩ := ih.mp rest
      exact ⟨t, .cons first before, after⟩
    · rintro ⟨t, _ | ⟨first, rest⟩, after⟩
      exact .cons first (ih.mpr ⟨t, rest, after⟩)

/-- Effects can be cut around one of them. -/
theorem Ran.at {effects : List Effect} {k : Nat} {e : Effect} {s t : List Char} (h : Ran effects s t)
    (here : effects[k]? = some e) : ∃ u v count, Ran (effects.take k) s u ∧
      Sweep e.swap e.leaves none u v count ∧ Ran (effects.drop (k + 1)) v t := by
  obtain ⟨inside, rfl⟩ := List.getElem?_eq_some_iff.mp here
  rw [← List.take_append_drop k effects, List.drop_eq_getElem_cons inside] at h
  obtain ⟨u, before, _ | ⟨first, rest⟩⟩ := Ran.append.mp h
  exact ⟨u, _, _, before, first, rest⟩

/-- A property that an effect keeps. -/
def Effect.Keeps (e : Effect) (P : List Char → Prop) : Prop :=
  ∀ s t count, Sweep e.swap e.leaves none s t count → P s → P t

/-- What each effect keeps is kept by all of them. -/
theorem Ran.keeps {effects : List Effect} {P : List Char → Prop} {s t : List Char} (h : Ran effects s t)
    (each : ∀ e ∈ effects, e.Keeps P) (start : P s) : P t := by
  induction h with
  | nil => exact start
  | cons first _ ih => exact ih (fun e he => each e (by simp [he])) (each _ (by simp) _ _ _ first start)

/-! ## 4. Measures -/

/-- By what a wording alters a number that adds up along a text. -/
def Wording.gain (f : List Char → Int) (e : Wording) : Int :=
  f e.newFront + f e.newBack - (f e.front + f e.back)

section Measures

variable {rules : List Rule} {effects : List (String × Effect)} (h : Have rules effects)

include h

/-- A reported run has one hit for each rule, under its name. -/
theorem Have.names (s : List Char) :
    (Pipeline.runReporting rules s).2.map (·.rule) = effects.map (·.1) := by
  induction h generalizing s with
  | nil => rfl
  | @cons r e rules effects has _ ih =>
    rw [Pipeline.runReporting_cons, List.map_cons, List.map_cons, ih, ← has.1]
    rfl

/-- How a reported run alters a number that adds up along a text: as often as each rule says, by what
its wording alters it. -/
theorem Have.measure {f : List Char → Int} (append : ∀ a b, f (a ++ b) = f a + f b) (s : List Char) :
    f (Pipeline.runReporting rules s).1 = f s +
      (List.zipWith (fun hit e => (hit.matched : Int) * e.2.gain f)
        (Pipeline.runReporting rules s).2 effects).sum := by
  induction h generalizing s with
  | nil => simp [Pipeline.runReporting, Pipeline.runLogging]
  | @cons r e rules effects has _ ih =>
    have here : f (r.change.apply s).1 = f s + (r.change.apply s).2 * e.2.gain f := by
      refine (has.2 s).measure append ?_
      rintro _ _ _ _ ⟨text, -, rfl, rfl⟩
      simp only [append, Wording.gain]
      ring
    rw [Pipeline.runReporting_cons]
    simp only [List.zipWith_cons_cons, List.sum_cons]
    rw [ih, here, add_assoc]
    rfl

end Measures

end ModelLoading.Edit
