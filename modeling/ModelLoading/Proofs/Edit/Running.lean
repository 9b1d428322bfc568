import Mathlib.Data.List.Forall2
import ModelLoading.Edit.Pipeline
import ModelLoading.Proofs.Pattern.Replacing

/-!
# Running rules

Rules that are in the order of their stages can be added to a pipeline, all of them
(`Pipeline.extend_of_inOrder`). A run takes rules one after another, so an occurrence that some rule
clears stays away if every rule after it spares the text (`Clears.append`).
-/

namespace ModelLoading.Edit

/-! ## 1. Stages -/

/-- Rules of which none belongs to an earlier stage than one before it. -/
def InOrder (rules : List Rule) : Prop := rules.Pairwise fun r r' => r.stage ≤ r'.stage

/-- Rules that all belong to a stage. -/
def OfStage (stage : Stage) (rules : List Rule) : Prop := ∀ r ∈ rules, r.stage = stage

theorem Pipeline.push_of_inOrder {p : Pipeline} {r : Rule} (order : InOrder (p.rules ++ [r])) :
    p.push r = .ok ⟨p.rules ++ [r]⟩ := by
  unfold push
  split
  · rename_i previous last
    have before : previous.stage ≤ r.stage :=
      (List.pairwise_append.mp order).2.2 previous (List.mem_of_getLast? last) r (by simp)
    exact if_neg (Nat.not_lt.mpr before)
  · rfl

theorem Pipeline.extend_of_inOrder {p : Pipeline} {rules : List Rule}
    (order : InOrder (p.rules ++ rules)) : p.extend rules = (⟨p.rules ++ rules⟩, .ok ()) := by
  induction rules generalizing p with
  | nil => rw [extend, List.append_nil]
  | cons r rules ih =>
    have split : p.rules ++ r :: rules = (p.rules ++ [r]) ++ rules := by simp
    rw [split] at order ⊢
    have first : InOrder (p.rules ++ [r]) := order.sublist (List.sublist_append_left ..)
    rw [extend, push_of_inOrder first]
    exact ih order

section Staged

variable {stages : List Stage} {groups : List (List Rule)}

theorem mem_of_staged (staged : List.Forall₂ OfStage stages groups) {r : Rule} (h : r ∈ groups.flatten) :
    r.stage ∈ stages := by
  induction staged with
  | nil => cases h
  | @cons stage group stages groups here _ ih =>
    rw [List.flatten_cons] at h
    rcases List.mem_append.mp h with first | later
    · exact here r first ▸ List.mem_cons_self
    · exact List.mem_cons_of_mem stage (ih later)

/-- Groups of rules are in order if their stages are. -/
theorem inOrder_flatten (staged : List.Forall₂ OfStage stages groups) (order : stages.Pairwise (· ≤ ·)) :
    InOrder groups.flatten := by
  induction staged with
  | nil => exact List.Pairwise.nil
  | @cons stage group stages groups here staged ih =>
    obtain ⟨later, order⟩ := List.pairwise_cons.mp order
    rw [List.flatten_cons]
    refine List.pairwise_append.mpr ⟨?_, ih order, fun r hr r' hr' => ?_⟩
    · refine List.pairwise_of_forall_mem_list fun r hr r' hr' => ?_
      rw [here r hr, here r' hr']
      exact Nat.le_refl _
    · rw [here r hr]
      exact later r'.stage (mem_of_staged staged hr')

/-- Of groups of different stages, the rules of a stage are those of its group. -/
theorem filter_flatten (staged : List.Forall₂ OfStage stages groups) (distinct : stages.Nodup)
    {stage : Stage} {group : List Rule} (member : (stage, group) ∈ stages.zip groups) :
    groups.flatten.filter (·.stage = stage) = group := by
  induction staged with
  | nil => cases member
  | @cons first rules stages groups here staged ih =>
    obtain ⟨other, distinct⟩ := List.nodup_cons.mp distinct
    rw [List.flatten_cons, List.filter_append]
    rcases List.mem_cons.mp member with same | later
    · obtain ⟨rfl, rfl⟩ := Prod.mk.inj same
      have own : group.filter (·.stage = stage) = group :=
        List.filter_eq_self.mpr fun r hr => decide_eq_true (here r hr)
      have none : groups.flatten.filter (·.stage = stage) = [] :=
        List.filter_eq_nil_iff.mpr fun r hr => by
          rw [decide_eq_true_eq]
          exact fun same => other (same ▸ mem_of_staged staged hr)
      rw [own, none, List.append_nil]
    · have none : rules.filter (·.stage = stage) = [] :=
        List.filter_eq_nil_iff.mpr fun r hr => by
          rw [decide_eq_true_eq, here r hr]
          exact fun same => other (same ▸ (List.of_mem_zip later).1)
      rw [none, ih distinct later, List.nil_append]

end Staged

/-! ## 2. Occurrences -/

section Occurrences

variable {w : List Char} {rules rules' : List Rule}

theorem Pipeline.run_append (rules rules' : List Rule) (s : List Char) :
    run ⟨rules ++ rules'⟩ s = run ⟨rules'⟩ (run ⟨rules⟩ s) :=
  List.foldl_append

/-- Rules that bring forth no occurrence of a text. -/
def Spares (w : List Char) (rules : List Rule) : Prop :=
  ∀ s, ¬w <:+: s → ¬w <:+: Pipeline.run ⟨rules⟩ s

/-- Rules that leave no occurrence of a text. -/
def Clears (w : List Char) (rules : List Rule) : Prop := ∀ s, ¬w <:+: Pipeline.run ⟨rules⟩ s

theorem Spares.append (h : Spares w rules) (h' : Spares w rules') : Spares w (rules ++ rules') := by
  intro s absent
  rw [Pipeline.run_append]
  exact h' _ (h s absent)

theorem Clears.append (h : Clears w rules) (h' : Spares w rules') : Clears w (rules ++ rules') := by
  intro s
  rw [Pipeline.run_append]
  exact h' _ (h s)

theorem Clears.after (rules : List Rule) (h : Clears w rules') : Clears w (rules ++ rules') := by
  intro s
  rw [Pipeline.run_append]
  exact h _

theorem spares_flatten {groups : List (List Rule)} (each : ∀ rules ∈ groups, Spares w rules) :
    Spares w groups.flatten := by
  induction groups with
  | nil => exact fun _ absent => absent
  | cons rules groups ih =>
    exact (each rules (by simp)).append (ih fun rules' h => each rules' (by simp [h]))

theorem clears_flatten {groups : List (List Rule)} (each : ∀ rules ∈ groups, Spares w rules)
    (one : ∃ rules ∈ groups, Clears w rules) : Clears w groups.flatten := by
  obtain ⟨rules, inside, clears⟩ := one
  obtain ⟨before, after, rfl⟩ := List.append_of_mem inside
  rw [List.flatten_append, List.flatten_cons]
  refine Clears.after _ (clears.append (spares_flatten fun rules' h => ?_))
  exact each rules' (by simp [h])

/-! A rule spares a text if what it inserts encloses nothing but parts of the text. -/

variable {e : Text.Enclosure} {r : Rule} {what replacement : String}

theorem spares_literal (change : r.change = .literal what replacement)
    (encloses : replacement.toList = e.text) (blocks : e.Blocks w) (inner : ¬w <:+: e.inner) :
    Spares w [r] := by
  intro s absent
  have ran : Pipeline.run ⟨[r]⟩ s = Text.replaceAll what.toList e.text s := by
    simp [Pipeline.run, change, Change.apply, encloses]
  rw [ran]
  exact Text.not_infix_replaceAll blocks inner absent

theorem clears_literal (change : r.change = .literal what replacement)
    (encloses : replacement.toList = e.text) (blocks : e.Blocks what.toList)
    (inner : ¬what.toList <:+: e.inner) : Clears what.toList [r] := by
  intro s
  have ran : Pipeline.run ⟨[r]⟩ s = Text.replaceAll what.toList e.text s := by
    simp [Pipeline.run, change, Change.apply, encloses]
  rw [ran]
  exact Text.not_infix_replaceAll_self blocks inner

theorem spares_pattern {regex : Pattern.Regex} {template : String} {front : List Char}
    {first last : Char} {ref : Pattern.Reference} (change : r.change = .pattern regex template)
    (expands : ∀ value, Pattern.Template.expand value template.toList =
      (Text.Enclosure.mk front first (value ref) last).text)
    (blocks : ∀ inner, (Text.Enclosure.mk front first inner last).Blocks w) : Spares w [r] := by
  intro s absent
  have ran : Pipeline.run ⟨[r]⟩ s = regex.replaceAll template.toList s := by
    simp [Pipeline.run, change, Change.apply]
  rw [ran]
  exact Pattern.Regex.not_infix_replaceAll expands blocks absent

end Occurrences

/-! ## 3. Reports -/

theorem missRecords_cons (h : Hit) (hits : List Hit) :
    missRecords (h :: hits) = if h.matched = 0 then h.missRecord :: missRecords hits else missRecords hits := by
  by_cases none : h.matched = 0 <;> simp [missRecords, misses, none]

namespace Pipeline

theorem runReporting_cons (r : Rule) (rules : List Rule) (s : List Char) :
    runReporting (r :: rules) s =
      ((runReporting rules (r.change.apply s).1).1,
        hit r (r.change.apply s).2 :: (runReporting rules (r.change.apply s).1).2) := rfl

/-- A reported run changes the text as any other run does. -/
theorem fst_runReporting (rules : List Rule) (s : List Char) :
    (runReporting rules s).1 = run ⟨rules⟩ s := by
  induction rules generalizing s with
  | nil => rfl
  | cons r rules ih => exact ih _

/-- A reported run has one entry for each rule, with the number of places that the rule changed in what
the rules before it had left. -/
theorem getElem?_runReporting (rules : List Rule) (s : List Char) (k : Nat) :
    (runReporting rules s).2[k]? =
      rules[k]?.map fun r => hit r (r.change.apply (run ⟨rules.take k⟩ s)).2 := by
  induction rules generalizing s k with
  | nil => rfl
  | cons r rules ih =>
    cases k with
    | zero => rfl
    | succ k => exact ih _ k

theorem runLogging_cons (r : Rule) (rules : List Rule) (s : List Char) :
    runLogging (r :: rules) s =
      let h := hit r (r.change.apply s).2
      let later := runLogging rules (r.change.apply s).1
      (later.1, h :: later.2.1, if h.matched = 0 then h.missRecord :: later.2.2 else later.2.2) := rfl

/-- The records that are written during a run are those that its report calls for. -/
theorem runLogging_eq (rules : List Rule) (s : List Char) :
    runLogging rules s =
      ((runReporting rules s).1, (runReporting rules s).2, missRecords (runReporting rules s).2) := by
  induction rules generalizing s with
  | nil => rfl
  | cons r rules ih =>
    rw [runReporting_cons, runLogging_cons, ih, missRecords_cons]

end Pipeline

end ModelLoading.Edit
