import ModelLoading.Proofs.Edit.Running
import ModelLoading.Proofs.Pattern.Cutting
import ModelLoading.Proofs.Text.Cutting

/-!
# Reports of runs

What a change replaces in a text is said without counting and without replacing: the text is cut into segments,
each behind a text that is kept (`Change.Cuts`). There is exactly one cut, the changed text has something else
in the place of each segment, and the count is the number of segments (`Change.Cuts.apply`). So a report of a
run says of every rule what it did to the text that the rules before it had left (`Pipeline.Reported`), and a
rule that is reported to have changed nothing has changed nothing, and has written one record.
-/

namespace ModelLoading.Edit

open Pattern (Match Regex)
open Pattern.Template (expand)

/-! ## 1. Cuts -/

/-- A part of a text that is replaced, and the text in front of it that is kept. -/
structure Segment where
  kept : List Char
  old : List Char
  new : List Char

/-- A text in segments, and what is left behind the last of them. -/
structure Cut where
  segments : List Segment
  rest : List Char

/-- The text that was cut. -/
def Cut.original (c : Cut) : List Char := (c.segments.flatMap fun part => part.kept ++ part.old) ++ c.rest

/-- The text with every segment replaced. -/
def Cut.changed (c : Cut) : List Char := (c.segments.flatMap fun part => part.kept ++ part.new) ++ c.rest

/-- What a change replaces in a text. -/
inductive Change.Cuts : Change → List Char → Cut → Prop
  /-- Nothing, at the beginning. -/
  | first (text : String) (s : List Char) : Cuts (.insertFirst text) s ⟨[⟨[], [], text.toList⟩], s⟩
  /-- The occurrences of a text that is not empty. -/
  | occurrences {what : String} (replacement : String) {s rest : List Char} {keeps : List (List Char)}
      (cut : Text.CutAt what.toList s keeps rest) :
      Cuts (.literal what replacement) s
        ⟨keeps.map fun kept => ⟨kept, what.toList, replacement.toList⟩, rest⟩
  /-- Nothing, before every character and at the end. -/
  | everywhere (replacement : String) (s : List Char) :
      Cuts (.literal "" replacement) s
        ⟨⟨[], [], replacement.toList⟩ :: s.map fun c => ⟨[c], [], replacement.toList⟩, []⟩
  /-- The matches of a pattern. -/
  | found {regex : Regex} (template : String) {s rest : List Char} {matched : List (List Char × Match)}
      (cut : regex.body.CutAt (.atStart s) true matched rest) :
      Cuts (.pattern regex template) s
        ⟨matched.map fun part =>
          ⟨part.1, part.2.text, expand (part.2.value regex.names) template.toList⟩, rest⟩

section Cuts

variable {change : Change} {s : List Char} {cut cut' : Cut}

/-- A change puts something else in the place of every segment of the cut, and counts the segments. -/
theorem Change.Cuts.apply (h : change.Cuts s cut) :
    cut.original = s ∧ change.apply s = (cut.changed, cut.segments.length) := by
  cases h with
  | first text s => exact ⟨rfl, by simp [Change.apply, Cut.changed]⟩
  | occurrences replacement cut =>
    obtain ⟨text, count⟩ := Text.replaceAll_of_pieces cut.pieces_eq replacement.toList
    refine ⟨?_, ?_⟩
    · rw [Cut.original, List.flatMap_map]
      exact cut.written
    · rw [Change.apply, text, count, Cut.changed, List.flatMap_map, List.length_map]
  | everywhere replacement s =>
    obtain ⟨text, count⟩ := Text.replaceAll_of_pieces (Text.pieces_empty s) replacement.toList
    refine ⟨by simp [Cut.original, List.flatMap_map], ?_⟩
    rw [Change.apply, String.toList_empty, text, count]
    simp [Cut.changed, List.flatMap_map]
  | found template cut =>
    obtain ⟨text, count⟩ := Regex.replaceAll_of_cutAt cut template.toList
    refine ⟨?_, ?_⟩
    · rw [Cut.original, List.flatMap_map]
      exact Regex.written_of_cutAt cut
    · rw [Change.apply, text, count, Cut.changed, List.flatMap_map, List.length_map]

theorem Change.exists_cuts (change : Change) (s : List Char) : ∃ cut, change.Cuts s cut := by
  cases change with
  | insertFirst text => exact ⟨_, .first text s⟩
  | literal what replacement =>
    by_cases nonempty : what.toList = []
    · obtain rfl := String.toList_eq_nil_iff.mp nonempty
      exact ⟨_, .everywhere replacement s⟩
    · obtain ⟨keeps, rest, cut⟩ := Text.exists_cutAt nonempty s
      exact ⟨_, .occurrences replacement cut⟩
  | pattern regex template =>
    obtain ⟨matched, rest, cut, -⟩ := Pattern.Expr.exists_cutAt regex.body (.atStart s) true
    exact ⟨_, .found template cut⟩

theorem Change.Cuts.unique (h : change.Cuts s cut) (h' : change.Cuts s cut') : cut = cut' := by
  cases h with
  | first => cases h'; rfl
  | occurrences replacement cut =>
    cases h' with
    | occurrences _ cut' =>
      obtain ⟨rfl, same⟩ := List.append_inj' (cut.pieces_eq.symm.trans cut'.pieces_eq) rfl
      rw [List.singleton_inj.mp same]
    | everywhere => exact absurd rfl cut.ne_nil
  | everywhere replacement s =>
    cases h' with
    | occurrences _ cut' => exact absurd rfl cut'.ne_nil
    | everywhere => rfl
  | found template cut =>
    cases h' with
    | found _ cut' =>
      obtain ⟨rfl, rfl⟩ := cut.unique cut'
      rfl

/-- What a change reports with no segment, it has not changed. -/
theorem Change.apply_of_zero (none : (change.apply s).2 = 0) : (change.apply s).1 = s := by
  obtain ⟨cut, cuts⟩ := change.exists_cuts s
  obtain ⟨whole, applied⟩ := cuts.apply
  rw [applied] at none ⊢
  rw [← whole, Cut.changed, Cut.original, List.length_eq_zero_iff.mp none]
  rfl

end Cuts

/-! ## 2. Runs -/

/-- The records of one rule. -/
def Hit.records (h : Hit) : List Log.Record := if h.matched = 0 then [h.missRecord] else []

theorem missRecords_eq (hits : List Hit) : missRecords hits = hits.flatMap Hit.records := by
  induction hits with
  | nil => rfl
  | cons h hits ih =>
    rw [missRecords_cons, List.flatMap_cons, ← ih, Hit.records]
    split <;> rfl

namespace Pipeline

/-- What a reported run on a text comes to: a text, a report, and records in the log. -/
structure Reported (p : Pipeline) (s t : List Char) (hits : List Hit) (written : List Log.Record) : Prop where
  /-- The text is that of a plain run. -/
  text : t = p.run s
  /-- There is one entry for each rule. -/
  length : hits.length = p.rules.length
  /-- What the rules before it have left is cut in one way by each rule, which replaces the segments. Its entry
  has their number. -/
  rule : ∀ (k : Nat) (r : Rule), p.rules[k]? = some r →
    (∃! cut, r.change.Cuts (run ⟨p.rules.take k⟩ s) cut) ∧
      ∀ cut, r.change.Cuts (run ⟨p.rules.take k⟩ s) cut →
        cut.original = run ⟨p.rules.take k⟩ s ∧ cut.changed = run ⟨p.rules.take (k + 1)⟩ s ∧
          hits[k]? = some (hit r cut.segments.length)
  /-- A rule that is reported with no match changed nothing. -/
  silent : ∀ (k : Nat) (h : Hit), hits[k]? = some h → h.matched = 0 →
    run ⟨p.rules.take (k + 1)⟩ s = run ⟨p.rules.take k⟩ s
  /-- There is one record for each rule that is reported with no match, and there are no others. -/
  records : written = hits.flatMap Hit.records
  /-- The records are of the lowest level. -/
  debug : ∀ record ∈ written, record.level = .debug
  /-- If every rule but one is reported with no match, and that one puts a text in front, then this is all that
  has happened. -/
  front : ∀ (before after : List Rule) (r : Rule) (text : String), p.rules = before ++ r :: after →
    r.change = .insertFirst text → (∀ h ∈ hits.eraseIdx before.length, h.matched = 0) → t = text.toList ++ s

section Reports

variable {rules : List Rule} {s : List Char}

theorem length_runReporting (rules : List Rule) (s : List Char) :
    (runReporting rules s).2.length = rules.length := by
  induction rules generalizing s with
  | nil => rfl
  | cons r rules ih => exact congrArg (· + 1) (ih _)

theorem run_take_succ {k : Nat} {r : Rule} (here : rules[k]? = some r) (s : List Char) :
    run ⟨rules.take (k + 1)⟩ s = (r.change.apply (run ⟨rules.take k⟩ s)).1 := by
  rw [List.take_add_one, here, run_append]
  rfl

/-- Rules that find nothing in a text leave it. -/
theorem run_of_silent (none : ∀ r ∈ rules, (r.change.apply s).2 = 0) : run ⟨rules⟩ s = s := by
  induction rules with
  | nil => rfl
  | cons r rules ih =>
    obtain ⟨first, others⟩ := List.forall_mem_cons.mp none
    have ran : run ⟨r :: rules⟩ s = run ⟨rules⟩ (r.change.apply s).1 := rfl
    rw [ran, Change.apply_of_zero first, ih others]

/-- A report has no match at all if and only if each rule finds nothing in the text as it was. -/
theorem silent_iff : (∀ h ∈ (runReporting rules s).2, h.matched = 0) ↔ ∀ r ∈ rules, (r.change.apply s).2 = 0 := by
  induction rules with
  | nil => simp [runReporting, runLogging]
  | cons r rules ih =>
    rw [runReporting_cons, List.forall_mem_cons, List.forall_mem_cons]
    refine and_congr_right fun none => ?_
    rw [Change.apply_of_zero none, ih]

/-- A report of rules is that of the first ones and that of the others. -/
theorem snd_runReporting_append (rules rules' : List Rule) (s : List Char) :
    (runReporting (rules ++ rules') s).2 =
      (runReporting rules s).2 ++ (runReporting rules' (run ⟨rules⟩ s)).2 := by
  induction rules generalizing s with
  | nil => rfl
  | cons r rules ih => exact congrArg (hit r _ :: ·) (ih _)

theorem records_eq (p : Pipeline) (s : List Char) : p.records s = missRecords (p.report s).2 := by
  rw [records, runLogging_eq]
  rfl

/-- A reported run is a plain run, with an account of every rule. -/
theorem reported (p : Pipeline) (s : List Char) :
    p.Reported s (p.report s).1 (p.report s).2 (p.records s) where
  text := fst_runReporting p.rules s
  length := length_runReporting p.rules s
  rule k r here := by
    obtain ⟨cut, cuts⟩ := r.change.exists_cuts (run ⟨p.rules.take k⟩ s)
    refine ⟨⟨cut, cuts, fun _ cuts' => cuts'.unique cuts⟩, fun cut cuts => ?_⟩
    obtain ⟨whole, applied⟩ := cuts.apply
    refine ⟨whole, ?_, ?_⟩
    · rw [run_take_succ here, applied]
    · rw [report, getElem?_runReporting, here, Option.map_some, applied]
  silent k h reported none := by
    rw [report, getElem?_runReporting] at reported
    obtain ⟨r, here, rfl⟩ := Option.map_eq_some_iff.mp reported
    rw [run_take_succ here]
    exact Change.apply_of_zero none
  records := (records_eq p s).trans (missRecords_eq _)
  debug record member := by
    rw [records_eq] at member
    obtain ⟨h, -, rfl⟩ := List.mem_map.mp member
    rfl
  front before after r text split front none := by
    have others : (p.report s).2.eraseIdx before.length =
        (runReporting before s).2 ++ (runReporting after (r.change.apply (run ⟨before⟩ s)).1).2 := by
      rw [report, split, snd_runReporting_append, ← length_runReporting (s := s) before,
        List.eraseIdx_append_of_length_le (Nat.le_refl _), Nat.sub_self]
      rfl
    rw [others, List.forall_mem_append, silent_iff, silent_iff] at none
    have ran : run ⟨before ++ r :: after⟩ s = run ⟨after⟩ (r.change.apply (run ⟨before⟩ s)).1 := run_append ..
    rw [report, fst_runReporting, split, ran, run_of_silent none.2, run_of_silent none.1, front]
    rfl

end Reports

end Pipeline

end ModelLoading.Edit
