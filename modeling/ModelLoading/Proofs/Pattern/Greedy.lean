import Mathlib.Data.List.Basic
import ModelLoading.Proofs.Pattern.Enclosing

/-!
# Greedy runs

A greedy repetition of one character of a class has a way for every run of such characters, longer ones
first (`ways_run`). So a pattern of fixed text around a run takes the longest run that the text behind
follows (`find?_runs_eq_some`).
-/

namespace ModelLoading.Pattern

/-! ## 1. Runs -/

/-- The runs of characters of a class at the beginning of a text, longer ones first. -/
def runs (ok : Char → Bool) : List Char → List (List Char)
  | [] => [[]]
  | c :: s => (if ok c then (runs ok s).map (c :: ·) else []) ++ [[]]

section Runs

variable {ok : Char → Bool} {s u : List Char}

theorem mem_runs : u ∈ runs ok s ↔ u <+: s ∧ ∀ c ∈ u, ok c = true := by
  induction s generalizing u with
  | nil =>
    rw [runs, List.mem_singleton, List.prefix_nil]
    exact ⟨fun h => ⟨h, by simp [h]⟩, And.left⟩
  | cons c s ih =>
    cases u with
    | nil => simp [runs]
    | cons d u =>
      rw [runs, List.mem_append, List.cons_prefix_cons]
      by_cases here : ok c = true
      · simp only [here, if_true, List.mem_map, ih, List.cons.injEq, List.mem_singleton,
          reduceCtorEq, or_false, List.forall_mem_cons]
        constructor
        · rintro ⟨u, ⟨front, all⟩, rfl, rfl⟩
          exact ⟨⟨rfl, front⟩, here, all⟩
        · rintro ⟨⟨rfl, front⟩, -, all⟩
          exact ⟨u, ⟨front, all⟩, rfl, rfl⟩
      · simp only [here, Bool.false_eq_true, if_false, List.not_mem_nil, List.mem_singleton,
          reduceCtorEq, or_self, List.forall_mem_cons, false_iff, not_and]
        rintro ⟨rfl, -⟩ also
        exact absurd also here

theorem pairwise_runs (ok : Char → Bool) (s : List Char) :
    (runs ok s).Pairwise fun u v => v.length < u.length := by
  induction s with
  | nil => simp [runs]
  | cons c s ih =>
    rw [runs, List.pairwise_append]
    refine ⟨?_, List.pairwise_singleton .., fun u long v short => ?_⟩
    · split
      · exact List.pairwise_map.mpr (ih.imp fun less => by simpa using less)
      · exact .nil
    · obtain rfl := List.mem_singleton.mp short
      split at long
      · obtain ⟨u', -, rfl⟩ := List.mem_map.mp long
        simp
      · simp at long

/-- The first run that has a property is the longest one. -/
theorem find?_runs_eq_some {p : List Char → Bool} (h : (runs ok s).find? p = some u) :
    u ∈ runs ok s ∧ p u = true ∧ ∀ v ∈ runs ok s, p v = true → v.length ≤ u.length := by
  refine ⟨List.mem_of_find?_eq_some h, List.find?_some h, fun v member has => ?_⟩
  obtain ⟨-, longer, shorter, split, none⟩ := List.find?_eq_some_iff_append.mp h
  have order := pairwise_runs ok s
  rw [split] at member order
  rcases List.mem_append.mp member with early | late
  · exact absurd has (by simpa using none v early)
  · have order := (List.pairwise_append.mp order).2.1
    rcases List.mem_cons.mp late with rfl | late
    · exact le_rfl
    · exact (List.rel_of_pairwise_cons order late).le

end Runs

/-! ## 2. Ways -/

/-- The rounds of one character are runs. -/
theorem star_one (cls : CharClass) (s : Spot) :
    star (Expr.one cls).ways true s = (runs cls.mem s.place.rest).map s.after := by
  have stop : s.after [] = s := by rw [Spot.after, Cursor.after_nil]
  induction text : s.place.rest generalizing s with
  | nil =>
    have nothing : (Expr.one cls).ways s = [] := by rw [Expr.ways, Cursor.next?_of_nil text]
    rw [star, nothing, runs, List.map_singleton, stop]
    rfl
  | cons c rest ih =>
    obtain ⟨d, goesOn, behind⟩ := Cursor.next?_of_cons text
    rw [star, Expr.ways, goesOn, runs, List.map_append, List.map_singleton, stop]
    by_cases here : cls.mem c = true
    · have less : d.left < s.place.left := Cursor.left_lt_of_next? goesOn
      have again := ih { s with place := d } (by rw [Spot.after, Cursor.after_nil]) behind
      simp only [here, if_true, List.flatMap_cons, List.flatMap_nil, List.append_nil, less, dif_pos,
        again, List.map_map, prefer]
      exact congrArg (· ++ [s]) (List.map_congr_left fun u _ => Spot.after_cons goesOn u)
    · simp only [here, Bool.false_eq_true, if_false, List.flatMap_nil, List.map_nil]
      rfl

/-- No further round. -/
theorem after_nil_mem_star {round : Spot → List Spot} {greedy : Bool} (s : Spot) :
    s.after [] ∈ star round greedy s := by
  rw [star, mem_prefer, Spot.after, Cursor.after_nil]
  exact .inr rfl

/-- One more round, in front of others. -/
theorem mem_star_append {round : Spot → List Spot} {greedy : Bool} {s : Spot} {a b : List Char}
    (some : a ≠ []) (stands : a ++ b <+: s.place.rest) (first : s.after a ∈ round s)
    (others : b <+: (s.after a).place.rest → (s.after a).after b ∈ star round greedy (s.after a)) :
    s.after (a ++ b) ∈ star round greedy s := by
  obtain ⟨rest, split⟩ := stands
  have split : s.place.rest = a ++ (b ++ rest) := by rw [← split, List.append_assoc]
  have less : (s.after a).place.left < s.place.left := by
    have passed := (Cursor.passes_after ⟨_, split.symm⟩).left_eq
    have := List.length_pos_of_ne_nil some
    change (s.place.after a).left < _
    omega
  rw [star, mem_prefer, List.mem_flatMap]
  refine .inl ⟨_, first, ?_⟩
  rw [dif_pos less, ← Spot.after_append]
  exact others ⟨rest, (Spot.rest_after split).symm⟩

/-- Rounds that can pass any character of a kind have a way for every text of such characters. -/
theorem mem_star {round : Spot → List Spot} {greedy : Bool} {ok : Char → Prop}
    (step : ∀ (s : Spot) c, [c] <+: s.place.rest → ok c → s.after [c] ∈ round s) {s : Spot}
    {text : List Char} (stands : text <+: s.place.rest) (all : ∀ c ∈ text, ok c) :
    s.after text ∈ star round greedy s := by
  induction text generalizing s with
  | nil => exact after_nil_mem_star s
  | cons c text ih =>
    have first : [c] <+: s.place.rest := (List.prefix_append [c] text).trans stands
    exact mem_star_append (a := [c]) (by simp) stands (step s c first (all c (by simp))) fun stands =>
      ih stands fun d hd => all d (by simp [hd])

/-- A character of a class is a way of the class. -/
theorem mem_ways_one {cls : CharClass} {s : Spot} {c : Char} (stands : [c] <+: s.place.rest)
    (member : cls.mem c = true) : s.after [c] ∈ (Expr.one cls).ways s := by
  obtain ⟨rest, split⟩ := stands
  obtain ⟨d, goesOn, -⟩ := Cursor.next?_of_cons split.symm
  rw [Expr.ways, goesOn, ← Spot.after_cons goesOn, Spot.after, Cursor.after_nil]
  simp [member]

/-- A repetition that may be left out has the way of leaving it out. -/
theorem self_mem_ways (max : Option Nat) (greedy : Bool) (p : Expr) (s : Spot) :
    s ∈ (Expr.repeated 0 max greedy p).ways s := by
  rw [Expr.ways]
  cases max with
  | none =>
    rw [rounds, star, mem_prefer]
    exact .inr rfl
  | some max =>
    cases max with
    | zero =>
      rw [rounds]
      exact List.mem_singleton.mpr rfl
    | succ max =>
      rw [rounds, mem_prefer]
      exact .inr rfl

/-- A greedy repetition of one character, at least once, has a way for every run that is not empty. -/
theorem ways_run (cls : CharClass) (s : Spot) : (Expr.repeated 1 none true (.one cls)).ways s =
    ((runs cls.mem s.place.rest).filter (· ≠ [])).map s.after := by
  rw [Expr.ways, rounds]
  cases text : s.place.rest with
  | nil => simp [Expr.ways, Cursor.next?_of_nil text, runs]
  | cons c rest =>
    obtain ⟨d, goesOn, behind⟩ := Cursor.next?_of_cons text
    rw [Expr.ways, goesOn, runs, List.filter_append]
    by_cases here : cls.mem c = true
    · have all : ((runs cls.mem rest).map (c :: ·)).filter (· ≠ []) = (runs cls.mem rest).map (c :: ·) :=
        List.filter_eq_self.mpr (by simp)
      simp only [here, if_true, List.flatMap_cons, List.flatMap_nil, List.append_nil, all, rounds,
        Option.map_none, star_one, behind, List.map_append, List.map_map]
      simp only [ne_eq, not_true_eq_false, decide_false, Bool.false_eq_true, not_false_eq_true,
        List.filter_cons_of_neg, List.filter_nil, List.map_nil, List.append_nil]
      exact List.map_congr_left fun u _ => Spot.after_cons goesOn u
    · simp [here]

/-- Every run that is not empty is a way. -/
theorem mem_ways_run {cls : CharClass} {s : Spot} {u : List Char} (some : u ≠ [])
    (stands : u <+: s.place.rest) (all : ∀ c ∈ u, cls.mem c = true) :
    s.after u ∈ (Expr.repeated 1 none true (.one cls)).ways s := by
  rw [ways_run]
  exact List.mem_map_of_mem (List.mem_filter.mpr ⟨mem_runs.mpr ⟨stands, all⟩, by simpa using some⟩)

/-- A run up to a character takes the last such character that it can reach. -/
theorem Found.not_mem_of_run {cls : CharClass} {z : Char} {s u : Spot} {text rest : List Char}
    (h : Found (.repeated 1 none true (.one cls)) [z] s u text rest) (member : cls.mem z = true) :
    z ∉ rest.takeWhile cls.mem := by
  intro further
  have first := h.first
  rw [ways_run, List.find?_map, List.find?_filter, Option.map_eq_some_iff] at first
  obtain ⟨run, first, rfl⟩ := first
  obtain ⟨inside, -, longest⟩ := find?_runs_eq_some first
  obtain rfl : run = text := by
    have stands := Cursor.passes_after (mem_runs.mp inside).1
    exact List.append_cancel_right (stands.rest.symm.trans h.passed.1.rest)
  -- one that goes on to the character would be longer
  obtain ⟨a, b, split⟩ := List.append_of_mem further
  obtain ⟨others, whole⟩ := List.takeWhile_prefix (p := cls.mem) (l := rest)
  have all : ∀ c ∈ a, cls.mem c = true := fun c hc =>
    List.all_eq_true.mp List.all_takeWhile c (by rw [split]; exact List.mem_append_left _ hc)
  have text := h.rest_eq
  rw [← whole, split] at text
  have longer := longest (run ++ z :: a) (mem_runs.mpr ⟨⟨z :: (b ++ others), ?_⟩, ?_⟩) ?_
  · simp at longer
  · rw [text]
    simp
  · intro c hc
    rcases List.mem_append.mp hc with old | new
    · exact (mem_runs.mp inside).2 c old
    · exact (List.mem_cons.mp new).elim (fun same => same ▸ member) (all c)
  · simp [Spot.after, Cursor.after, text]

end ModelLoading.Pattern
