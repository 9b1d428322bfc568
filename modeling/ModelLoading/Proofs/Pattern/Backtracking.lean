import ModelLoading.Proofs.Pattern.Ways
import Std.Data.HashSet.Lemmas

/-!
# A search finds the first way

A search carries many attempts on side by side and drops every attempt that would go on like a better
one. Nothing is lost by that: a search finds what trying one way after the other finds
(`outcome?_searchFrom_fresh`).

The ways of an attempt are the ways of its goals, one after another (`Attempt.outcomes`). A step of an
attempt keeps them (`Attempt.step_keeps`). An attempt that is dropped has ways only if there is a way
before it, because the attempt like it was carried on in full: it is never dropped for one of its own
parts, as these have less left to do at the place (`reach`).

All of this is about patterns in which a repetition without an upper bound consumes something in every
round (`Expr.productive`).
-/

namespace ModelLoading.Pattern

/-! ## 1. Goals -/

/-- Whether every round of a repetition without an upper bound consumes something. -/
def Expr.productive : Expr → Bool
  | empty | assert _ | one _ => true
  | seq p q | alt p q => p.productive && q.productive
  | repeated _ max _ p => p.productive && (max.isSome || !p.nullable)
  | group _ p => p.productive

namespace Goal

/-- The ways in which a goal is met from a spot on. -/
def ways : Goal → Spot → List Spot
  | expr _ p => p.ways
  | close number => fun s => [s.closeGroup number]
  | spent _ greedy p => (Expr.repeated 0 none greedy p).ways

/-- Whether a goal can be met without consuming anything. -/
def nullable : Goal → Bool
  | expr _ p => p.nullable
  | close _ | spent _ _ _ => true

/-- Whether every round of a repetition without an upper bound consumes something. -/
def productive : Goal → Bool
  | expr _ p => p.productive
  | close _ => true
  | spent _ _ p => p.productive && !p.nullable

@[simp] theorem ways_renewed (g : Goal) : g.renewed.ways = g.ways := by cases g <;> rfl

@[simp] theorem nullable_renewed (g : Goal) : g.renewed.nullable = g.nullable := by cases g <;> rfl

@[simp] theorem renewed_renewed (g : Goal) : g.renewed.renewed = g.renewed := by cases g <;> rfl

theorem productive_renewed {g : Goal} (h : g.productive = true) : g.renewed.productive = true := by
  cases g with
  | spent part greedy p =>
    simpa [renewed, productive, Expr.productive] using h
  | _ => exact h

end Goal

/-- The ways in which goals are met one after another. -/
def follow : List Goal → Spot → List Spot
  | [], s => [s]
  | g :: k, s => (g.ways s).flatMap (follow k)

theorem follow_renewed (k : List Goal) : follow (k.map Goal.renewed) = follow k := by
  induction k with
  | nil => rfl
  | cons g k ih =>
    funext s
    rw [List.map_cons, follow, follow, Goal.ways_renewed, ih]

/-- Where goals can lead does not depend on the groups that were there before. -/
theorem map_place_follow (k : List Goal) : SamePlaces (follow k) (follow k) := by
  induction k with
  | nil => exact fun s t place => by simp [follow, place]
  | cons g k ih =>
    intro s t place
    refine ih.flatMap ?_
    cases g with
    | expr part p => exact map_place_ways p s t place
    | close number => simp [Goal.ways, place]
    | spent part greedy p => exact map_place_ways _ s t place

/-- No goal that waits for a character is reached before one is consumed. -/
def Guarded : List Goal → Prop
  | [] => True
  | .spent _ _ _ :: _ => False
  | g :: k => g.nullable = true → Guarded k

/-- What is kept of the goals of an attempt. -/
structure Sound (todo : List Goal) : Prop where
  guarded : Guarded todo
  productive : ∀ g ∈ todo, g.productive = true

/-- A bound on the steps that goals take at one place, which is the same after a character. -/
def reach : List Goal → Nat
  | [] => 0
  | g :: k => g.renewed.weight + if g.nullable then reach k else 0

theorem reach_renewed (k : List Goal) : reach (k.map Goal.renewed) = reach k := by
  induction k with
  | nil => rfl
  | cons g k ih => simp only [List.map_cons, reach, Goal.renewed_renewed, Goal.nullable_renewed, ih]

theorem guarded_renewed (k : List Goal) : Guarded (k.map Goal.renewed) := by
  induction k with
  | nil => trivial
  | cons g k ih => cases g <;> exact fun _ => ih

theorem sound_renewed {k : List Goal} (productive : ∀ g ∈ k, g.productive = true) :
    Sound (k.map Goal.renewed) := by
  refine ⟨guarded_renewed k, fun g hg => ?_⟩
  obtain ⟨g, inside, rfl⟩ := List.mem_map.mp hg
  exact Goal.productive_renewed (productive g inside)

theorem sound_expr {part : Nat} {p : Expr} {k : List Goal} : Sound (.expr part p :: k) ↔
    p.productive = true ∧ (p.nullable = true → Guarded k) ∧ ∀ g ∈ k, g.productive = true := by
  refine ⟨fun h => ⟨?_, h.guarded, fun g hg => ?_⟩, fun ⟨own, guarded, rest⟩ => ⟨guarded, ?_⟩⟩
  · exact h.productive (.expr part p) (by simp)
  · exact h.productive g (by simp [hg])
  · simpa [Goal.productive, own] using rest

/-- The ways of a pattern that has goals behind it. -/
theorem follow_expr (part : Nat) (p : Expr) (k : List Goal) (s : Spot) :
    follow (.expr part p :: k) s = (p.ways s).flatMap (follow k) := rfl

@[simp] theorem reach_expr (part : Nat) (p : Expr) (k : List Goal) :
    reach (.expr part p :: k) = p.weight + if p.nullable then reach k else 0 := rfl

/-! ## 2. Steps -/

/-- A way of an attempt, with the place where the attempt began. -/
abbrev Outcome := Cursor × Spot

namespace Attempt

/-- The place of an attempt, with its groups. -/
def spot (a : Attempt) (c : Cursor) : Spot := ⟨c, a.opened, a.groups⟩

@[simp] theorem spot_place (a : Attempt) (c : Cursor) : (a.spot c).place = c := rfl

@[simp] theorem spot_turn (a : Attempt) (c : Cursor) (todo : List Goal) :
    (a.turn todo).spot c = a.spot c := rfl

@[simp] theorem spot_openGroup (a : Attempt) (c : Cursor) (number : Nat) (todo : List Goal) :
    (a.openGroup number c todo).spot c = (a.spot c).openGroup number := rfl

@[simp] theorem spot_closeGroup (a : Attempt) (c : Cursor) (number : Nat) (todo : List Goal) :
    (a.closeGroup number c todo).spot c = (a.spot c).closeGroup number := rfl

/-- The ways of an attempt from a place on, better ones first. -/
def outcomes (c : Cursor) (a : Attempt) : List Outcome := (follow a.todo (a.spot c)).map (a.start, ·)

/-- An attempt goes on as another does, with less to do at the place. -/
structure Closer (a b : Attempt) : Prop where
  sound : Sound b.todo
  less : reach b.todo < reach a.todo

/-- A step of an attempt keeps its ways. -/
def Keeps (a : Attempt) (c : Cursor) : Step → Prop
  | .fail => a.outcomes c = []
  | .done => a.outcomes c = [(a.start, a.spot c)]
  | .next b => a.outcomes c = b.outcomes c ∧ a.Closer b
  | .choice ways => a.outcomes c = ways.flatMap (outcomes c) ∧ ∀ b ∈ ways, a.Closer b
  | .consume b => ∃ x d, c.next? = some (x, d) ∧ a.outcomes c = b.outcomes d ∧ Sound b.todo

/-- A choice between another round and the rest. -/
theorem keeps_choose {a : Attempt} {c : Cursor} {greedy : Bool} {again rest : List Goal} (ways : List Spot)
    (split : follow a.todo (a.spot c) =
      (prefer greedy ways (a.spot c)).flatMap (follow rest))
    (round : ways.flatMap (follow rest) = follow again (a.spot c))
    (closer : a.Closer (a.turn again)) (closer' : a.Closer (a.turn rest)) :
    a.Keeps c (a.choose greedy again rest) := by
  refine ⟨?_, fun b hb => ?_⟩
  · rw [outcomes, split]
    cases greedy with
    | true =>
      simp only [prefer, if_true, List.flatMap_append, round, List.flatMap_cons, List.flatMap_nil,
        List.append_nil, List.map_append]
      rfl
    | false =>
      simp only [prefer, Bool.false_eq_true, if_false, round, List.flatMap_cons, List.flatMap_nil,
        List.append_nil, List.map_append]
      rfl
  · split at hb <;> simp only [List.mem_cons, List.not_mem_nil, or_false] at hb <;>
      rcases hb with rfl | rfl <;> assumption

end Attempt

section Rounds

variable {p : Expr} {greedy : Bool}

/-- Every round of a pattern that cannot match nothing goes on. -/
theorem star_eq (nonnull : p.nullable = false) (s : Spot) : star p.ways greedy s =
    prefer greedy ((p.ways s).flatMap (star p.ways greedy)) s := by
  rw [star]
  congr 1
  refine List.flatMap_congr fun t ht => ?_
  rw [dif_pos (left_lt_of_mem_ways nonnull ht)]

end Rounds

/-- The alternatives of a pattern have its ways. -/
theorem flatMap_alternatives (p : Expr) (part : Nat) (s : Spot) :
    (p.alternatives part).flatMap (fun q => q.2.ways s) = p.ways s := by
  induction p generalizing part with
  | alt p q _ ih => rw [Expr.alternatives, List.flatMap_cons, ih, Expr.ways]
  | _ => simp [Expr.alternatives]

/-- An alternative of a pattern is not heavier, and matches nothing only if the pattern can. -/
theorem alternative_le {p q : Expr} {part n : Nat} (h : (n, q) ∈ p.alternatives part) :
    q.weight ≤ p.weight ∧ (q.nullable = true → p.nullable = true) ∧
      (p.productive = true → q.productive = true) := by
  induction p generalizing part with
  | alt p p' _ ih =>
    rw [Expr.alternatives, List.mem_cons] at h
    rcases h with first | later
    · obtain ⟨-, rfl⟩ := Prod.mk.inj first
      refine ⟨?_, fun null => ?_, fun productive => ?_⟩
      · simp only [Expr.weight]
        omega
      · simp [Expr.nullable, null]
      · simp only [Expr.productive, Bool.and_eq_true] at productive
        exact productive.1
    · obtain ⟨weight, null, productive⟩ := ih later
      refine ⟨?_, fun null' => ?_, fun productive' => ?_⟩
      · simp only [Expr.weight]
        omega
      · simp [Expr.nullable, null null']
      · simp only [Expr.productive, Bool.and_eq_true] at productive'
        exact productive productive'.2
  | _ =>
    simp only [Expr.alternatives, List.mem_cons, Prod.mk.injEq, List.not_mem_nil, or_false] at h
    obtain ⟨-, rfl⟩ := h
    exact ⟨Nat.le_refl _, id, id⟩

namespace Attempt

variable {a : Attempt} {c : Cursor} {part : Nat} {p q : Expr} {k : List Goal}

/-- An attempt keeps its ways if it has something else to do that has the same ways. -/
theorem keeps_turn {todo : List Goal} (same : follow a.todo (a.spot c) = follow todo (a.spot c))
    (closer : a.Closer (a.turn todo)) : a.Keeps c (.next (a.turn todo)) :=
  ⟨congrArg (List.map (a.start, ·)) same, closer⟩

/-- An attempt that passes over a pattern has less to do at the place. -/
theorem closer_rest (todo : a.todo = .expr part p :: k) (sound : Sound a.todo)
    (null : p.nullable = true) : a.Closer (a.turn k) := by
  rw [todo, sound_expr] at sound
  refine ⟨⟨sound.2.1 null, sound.2.2⟩, ?_⟩
  have := p.weight_pos
  rw [todo, reach_expr, if_pos null]
  simp only [turn]
  omega

/-! One lemma for each form of the pattern that an attempt goes on with. -/

theorem keeps_one {cls : CharClass} (todo : a.todo = .expr part (.one cls) :: k) (sound : Sound a.todo)
    (c : Cursor) : a.Keeps c (a.step c) := by
  rw [todo, sound_expr] at sound
  simp only [step, todo]
  cases goesOn : c.next? with
  | none =>
    have ends : c.rest = [] := by
      unfold Cursor.next? at goesOn
      split at goesOn
      · assumption
      · cases goesOn
    simp [ends, Keeps, outcomes, todo, follow_expr, Expr.ways, goesOn]
  | some next =>
    obtain ⟨x, d⟩ := next
    have head : c.rest.head? = some x := by rw [Cursor.rest_of_next? goesOn]; rfl
    have here : a.outcomes c =
        if cls.mem x then (a.turn (k.map Goal.renewed)).outcomes d else [] := by
      rw [outcomes, todo, follow_expr]
      simp only [Expr.ways, spot_place, goesOn]
      split
      · simp [outcomes, turn, spot, follow_renewed]
      · rfl
    simp only [head, Option.any_some]
    split
    · rename_i member
      exact ⟨x, d, goesOn, by rw [here, if_pos member], sound_renewed sound.2.2⟩
    · rename_i other
      exact here.trans (if_neg other)

theorem keeps_assert {condition : Assertion} (todo : a.todo = .expr part (.assert condition) :: k)
    (sound : Sound a.todo) (c : Cursor) : a.Keeps c (a.step c) := by
  have rest := closer_rest todo sound rfl
  simp only [step, todo]
  split
  · rename_i holds
    exact keeps_turn (by simp [todo, follow_expr, Expr.ways, holds]) rest
  · rename_i fails
    simp [Keeps, outcomes, todo, follow_expr, Expr.ways, fails]

theorem keeps_seq (todo : a.todo = .expr part (.seq p q) :: k) (sound : Sound a.todo) (c : Cursor) :
    a.Keeps c (a.step c) := by
  rw [todo, sound_expr, Expr.productive, Bool.and_eq_true, Expr.nullable, Bool.and_eq_true] at sound
  obtain ⟨own, guarded, rest⟩ := sound
  simp only [step, todo]
  refine keeps_turn ?_ ⟨sound_expr.mpr ⟨own.1, fun nullp nullq => guarded ⟨nullp, nullq⟩, ?_⟩, ?_⟩
  · rw [todo, follow_expr, Expr.ways, List.flatMap_assoc]
    rfl
  · simpa [Goal.productive, own.2] using rest
  · simp only [todo, turn, reach_expr, Expr.weight, Expr.nullable]
    grind

theorem keeps_alt (todo : a.todo = .expr part (.alt p q) :: k) (sound : Sound a.todo) (c : Cursor) :
    a.Keeps c (a.step c) := by
  rw [todo, sound_expr, Expr.productive, Bool.and_eq_true] at sound
  obtain ⟨own, guarded, rest⟩ := sound
  simp only [step, todo]
  refine ⟨?_, fun b hb => ?_⟩
  · have alternatives := flatMap_alternatives q (part + 1 + p.size) (a.spot c)
    rw [outcomes, todo, follow_expr, Expr.ways, ← alternatives, List.flatMap_append, List.map_append,
      List.map_cons, List.flatMap_cons]
    refine congrArg _ ?_
    rw [List.flatMap_assoc, List.flatMap_map, List.map_flatMap]
    rfl
  · obtain ⟨⟨n, r⟩, way, rfl⟩ := List.mem_map.mp hb
    -- whichever it is, it is lighter than the choice
    have lighter : r.weight < (Expr.alt p q).weight ∧
        (r.nullable = true → (Expr.alt p q).nullable = true) ∧ r.productive = true := by
      rw [Expr.weight, Expr.nullable, Bool.or_eq_true]
      rcases List.mem_cons.mp way with first | later
      · obtain ⟨-, rfl⟩ := Prod.mk.inj first
        exact ⟨by omega, .inl, own.1⟩
      · obtain ⟨weight, null, productive⟩ := alternative_le later
        exact ⟨by omega, fun h => .inr (null h), productive own.2⟩
    obtain ⟨weight, null, productive⟩ := lighter
    refine ⟨sound_expr.mpr ⟨productive, fun h => guarded (null h), rest⟩, ?_⟩
    simp only [todo, turn, reach_expr]
    split
    · rename_i h
      rw [if_pos (null h)]
      omega
    · omega

/-- A round that is due comes first. -/
theorem keeps_repeated_succ {min : Nat} {max : Option Nat} {greedy : Bool}
    (todo : a.todo = .expr part (.repeated (min + 1) max greedy p) :: k) (sound : Sound a.todo)
    (c : Cursor) : a.Keeps c (a.step c) := by
  rw [todo, sound_expr, Expr.productive, Bool.and_eq_true, Bool.or_eq_true,
    Bool.not_eq_true'] at sound
  obtain ⟨own, guarded, rest⟩ := sound
  simp only [step, todo]
  refine keeps_turn ?_ ⟨sound_expr.mpr ⟨own.1, fun null _ => ?_, ?_⟩, ?_⟩
  · rw [todo, follow_expr, Expr.ways, rounds, List.flatMap_assoc]
    rfl
  · exact guarded (by simp [Expr.nullable, null])
  · simpa [Goal.productive, Expr.productive, own] using rest
  · have := Expr.weight_rounds p.weight min max
    simp only [todo, turn, reach_expr, Expr.weight, Expr.nullable] at this ⊢
    grind

/-- A round that is not due and that another one can follow consumes something, so that what comes
after it is not reached at the place. -/
theorem keeps_star {greedy : Bool} (todo : a.todo = .expr part (.repeated 0 none greedy p) :: k)
    (sound : Sound a.todo) (c : Cursor) : a.Keeps c (a.step c) := by
  have closer := closer_rest todo sound rfl
  rw [todo, sound_expr, Expr.productive, Bool.and_eq_true] at sound
  obtain ⟨own, guarded, rest⟩ := sound
  have nonnull : p.nullable = false := by simpa using own.2
  simp only [step, todo]
  refine keeps_choose ((p.ways (a.spot c)).flatMap (star p.ways greedy)) ?_ ?_ ?_ closer
  · rw [todo, follow_expr, Expr.ways, rounds, star_eq nonnull]
  · rw [List.flatMap_assoc, follow]
    simp only [Goal.ways, Expr.ways, follow, rounds]
  · refine ⟨sound_expr.mpr ⟨own.1, by simp [nonnull], ?_⟩, ?_⟩
    · simpa [Goal.productive, own, nonnull] using rest
    · simp only [todo, turn, reach_expr, Expr.weight, nonnull, Bool.false_eq_true, if_false,
        Option.getD_none]
      omega

/-- A round that is not due and that has a number of others behind it. -/
theorem keeps_repeated_some {max : Nat} {greedy : Bool}
    (todo : a.todo = .expr part (.repeated 0 (some max) greedy p) :: k) (sound : Sound a.todo)
    (c : Cursor) : a.Keeps c (a.step c) := by
  have closer := closer_rest todo sound rfl
  rw [todo, sound_expr, Expr.productive, Bool.and_eq_true] at sound
  obtain ⟨own, guarded, rest⟩ := sound
  cases max with
  | zero =>
    simp only [step, todo]
    exact keeps_turn (by simp [todo, follow_expr, Expr.ways, rounds]) closer
  | succ max =>
    simp only [step, todo]
    refine keeps_choose ((p.ways (a.spot c)).flatMap (rounds p.ways greedy 0 (some max))) ?_ ?_ ?_
      closer
    · rw [todo, follow_expr, Expr.ways, rounds]
    · rw [List.flatMap_assoc]
      rfl
    · refine ⟨sound_expr.mpr ⟨own.1, fun null _ => guarded rfl, ?_⟩, ?_⟩
      · simpa [Goal.productive, Expr.productive, own] using rest
      · simp only [todo, turn, reach_expr, Expr.weight, Expr.nullable, Option.getD_some,
          Nat.mul_succ, Nat.zero_add, beq_self_eq_true, Bool.true_or, if_true]
        split <;> omega

theorem keeps_group {number : Nat} (todo : a.todo = .expr part (.group number p) :: k)
    (sound : Sound a.todo) (c : Cursor) : a.Keeps c (a.step c) := by
  rw [todo, sound_expr] at sound
  obtain ⟨own, guarded, rest⟩ := sound
  simp only [step, todo]
  refine ⟨?_, sound_expr.mpr ⟨own, fun null _ => guarded null, ?_⟩, ?_⟩
  · rw [outcomes, outcomes, todo, follow_expr, spot_openGroup]
    simp [Expr.ways, follow, Goal.ways, openGroup, List.flatMap_map]
  · simpa [Goal.productive] using rest
  · simp only [todo, openGroup, reach_expr, Expr.weight, Expr.nullable, reach, Goal.renewed,
      Goal.weight, Goal.nullable]
    grind

theorem keeps_expr (todo : a.todo = .expr part p :: k) (sound : Sound a.todo) (c : Cursor) :
    a.Keeps c (a.step c) := by
  cases p with
  | empty =>
    simp only [step, todo]
    exact keeps_turn (by simp [todo, follow_expr, Expr.ways]) (closer_rest todo sound rfl)
  | one cls => exact keeps_one todo sound c
  | assert condition => exact keeps_assert todo sound c
  | seq p q => exact keeps_seq todo sound c
  | alt p q => exact keeps_alt todo sound c
  | repeated min max greedy p =>
    cases min with
    | succ min => exact keeps_repeated_succ todo sound c
    | zero =>
      cases max with
      | none => exact keeps_star todo sound c
      | some max => exact keeps_repeated_some todo sound c
  | group number p => exact keeps_group todo sound c

/-- The step of an attempt keeps its ways, and what is left to do at the place gets less. -/
theorem step_keeps (sound : Sound a.todo) (c : Cursor) : a.Keeps c (a.step c) := by
  have ⟨guarded, productive⟩ := sound
  unfold step
  split
  case h_1 todo => simp [Keeps, outcomes, todo, follow]
  case h_2 number k todo =>
    rw [todo] at guarded productive
    refine ⟨?_, ⟨guarded rfl, fun g hg => productive g (by simp [closeGroup] at hg; simp [hg])⟩, ?_⟩
    · simp [outcomes, todo, follow, Goal.ways, closeGroup, spot, Spot.closeGroup]
    · simp [todo, reach, closeGroup, Goal.renewed, Goal.weight, Goal.nullable]
  case h_3 part greedy p k todo =>
    rw [todo] at guarded
    exact guarded.elim
  case h_4 part p k todo =>
    have keeps := keeps_expr todo sound c
    rwa [step, todo] at keeps

/-- Whether an attempt has a way depends only on what it has to do. -/
theorem outcomes_eq_nil_of_key_eq {b : Attempt} (same : a.key = b.key) (c : Cursor) :
    a.outcomes c = [] ↔ b.outcomes c = [] := by
  have places := map_place_follow a.todo (a.spot c) (b.spot c) rfl
  have ways : follow a.todo = follow b.todo := by
    rw [← follow_renewed a.todo, ← follow_renewed b.todo]
    exact congrArg follow same
  rw [outcomes, outcomes, List.map_eq_nil_iff, List.map_eq_nil_iff]
  constructor <;> intro nothing
  · rw [nothing, ways] at places
    exact List.map_eq_nil_iff.mp places.symm
  · rw [ways] at places ⊢
    rw [nothing] at places
    exact List.map_eq_nil_iff.mp places

end Attempt

/-! ## 3. Attempts side by side -/

/-- The ways of attempts that go on after the next character. -/
def ahead (c : Cursor) (alive : List Attempt) : List Outcome :=
  match c.next? with
  | some (_, d) => alive.flatMap (Attempt.outcomes d)
  | none => []

@[simp] theorem ahead_nil (c : Cursor) : ahead c [] = [] := by
  unfold ahead
  split <;> rfl

theorem ahead_append (c : Cursor) (alive more : List Attempt) :
    ahead c (alive ++ more) = ahead c alive ++ ahead c more := by
  unfold ahead
  split <;> simp

/-- Where something comes before, it does not matter what comes after it. -/
theorem head?_append_append {α : Type} {l m : List α} (h : m ≠ [] → l ≠ []) (n : List α) :
    (l ++ (m ++ n)).head? = (l ++ n).head? := by
  cases l with
  | nil =>
    have none : m = [] := by_contra fun some => h some rfl
    rw [none, List.nil_append]
  | cons x l => rfl

/-- An attempt that was carried on is not forgotten: what is left of it stands first, has less to do
than the attempt had, and if the attempt has a way then there is one in what is left of it or in what
goes on after the next character. -/
def Remembered (c : Cursor) (attempts alive : List Attempt) (key : List Goal) : Prop :=
  ∃ parts rest, attempts = parts ++ rest ∧ (∀ b ∈ parts, reach b.todo < reach key) ∧
    ∀ a : Attempt, a.key = key → a.outcomes c ≠ [] →
      ahead c alive.reverse ++ parts.flatMap (Attempt.outcomes c) ≠ []

/-- What becomes of the first attempt: it is replaced by parts that have less to do, and a way of it is
among theirs or goes on after the next character. -/
structure Becomes (c : Cursor) (a : Attempt) (alive parts alive' : List Attempt) : Prop where
  less : ∀ b ∈ parts, reach b.todo < reach a.todo
  later : ahead c alive.reverse ≠ [] → ahead c alive'.reverse ≠ []
  ways : a.outcomes c ≠ [] → ahead c alive'.reverse ++ parts.flatMap (Attempt.outcomes c) ≠ []

/-- An attempt is dropped, as a way of it is no news. -/
theorem Becomes.of_dropped {c : Cursor} {a : Attempt} {alive : List Attempt}
    (later : a.outcomes c ≠ [] → ahead c alive.reverse ≠ []) : Becomes c a alive [] alive :=
  ⟨by simp, id, fun some => by simpa using later some⟩

namespace Remembered

variable {c : Cursor} {a : Attempt} {rest alive parts alive' : List Attempt} {key : List Goal}

theorem step (h : Remembered c (a :: rest) alive key) (becomes : Becomes c a alive parts alive') :
    Remembered c (parts ++ rest) alive' key := by
  obtain ⟨before, others, split, less, ways⟩ := h
  cases before with
  | nil =>
    refine ⟨[], parts ++ rest, rfl, by simp, fun b same some => ?_⟩
    have := ways b same some
    simp only [List.flatMap_nil, List.append_nil] at this ⊢
    exact becomes.later this
  | cons first before =>
    rw [List.cons_append, List.cons.injEq] at split
    obtain ⟨rfl, rfl⟩ := split
    refine ⟨parts ++ before, others, by simp, fun b hb => ?_, fun b same some => ?_⟩
    · rcases List.mem_append.mp hb with part | old
      · exact Nat.lt_trans (becomes.less b part) (less a (by simp))
      · exact less b (by simp [old])
    · have := ways b same some
      rw [List.flatMap_cons] at this
      rw [List.flatMap_append]
      intro nothing
      simp only [List.append_eq_nil_iff] at nothing
      obtain ⟨later, parts, before⟩ := nothing
      have own : a.outcomes c = [] := by_contra fun some => becomes.ways some (by simp [later, parts])
      have earlier : ahead c alive.reverse = [] := by_contra fun some => becomes.later some later
      exact this (by simp [earlier, own, before])

theorem new (becomes : Becomes c a alive parts alive') : Remembered c (parts ++ rest) alive' a.key := by
  refine ⟨parts, rest, rfl, fun b hb => ?_, fun b same some => ?_⟩
  · rw [Attempt.key, reach_renewed]
    exact becomes.less b hb
  · refine becomes.ways fun nothing => some ?_
    exact (Attempt.outcomes_eq_nil_of_key_eq same c).mpr nothing

/-- An attempt like one that was carried on is no part of it, and so has a way only if one goes on after
the next character. -/
theorem later (h : Remembered c (a :: rest) alive a.key) :
    a.outcomes c ≠ [] → ahead c alive.reverse ≠ [] := by
  intro some
  obtain ⟨before, others, split, less, ways⟩ := h
  cases before with
  | nil => simpa using ways a rfl some
  | cons first before =>
    rw [List.cons_append, List.cons.injEq] at split
    have := less a (by simp [split.1])
    rw [Attempt.key, reach_renewed] at this
    omega

/-- What is remembered when the first attempt is carried on. -/
theorem insert {seen : Std.HashSet (List Goal)} (becomes : Becomes c a alive parts alive')
    (h : ∀ key ∈ seen, Remembered c (a :: rest) alive key) :
    ∀ key ∈ seen.insert a.key, Remembered c (parts ++ rest) alive' key := by
  intro key hkey
  rcases Std.HashSet.mem_insert.mp hkey with own | old
  · rw [← eq_of_beq own]
    exact new becomes
  · exact (h key old).step becomes

end Remembered

/-- The outcome of an attempt that has nothing more to do at a place. -/
def Attempt.outcome (a : Attempt) (stop : Cursor) : Outcome := (a.start, a.spot stop)

/-- The first way of what a place is left with. -/
def Frontier.first? (front : Frontier) (c : Cursor) : Option Outcome :=
  (ahead c front.alive).head?.or (front.accepted.map (·.outcome c))

/-- Carrying attempts on at a place keeps their first way. -/
theorem explore_first? (c : Cursor) (attempts : List Attempt) (seen : Std.HashSet (List Goal))
    (alive : List Attempt) (sound : ∀ a ∈ attempts, Sound a.todo)
    (remembered : ∀ key ∈ seen, Remembered c attempts alive key) :
    (explore c attempts seen alive).first? c =
      (ahead c alive.reverse ++ attempts.flatMap (Attempt.outcomes c)).head? := by
  -- what the first attempt is to the others, whatever step it takes
  have dropped : ∀ {a : Attempt} {rest alive : List Attempt} {seen : Std.HashSet (List Goal)},
      (∀ key ∈ seen, Remembered c (a :: rest) alive key) →
      (a.outcomes c ≠ [] → ahead c alive.reverse ≠ []) →
      ∀ key ∈ seen, Remembered c rest alive key := fun remembered later key hkey =>
    (remembered key hkey).step (.of_dropped later)
  fun_induction explore c attempts seen alive with
  | case1 seen alive => simp [Frontier.first?]
  | case2 seen alive a rest fails ih =>
    have keeps := Attempt.step_keeps (sound a (by simp)) c
    rw [fails] at keeps
    have later : a.outcomes c ≠ [] → ahead c alive.reverse ≠ [] := absurd keeps
    rw [ih (fun b hb => sound b (by simp [hb])) (dropped remembered later), List.flatMap_cons,
      head?_append_append later]
  | case3 seen alive a rest ended =>
    have keeps := Attempt.step_keeps (sound a (by simp)) c
    rw [ended] at keeps
    rw [List.flatMap_cons, keeps]
    simp [Frontier.first?, List.head?_append, Attempt.outcome]
  | case4 seen alive a rest b goesOn ih =>
    have keeps := Attempt.step_keeps (sound a (by simp)) c
    rw [goesOn] at keeps
    obtain ⟨same, closer⟩ := keeps
    have becomes : Becomes c a alive [b] alive :=
      ⟨by simpa using closer.less, id, fun some => by simp [← same, some]⟩
    rw [ih ?_ fun key hkey => (remembered key hkey).step becomes, List.flatMap_cons,
      List.flatMap_cons, same]
    simpa [closer.sound] using fun b hb => sound b (by simp [hb])
  | case5 seen alive a rest ways chooses known ih =>
    have later := (remembered a.key (Std.HashSet.mem_iff_contains.mpr known)).later
    rw [ih (fun b hb => sound b (by simp [hb])) (dropped remembered later), List.flatMap_cons,
      head?_append_append later]
  | case6 seen alive a rest ways chooses new ih =>
    have keeps := Attempt.step_keeps (sound a (by simp)) c
    rw [chooses] at keeps
    obtain ⟨same, closer⟩ := keeps
    have becomes : Becomes c a alive ways alive :=
      ⟨fun b hb => (closer b hb).less, id, fun some => by simp [← same, some]⟩
    rw [ih ?_ (Remembered.insert becomes remembered), List.flatMap_append, List.flatMap_cons, same]
    intro b hb
    rcases List.mem_append.mp hb with way | old
    · exact (closer b way).sound
    · exact sound b (by simp [old])
  | case7 seen alive a rest b consumes known ih =>
    have later := (remembered a.key (Std.HashSet.mem_iff_contains.mpr known)).later
    rw [ih (fun b hb => sound b (by simp [hb])) (dropped remembered later), List.flatMap_cons,
      head?_append_append later]
  | case8 seen alive a rest b consumes new ih =>
    have keeps := Attempt.step_keeps (sound a (by simp)) c
    rw [consumes] at keeps
    obtain ⟨x, d, goesOn, same, -⟩ := keeps
    have further : ahead c (b :: alive).reverse = ahead c alive.reverse ++ a.outcomes c := by
      rw [List.reverse_cons, ahead_append, same]
      simp [ahead, goesOn]
    have becomes : Becomes c a alive [] (b :: alive) := by
      refine ⟨by simp, fun some => ?_, fun some => ?_⟩ <;> rw [further] <;> simp [some]
    rw [ih (fun b hb => sound b (by simp [hb])) (Remembered.insert becomes remembered), further,
      List.flatMap_cons, List.append_assoc]

/-! ## 4. Searches -/

theorem sound_steady : Steady fun _ a => Sound a.todo where
  next {c a b} sound goesOn := by
    have keeps := Attempt.step_keeps sound c
    rw [goesOn] at keeps
    exact keeps.2.sound
  choice {c a ways} sound chooses b hb := by
    have keeps := Attempt.step_keeps sound c
    rw [chooses] at keeps
    exact (keeps.2 b hb).sound
  consume {c a b x d} sound consumes _ := by
    have keeps := Attempt.step_keeps sound c
    rw [consumes] at keeps
    obtain ⟨-, -, -, -, sound⟩ := keeps
    exact sound

/-- What a search can find: from each place on, the ways of the pattern. -/
def Expr.outcomes (p : Expr) (c : Cursor) : List Outcome :=
  (p.ways ⟨c, [], []⟩).map (c, ·) ++
    match _h : c.next? with
    | some (_, d) => p.outcomes d
    | none => []
termination_by c.left
decreasing_by exact Cursor.left_lt_of_next? ‹_›

/-- What a search can find after a place. -/
def Expr.later (p : Expr) (c : Cursor) : List Outcome :=
  match c.next? with
  | some (_, d) => p.outcomes d
  | none => []

theorem Expr.outcomes_eq (p : Expr) (c : Cursor) :
    p.outcomes c = (p.ways ⟨c, [], []⟩).map (c, ·) ++ p.later c := by
  rw [outcomes, later]
  cases c.next? <;> rfl

/-- What a search has found. -/
def outcome? (best : Option (Attempt × Cursor)) : Option Outcome :=
  best.map fun (a, stop) => a.outcome stop

section Searches

variable {p : Expr} (productive : p.productive = true)

include productive

theorem sound_fresh (c : Cursor) : Sound (Attempt.fresh p c).todo :=
  sound_expr.mpr ⟨productive, fun _ => trivial, by simp⟩

/-- What one place makes of the attempts and of the best one. -/
theorem first?_of_explore {c : Cursor} {attempts : List Attempt} (best : Option (Attempt × Cursor))
    (sound : ∀ a ∈ attempts, Sound a.todo) {front : Frontier}
    (explored : front =
      explore c (if best.isSome then attempts else attempts ++ [.fresh p c]) ∅ []) :
    (∀ b ∈ front.alive, Sound b.todo) ∧
      (attempts.flatMap (Attempt.outcomes c)).head?.or ((outcome? best).or (p.outcomes c).head?) =
        (ahead c front.alive).head?.or ((outcome? (front.best c best)).or (p.later c).head?) := by
  have sound' : ∀ a ∈ if best.isSome then attempts else attempts ++ [.fresh p c], Sound a.todo := by
    intro a ha
    split at ha
    · exact sound a ha
    · rcases List.mem_append.mp ha with old | new
      · exact sound a old
      · obtain rfl := List.mem_singleton.mp new
        exact sound_fresh productive c
  constructor
  · intro b hb
    rw [explored] at hb
    obtain ⟨a, sound, consumes⟩ := (explore_induction sound_steady c _ ∅ [] sound' (by simp)).2 b hb
    have keeps := Attempt.step_keeps sound c
    rw [consumes] at keeps
    obtain ⟨-, -, -, -, sound⟩ := keeps
    exact sound
  · have first := explore_first? c _ ∅ [] sound' (by simp)
    rw [← explored, Frontier.first?, List.reverse_nil, ahead_nil, List.nil_append] at first
    have best_eq : outcome? (front.best c best) = (front.accepted.map (·.outcome c)).or (outcome? best) := by
      unfold Frontier.best
      cases front.accepted <;> rfl
    have fresh : (Attempt.fresh p c).outcomes c = (p.ways ⟨c, [], []⟩).map (c, ·) := by
      simp [Attempt.outcomes, Attempt.fresh, Attempt.spot, follow, Goal.ways]
    rw [best_eq, Option.or_assoc]
    refine Eq.trans ?_ Option.or_assoc
    rw [first]
    cases best with
    | some b => rfl
    | none =>
      simp only [outcome?, Option.map_none, Option.none_or, Option.isSome_none, Bool.false_eq_true,
        if_false, List.flatMap_append, List.flatMap_cons, List.flatMap_nil, List.append_nil, fresh,
        Expr.outcomes_eq, List.head?_append, Option.or_assoc]

/-- A search finds the first way of the attempts that were begun, or else the best one so far; until
there is a best one, it finds what can be found from the place on. -/
theorem outcome?_searchFrom (c : Cursor) (attempts : List Attempt) (best : Option (Attempt × Cursor))
    (sound : ∀ a ∈ attempts, Sound a.todo) :
    outcome? (p.searchFrom c attempts best) =
      (attempts.flatMap (Attempt.outcomes c)).head?.or ((outcome? best).or (p.outcomes c).head?) := by
  fun_induction Expr.searchFrom p c attempts best with
  | case1 c attempts best attempts' front best' ends =>
    obtain ⟨-, here⟩ := first?_of_explore productive best sound (rfl : front = _)
    rw [here, ahead, Expr.later, ends]
    exact (Option.or_none).symm
  | case2 c attempts best attempts' front best' x next goesOn ended =>
    obtain ⟨-, here⟩ := first?_of_explore productive best sound (rfl : front = _)
    rw [Bool.and_eq_true, List.isEmpty_iff] at ended
    obtain ⟨b, isSome⟩ := Option.isSome_iff_exists.mp ended.1
    have best_eq : front.best c best = some b := isSome
    rw [here, ended.2, ahead_nil, best_eq, isSome]
    rfl
  | case3 c attempts best attempts' front best' x next goesOn searches ih =>
    obtain ⟨sound', here⟩ := first?_of_explore productive best sound (rfl : front = _)
    rw [ih sound', here, ahead, Expr.later, goesOn]
    rfl

/-- A search finds the first way from the first place where there is one. -/
theorem outcome?_searchFrom_fresh (c : Cursor) :
    outcome? (p.searchFrom c [] none) = (p.outcomes c).head? :=
  outcome?_searchFrom productive c [] none (by simp)

end Searches

end ModelLoading.Pattern
