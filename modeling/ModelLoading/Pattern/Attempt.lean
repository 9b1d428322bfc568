import ModelLoading.Pattern.Cursor
import Std.Data.HashSet

/-!
# Attempts at a match

An `Attempt` is a way to match a pattern that was begun: where it began and the goals that are still
to be met. `Attempt.step` meets the first of them without consuming a character, and `explore` does
so for many attempts side by side, best first, until each waits for a character.

Two attempts with the same goals at the same place would go on alike, so that only the better one is
kept. This bounds the work at a place by the size of the pattern, whatever the text. A loop is not
gone round twice at the same place: the goals after an empty round are those before it.
-/

namespace ModelLoading.Pattern

/-! ## Goals -/

/-- Something that an attempt has still to do. Parts of a pattern are numbered in the order in which
they are written, a whole before what it is built of. -/
inductive Goal where
  /-- Match the part of the pattern that has a number. -/
  | expr (part : Nat) (p : Expr)
  /-- End a group. -/
  | close (group : Nat)
  /-- Go round a loop again, but not before a character is consumed. -/
  | spent (part : Nat) (greedy : Bool) (p : Expr)

namespace Goal

/-- A goal after a character was consumed. -/
def renewed : Goal → Goal
  | spent part greedy p => expr part (.repeated 0 none greedy p)
  | g => g

/-- Whether two patterns are the same; one that is shared is seen to be so at once, also under a
count of rounds. -/
def samePattern (p q : Expr) : Decidable (p = q) :=
  withPtrEqDecEq p q fun _ =>
    match p, q with
    | .repeated min max greedy p, .repeated min' max' greedy' p' =>
      if h : min = min' ∧ max = max' ∧ greedy = greedy' then
        match withPtrEqDecEq p p' fun _ => inferInstance with
        | isTrue hp => isTrue (by rw [h.1, h.2.1, h.2.2, hp])
        | isFalse hp => isFalse fun e => hp (Expr.repeated.inj e).2.2.2
      else isFalse fun e =>
        h ⟨(Expr.repeated.inj e).1, (Expr.repeated.inj e).2.1, (Expr.repeated.inj e).2.2.1⟩
    | _, _ => inferInstance

instance : DecidableEq Goal
  | expr m p, expr n q =>
    if hn : m = n then
      match samePattern p q with
      | isTrue h => isTrue (by rw [hn, h])
      | isFalse h => isFalse fun e => h (Goal.expr.inj e).2
    else isFalse fun e => hn (Goal.expr.inj e).1
  | close m, close n =>
    if h : m = n then isTrue (h ▸ rfl) else isFalse fun e => h (Goal.close.inj e)
  | spent m g p, spent n g' q =>
    if hn : m = n ∧ g = g' then
      match samePattern p q with
      | isTrue h => isTrue (by rw [hn.1, hn.2, h])
      | isFalse h => isFalse fun e => h (Goal.spent.inj e).2.2
    else isFalse fun e => hn ⟨(Goal.spent.inj e).1, (Goal.spent.inj e).2.1⟩
  | expr _ _, close _ => isFalse nofun
  | expr _ _, spent _ _ _ => isFalse nofun
  | close _, expr _ _ => isFalse nofun
  | close _, spent _ _ _ => isFalse nofun
  | spent _ _ _, expr _ _ => isFalse nofun
  | spent _ _ _, close _ => isFalse nofun

/-- Goals that differ differ in their numbers or in a count of rounds. -/
instance : Hashable Goal where
  hash
    | expr part (.repeated min max _ _) => mixHash (hash part) (mixHash (hash min) (hash max))
    | expr part _ => hash part
    | close group => mixHash 1 (hash group)
    | spent part _ _ => mixHash 2 (hash part)

end Goal

/-! ## The work that goals are -/

/-- A bound on the steps that a pattern takes at one place. -/
def Expr.weight : Expr → Nat
  | empty | one _ | assert _ => 1
  | seq p q => p.weight + q.weight + 1
  | alt p q => p.weight + q.weight + 2
  | repeated min max _ p => (p.weight + 3) * (min + max.getD 1) + 1
  | group _ p => p.weight + 2

/-- A bound on the steps that a goal takes at one place. -/
def Goal.weight : Goal → Nat
  | expr _ p => p.weight
  | close _ | spent _ _ _ => 1

/-- A bound on the steps that several goals take at one place. -/
def totalWeight : List Goal → Nat
  | [] => 0
  | g :: rest => g.weight + totalWeight rest

/-- What a choice costs that is `n` steps away from its last decision. -/
def doubled : Nat → Nat
  | 0 => 1
  | n + 1 => doubled n + doubled n

theorem doubled_pos (n : Nat) : 0 < doubled n := by
  induction n with
  | zero => decide
  | succ n ih => simp only [doubled]; omega

theorem doubled_le_doubled {m n : Nat} (h : m ≤ n) : doubled m ≤ doubled n := by
  induction h with
  | refl => exact Nat.le_refl _
  | step _ ih => simp only [doubled]; omega

theorem doubled_lt_doubled {m n : Nat} (h : m < n) : doubled m < doubled n := by
  have h1 := doubled_le_doubled (Nat.succ_le_of_lt h)
  have h2 := doubled_pos m
  simp only [doubled] at h1
  omega

theorem doubled_add_doubled_lt {k m n : Nat} (hk : k + 2 ≤ n) (hm : m + 2 ≤ n) :
    doubled k + doubled m < doubled n := by
  have h1 := doubled_lt_doubled (show k < k + 1 by omega)
  have h2 := doubled_le_doubled hk
  have h3 := doubled_lt_doubled (show m < m + 1 by omega)
  have h4 := doubled_le_doubled hm
  simp only [doubled] at h1 h2 h3 h4
  omega

theorem Expr.weight_pos (p : Expr) : 0 < p.weight := by
  cases p <;> simp only [Expr.weight] <;> omega

theorem Expr.weight_rounds (w min : Nat) (max : Option Nat) :
    w + ((w + 3) * (min + (max.map (· - 1)).getD 1) + 1) < (w + 3) * (min + 1 + max.getD 1) + 1 := by
  have hmax : (max.map (· - 1)).getD 1 ≤ max.getD 1 := by cases max <;> simp
  have hrounds := Nat.mul_le_mul_left (w + 3) (Nat.add_le_add_left hmax min)
  have hnext : (w + 3) * (min + 1 + max.getD 1) = (w + 3) * (min + max.getD 1) + (w + 3) := by
    rw [Nat.add_right_comm, Nat.mul_succ]
  omega

/-! ## Attempts -/

/-- A group whose end has come. -/
structure Group where
  start : Cursor
  stop : Cursor

/-- The text of a group. -/
def Group.text (g : Group) : List Char := g.start.textTo g.stop

/-- A value under a number, in the place of one that was there. -/
def put {α : Type} (number : Nat) (value : α) (values : List (Nat × α)) : List (Nat × α) :=
  (number, value) :: values.filter (·.1 ≠ number)

/-- A way to match a pattern that was begun. -/
structure Attempt where
  /-- Where it began. -/
  start : Cursor
  /-- What it has still to do. -/
  todo : List Goal
  /-- Where groups began, by number. -/
  opened : List (Nat × Cursor) := []
  /-- The groups by number. -/
  groups : List (Nat × Group) := []

/-- What an attempt comes to next at a place. -/
inductive Step where
  /-- It cannot match. -/
  | fail
  /-- It has nothing more to do. -/
  | done
  /-- It goes on at the place. -/
  | next (a : Attempt)
  /-- It goes on at the place in one of several ways, better ones first. -/
  | choice (ways : List Attempt)
  /-- It goes on after the next character. -/
  | consume (a : Attempt)

/-- The patterns that a pattern is a choice between, with their numbers. -/
def Expr.alternatives (part : Nat) : Expr → List (Nat × Expr)
  | alt p q => (part + 1, p) :: q.alternatives (part + 1 + p.size)
  | p => [(part, p)]

namespace Attempt

/-- A new attempt. -/
def fresh (p : Expr) (c : Cursor) : Attempt := { start := c, todo := [.expr 0 p] }

/-- The attempt with something else to do. -/
def turn (a : Attempt) (todo : List Goal) : Attempt := { a with todo }

/-- Begins a group. -/
def openGroup (a : Attempt) (number : Nat) (c : Cursor) (todo : List Goal) : Attempt :=
  { a with todo, opened := put number c a.opened }

/-- Ends a group. -/
def closeGroup (a : Attempt) (number : Nat) (c : Cursor) (todo : List Goal) : Attempt :=
  let start := (a.opened.lookup number).getD c
  { a with todo, groups := put number ⟨start, c⟩ a.groups }

/-- Another round or the rest: a greedy repetition prefers the round. -/
def choose (a : Attempt) (greedy : Bool) (again rest : List Goal) : Step :=
  .choice (if greedy then [a.turn again, a.turn rest] else [a.turn rest, a.turn again])

/-- What an attempt comes to next at a place. -/
def step (a : Attempt) (c : Cursor) : Step :=
  match a.todo with
  | [] => .done
  | .close number :: k => .next (a.closeGroup number c k)
  | .spent _ _ _ :: _ => .fail
  | .expr part p :: k =>
    match p with
    | .empty => .next (a.turn k)
    | .one cls =>
      if c.rest.head?.any cls.mem then .consume (a.turn (k.map Goal.renewed)) else .fail
    | .assert condition => if c.satisfies condition then .next (a.turn k) else .fail
    | .seq p q => .next (a.turn (.expr (part + 1) p :: .expr (part + 1 + p.size) q :: k))
    | .alt p q =>
      let ways := (part + 1, p) :: q.alternatives (part + 1 + p.size)
      .choice (ways.map fun (part, p) => a.turn (.expr part p :: k))
    | .repeated (min + 1) max greedy p =>
      let more := Expr.repeated min (max.map (· - 1)) greedy p
      .next (a.turn (.expr (part + 1) p :: .expr part more :: k))
    | .repeated 0 none greedy p =>
      a.choose greedy (.expr (part + 1) p :: .spent part greedy p :: k) k
    | .repeated 0 (some 0) _ _ => .next (a.turn k)
    | .repeated 0 (some (max + 1)) greedy p =>
      let more := Expr.repeated 0 (some max) greedy p
      a.choose greedy (.expr (part + 1) p :: .expr part more :: k) k
    | .group number p => .next (a.openGroup number c (.expr (part + 1) p :: .close number :: k))

/-- What the attempt has to do, wherever a character was consumed last. -/
def key (a : Attempt) : List Goal := a.todo.map Goal.renewed

/-- A bound on the steps that an attempt takes at one place. -/
def work (a : Attempt) : Nat := doubled (totalWeight a.todo)

end Attempt

/-- A bound on the steps that attempts take at one place. -/
def totalWork : List Attempt → Nat
  | [] => 0
  | a :: rest => a.work + totalWork rest

theorem totalWork_append (as bs : List Attempt) :
    totalWork (as ++ bs) = totalWork as + totalWork bs := by
  induction as with
  | nil => simp [totalWork]
  | cons a as ih => simp only [List.cons_append, totalWork, ih]; omega

namespace Attempt

theorem work_pos (a : Attempt) : 0 < a.work := doubled_pos _

theorem work_next {a b : Attempt} {c : Cursor} (h : a.step c = .next b) : b.work < a.work := by
  apply doubled_lt_doubled
  unfold step at h
  split at h
  case h_2 number k htodo =>
    simp only [Step.next.injEq] at h
    simp [← h, htodo, closeGroup, totalWeight, Goal.weight]
  case h_4 p k htodo =>
    split at h
    case h_1 | h_4 | h_8 | h_10 =>
      simp only [Step.next.injEq] at h
      simp only [← h, htodo, turn, openGroup, totalWeight, Goal.weight, Expr.weight]
      omega
    case h_6 min max greedy p =>
      simp only [Step.next.injEq] at h
      simp only [← h, htodo, turn, totalWeight, Goal.weight, Expr.weight, Nat.succ_eq_add_one]
      have := Expr.weight_rounds p.weight min max
      omega
    case h_2 => split at h <;> simp at h
    case h_3 =>
      split at h <;> simp only [Step.next.injEq, reduceCtorEq] at h
      simp [← h, htodo, turn, totalWeight, Goal.weight, Expr.weight]
    all_goals simp [choose] at h
  all_goals simp at h

theorem totalWork_alternatives (a : Attempt) (k : List Goal) (part : Nat) (p : Expr) :
    totalWork ((p.alternatives part).map fun (part, q) => a.turn (.expr part q :: k)) ≤
      doubled (p.weight + totalWeight k) := by
  induction p generalizing part with
  | alt p q _ ih =>
    have := ih (part + 1 + p.size)
    have := @doubled_add_doubled_lt (p.weight + totalWeight k) (q.weight + totalWeight k)
      (p.weight + q.weight + 2 + totalWeight k) (by omega) (by omega)
    simp only [Expr.alternatives, List.map_cons, totalWork, work, turn, totalWeight, Goal.weight,
      Expr.weight] at *
    omega
  | _ => simp [Expr.alternatives, totalWork, work, turn, totalWeight, Goal.weight]

theorem totalWork_choose {a : Attempt} {ways : List Attempt} {greedy : Bool} {again rest : List Goal}
    {n : Nat} (h : a.choose greedy again rest = .choice ways) (hagain : totalWeight again + 2 ≤ n)
    (hrest : totalWeight rest + 2 ≤ n) : totalWork ways < doubled n := by
  have := doubled_add_doubled_lt hagain hrest
  simp only [choose, Step.choice.injEq] at h
  rw [← h]
  split <;> simp only [totalWork, work, turn] <;> omega

theorem totalWork_choice {a : Attempt} {ways : List Attempt} {c : Cursor}
    (h : a.step c = .choice ways) : totalWork ways < a.work := by
  unfold step at h
  split at h
  case h_4 part p k htodo =>
    split at h
    case h_5 p q =>
      simp only [Step.choice.injEq] at h
      have := totalWork_alternatives a k (part + 1 + p.size) q
      have := @doubled_add_doubled_lt (p.weight + totalWeight k) (q.weight + totalWeight k)
        (p.weight + q.weight + 2 + totalWeight k) (by omega) (by omega)
      simp only [← h, List.map_cons, totalWork, work, turn, htodo, totalWeight, Goal.weight,
        Expr.weight] at this ⊢
      simp only [turn] at *
      omega
    case h_7 greedy p =>
      apply totalWork_choose h <;>
        simp only [htodo, totalWeight, Goal.weight, Expr.weight, Option.getD_none] <;> omega
    case h_9 max greedy p =>
      apply totalWork_choose h <;>
        simp only [htodo, totalWeight, Goal.weight, Expr.weight, Option.getD_some] <;> grind
    case h_2 | h_3 => split at h <;> simp at h
    all_goals simp at h
  all_goals simp at h

end Attempt

/-! ## Many attempts -/

/-- What attempts have come to at a place. -/
structure Frontier where
  /-- The best attempt that has nothing more to do. -/
  accepted : Option Attempt
  /-- The attempts that are better and go on after the next character, best first. -/
  alive : List Attempt

/-- Carries attempts on at a place, best first, until one has nothing more to do or all of them have
consumed a character. `seen` holds what attempts before had to do at this place, and `alive` those
that go on, in reverse. -/
def explore (c : Cursor) (attempts : List Attempt) (seen : Std.HashSet (List Goal))
    (alive : List Attempt) : Frontier :=
  match attempts with
  | [] => ⟨none, alive.reverse⟩
  | a :: rest =>
    match _h : a.step c with
    | .fail => explore c rest seen alive
    | .done => ⟨some a, alive.reverse⟩
    | .next b => explore c (b :: rest) seen alive
    | .choice ways =>
      if seen.contains a.key then explore c rest seen alive
      else explore c (ways ++ rest) (seen.insert a.key) alive
    | .consume b =>
      if seen.contains a.key then explore c rest seen alive
      else explore c rest (seen.insert a.key) (b :: alive)
termination_by totalWork attempts
decreasing_by
  all_goals simp only [totalWork, totalWork_append]
  case _ => have := a.work_pos; omega
  case _ => have := Attempt.work_next ‹_›; omega
  case _ => have := a.work_pos; omega
  case _ => have := Attempt.totalWork_choice ‹_›; omega
  case _ => have := a.work_pos; omega
  case _ => have := a.work_pos; omega

end ModelLoading.Pattern
