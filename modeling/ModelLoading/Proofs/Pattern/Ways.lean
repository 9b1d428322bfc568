import Mathlib.Data.List.Basic
import ModelLoading.Proofs.Pattern.Search

/-!
# The ways in which a pattern matches

`Expr.ways` lists the ways in which a pattern matches from a place on, better ones first. This is what
trying one alternative after the other would find, and it says what a pattern means: a search finds the
first way from the first place where there is one, as is shown in `Proofs/Pattern/Backtracking`.

A way goes on through the text (`passes_of_mem_ways`). Where it leads does not depend on the groups
that were there before (`map_place_ways`), and without groups a pattern changes none
(`marks_of_mem_ways`).
-/

namespace ModelLoading.Pattern

/-! ## 1. Spots -/

/-- A place in a text, with the groups that were met on the way to it. -/
structure Spot where
  place : Cursor
  /-- Where groups began, by number. -/
  opened : List (Nat × Cursor) := []
  /-- The groups by number. -/
  groups : List (Nat × Group) := []

namespace Spot

/-- Begins a group. -/
def openGroup (s : Spot) (number : Nat) : Spot :=
  { s with opened := put number s.place s.opened }

/-- Ends a group. -/
def closeGroup (s : Spot) (number : Nat) : Spot :=
  { s with groups := put number ⟨(s.opened.lookup number).getD s.place, s.place⟩ s.groups }

@[simp] theorem openGroup_place (s : Spot) (number : Nat) : (s.openGroup number).place = s.place := rfl

@[simp] theorem closeGroup_place (s : Spot) (number : Nat) :
    (s.closeGroup number).place = s.place := rfl

end Spot

/-! ## 2. Ways -/

/-- The ways of another round and the way of the rest: a greedy repetition prefers the round. -/
def prefer (greedy : Bool) (again : List Spot) (rest : Spot) : List Spot :=
  if greedy then again ++ [rest] else rest :: again

/-- The ways of any number of rounds. A round that consumes nothing leads nowhere. -/
def star (round : Spot → List Spot) (greedy : Bool) (s : Spot) : List Spot :=
  prefer greedy
    ((round s).flatMap fun t =>
      if _h : t.place.left < s.place.left then star round greedy t else []) s
termination_by s.place.left

/-- The ways of at least `min` rounds, and at most `max` if there is a limit. -/
def rounds (round : Spot → List Spot) (greedy : Bool) : (min : Nat) → (max : Option Nat) → Spot → List Spot
  | 0, none, s => star round greedy s
  | 0, some 0, s => [s]
  | 0, some (max + 1), s =>
    prefer greedy ((round s).flatMap (rounds round greedy 0 (some max))) s
  | min + 1, max, s => (round s).flatMap (rounds round greedy min (max.map (· - 1)))
termination_by min max => (min, max.getD 0)

/-- The ways in which a pattern matches from a spot on, better ones first. -/
def Expr.ways : Expr → Spot → List Spot
  | empty, s => [s]
  | one cls, s =>
    match s.place.next? with
    | some (x, next) => if cls.mem x then [{ s with place := next }] else []
    | none => []
  | assert condition, s => if s.place.satisfies condition then [s] else []
  | seq p q, s => (p.ways s).flatMap q.ways
  | alt p q, s => p.ways s ++ q.ways s
  | repeated min max greedy p, s => rounds p.ways greedy min max s
  | group number p, s => (p.ways (s.openGroup number)).map (·.closeGroup number)

section Rounds

variable {round : Spot → List Spot} {greedy : Bool} {s t : Spot}

theorem mem_prefer {again : List Spot} {rest : Spot} :
    t ∈ prefer greedy again rest ↔ t ∈ again ∨ t = rest := by
  cases greedy <;> simp [prefer, or_comm]

/-- What every round keeps is kept by any number of them. -/
theorem star_induction {P : Spot → Prop} (step : ∀ u v, P u → v ∈ round u → P v) (start : P s)
    (h : t ∈ star round greedy s) : P t := by
  induction left : s.place.left using Nat.strongRecOn generalizing s with
  | ind n ih =>
    rw [star, mem_prefer] at h
    rcases h with again | rfl
    · obtain ⟨u, first, rest⟩ := List.mem_flatMap.mp again
      split at rest
      · rename_i less
        exact ih _ (left ▸ less) (step s u start first) rest rfl
      · simp at rest
    · exact start

theorem rounds_induction {P : Spot → Prop} (step : ∀ u v, P u → v ∈ round u → P v) {min : Nat}
    {max : Option Nat} (start : P s) (h : t ∈ rounds round greedy min max s) : P t := by
  fun_induction rounds round greedy min max s with
  | case1 s => exact star_induction step start h
  | case2 s =>
    obtain rfl := List.mem_singleton.mp h
    exact start
  | case3 max s ih =>
    rw [mem_prefer] at h
    rcases h with again | rfl
    · obtain ⟨u, first, rest⟩ := List.mem_flatMap.mp again
      exact ih u (step s u start first) rest
    · exact start
  | case4 min max s ih =>
    obtain ⟨u, first, rest⟩ := List.mem_flatMap.mp h
    exact ih u (step s u start first) rest

end Rounds

/-! ## 3. The text that a way passes -/

/-- From one place to a later one a text is passed. -/
structure Cursor.Passes (c : Cursor) (passed : List Char) (d : Cursor) : Prop where
  rest : c.rest = passed ++ d.rest
  before : d.before = passed.getLast?.or c.before

namespace Cursor.Passes

variable {c d e : Cursor} {passed more : List Char}

theorem refl (c : Cursor) : c.Passes [] c := ⟨rfl, rfl⟩

theorem trans (h : c.Passes passed d) (h' : d.Passes more e) : c.Passes (passed ++ more) e := by
  refine ⟨by rw [h.rest, h'.rest, List.append_assoc], ?_⟩
  rw [h'.before, h.before, List.getLast?_append, Option.or_assoc]

theorem of_next? {x : Char} (h : c.next? = some (x, d)) : c.Passes [x] d := by
  refine ⟨rest_of_next? h, ?_⟩
  unfold next? at h
  split at h
  · cases h
  · cases h
    rfl

theorem left_eq (h : c.Passes passed d) : c.left = passed.length + d.left := by
  rw [c.left_eq, d.left_eq, h.rest, List.length_append]

theorem textTo_eq (h : c.Passes passed d) : c.textTo d = passed := by
  have length : c.left - d.left = passed.length := by
    have := h.left_eq
    omega
  rw [textTo, length, h.rest, List.take_left]

end Cursor.Passes

/-- Every character that a pattern can match has a property. -/
def Expr.Only (K : Char → Prop) : Expr → Prop
  | empty | assert _ => True
  | one cls => ∀ c, cls.mem c = true → K c
  | seq p q | alt p q => p.Only K ∧ q.Only K
  | repeated _ _ _ p | group _ p => p.Only K

/-- A pattern that cannot match a character. -/
def Expr.lacks (d : Char) : Expr → Bool
  | empty | assert _ => true
  | one cls => !cls.mem d
  | seq p q | alt p q => p.lacks d && q.lacks d
  | repeated _ _ _ p | group _ p => p.lacks d

theorem Expr.only_ne_of_lacks {p : Expr} {d : Char} (h : p.lacks d = true) : p.Only (· ≠ d) := by
  induction p with
  | empty | assert _ => trivial
  | one cls =>
    intro c member same
    rw [lacks, ← same, member] at h
    cases h
  | seq p q ihp ihq | alt p q ihp ihq =>
    obtain ⟨hp, hq⟩ := Bool.and_eq_true_iff.mp h
    exact ⟨ihp hp, ihq hq⟩
  | repeated _ _ _ p ih | group _ p ih => exact ih h

/-- What was passed since a spot: of a pattern that cannot match nothing it is not empty, and all of it
has a property that every character has that the pattern can match. -/
def Expr.Passed (p : Expr) (s t : Spot) (passed : List Char) : Prop :=
  s.place.Passes passed t.place ∧ ∀ K, p.Only K → ∀ c ∈ passed, K c

namespace Expr.Passed

variable {p q : Expr} {s t u : Spot} {passed more : List Char}

theorem refl (p : Expr) (s : Spot) : p.Passed s s [] := ⟨.refl _, by simp⟩

theorem mono (h : p.Passed s t passed) (only : ∀ K, q.Only K → p.Only K) : q.Passed s t passed :=
  ⟨h.1, fun K chars => h.2 K (only K chars)⟩

theorem trans (h : p.Passed s u passed) (h' : p.Passed u t more) : p.Passed s t (passed ++ more) := by
  refine ⟨h.1.trans h'.1, fun K only c hc => ?_⟩
  exact (List.mem_append.mp hc).elim (h.2 K only c) (h'.2 K only c)

/-- Rounds pass what each of them passes. -/
theorem of_mem_rounds (round : ∀ u v, v ∈ p.ways u → ∃ passed, p.Passed u v passed) {greedy : Bool}
    {min : Nat} {max : Option Nat} (h : t ∈ rounds p.ways greedy min max s) :
    ∃ passed, p.Passed s t passed := by
  refine rounds_induction (P := fun v => ∃ passed, p.Passed s v passed) ?_ ⟨[], refl p s⟩ h
  rintro v w ⟨a, before⟩ next
  obtain ⟨b, after⟩ := round v w next
  exact ⟨a ++ b, before.trans after⟩

end Expr.Passed

theorem passes_of_mem_ways {p : Expr} {s t : Spot} (h : t ∈ p.ways s) :
    ∃ passed, p.Passed s t passed ∧ (p.nullable = false → passed ≠ []) := by
  induction p generalizing s t with
  | empty =>
    obtain rfl := List.mem_singleton.mp h
    exact ⟨[], .refl _ _, by simp [Expr.nullable]⟩
  | one cls =>
    rw [Expr.ways] at h
    split at h
    · rename_i x next goesOn
      split at h
      · rename_i member
        obtain rfl := List.mem_singleton.mp h
        refine ⟨[x], ⟨.of_next? goesOn, fun K only c hc => ?_⟩, by simp⟩
        obtain rfl := List.mem_singleton.mp hc
        exact only c member
      · simp at h
    · simp at h
  | assert condition =>
    rw [Expr.ways] at h
    split at h
    · obtain rfl := List.mem_singleton.mp h
      exact ⟨[], .refl _ _, by simp [Expr.nullable]⟩
    · simp at h
  | seq p q ihp ihq =>
    obtain ⟨u, first, second⟩ := List.mem_flatMap.mp h
    obtain ⟨a, passedA, someA⟩ := ihp first
    obtain ⟨b, passedB, someB⟩ := ihq second
    have before : (p.seq q).Passed s u a := passedA.mono fun _ only => only.1
    have after : (p.seq q).Passed u t b := passedB.mono fun _ only => only.2
    refine ⟨a ++ b, before.trans after, fun nonnull => ?_⟩
    rw [Expr.nullable, Bool.and_eq_false_iff] at nonnull
    rcases nonnull with left | right
    · simp [someA left]
    · simp [someB right]
  | alt p q ihp ihq =>
    rcases List.mem_append.mp h with left | right
    · obtain ⟨a, passed, nonempty⟩ := ihp left
      refine ⟨a, passed.mono fun _ only => only.1, fun nonnull => nonempty ?_⟩
      exact (Bool.or_eq_false_iff.mp nonnull).1
    · obtain ⟨a, passed, nonempty⟩ := ihq right
      refine ⟨a, passed.mono fun _ only => only.2, fun nonnull => nonempty ?_⟩
      exact (Bool.or_eq_false_iff.mp nonnull).2
  | repeated min max greedy p ih =>
    have round : ∀ u v, v ∈ p.ways u → ∃ passed, p.Passed u v passed := fun u v way =>
      have ⟨a, passed, _⟩ := ih way
      ⟨a, passed⟩
    rw [Expr.ways] at h
    cases min with
    | zero =>
      obtain ⟨a, passed⟩ := Expr.Passed.of_mem_rounds round h
      exact ⟨a, passed, by simp [Expr.nullable]⟩
    | succ min =>
      -- the first round is due, and passes something if the pattern has to
      rw [rounds] at h
      obtain ⟨u, first, later⟩ := List.mem_flatMap.mp h
      obtain ⟨a, passed, nonempty⟩ := ih first
      obtain ⟨b, passed'⟩ := Expr.Passed.of_mem_rounds round later
      refine ⟨a ++ b, passed.trans passed', fun nonnull => ?_⟩
      rw [Expr.nullable, Bool.or_eq_false_iff] at nonnull
      simp [nonempty nonnull.2]
  | group number p ih =>
    obtain ⟨u, inside, rfl⟩ := List.mem_map.mp h
    obtain ⟨a, ⟨passes, only⟩, nonempty⟩ := ih inside
    exact ⟨a, ⟨passes, only⟩, nonempty⟩

theorem left_lt_of_mem_ways {p : Expr} {s t : Spot} (nonnull : p.nullable = false)
    (h : t ∈ p.ways s) : t.place.left < s.place.left := by
  obtain ⟨passed, ⟨passes, -⟩, nonempty⟩ := passes_of_mem_ways h
  have := passes.left_eq
  have := List.length_pos_of_ne_nil (nonempty nonnull)
  omega

/-! ## 4. Groups -/

/-- A pattern without groups that are kept. -/
def Expr.ungrouped : Expr → Bool
  | empty | assert _ | one _ => true
  | seq p q | alt p q => p.ungrouped && q.ungrouped
  | repeated _ _ _ p => p.ungrouped
  | group _ _ => false

/-- A pattern without groups leaves the groups as they are. -/
theorem marks_of_mem_ways {p : Expr} {s t : Spot} (ungrouped : p.ungrouped = true)
    (h : t ∈ p.ways s) : t.opened = s.opened ∧ t.groups = s.groups := by
  induction p generalizing s t with
  | empty =>
    obtain rfl := List.mem_singleton.mp h
    exact ⟨rfl, rfl⟩
  | one cls =>
    rw [Expr.ways] at h
    split at h
    · split at h
      · obtain rfl := List.mem_singleton.mp h
        exact ⟨rfl, rfl⟩
      · simp at h
    · simp at h
  | assert condition =>
    rw [Expr.ways] at h
    split at h
    · obtain rfl := List.mem_singleton.mp h
      exact ⟨rfl, rfl⟩
    · simp at h
  | seq p q ihp ihq =>
    obtain ⟨hp, hq⟩ := Bool.and_eq_true_iff.mp ungrouped
    obtain ⟨u, first, second⟩ := List.mem_flatMap.mp h
    obtain ⟨opened, groups⟩ := ihp hp first
    rw [← opened, ← groups]
    exact ihq hq second
  | alt p q ihp ihq =>
    obtain ⟨hp, hq⟩ := Bool.and_eq_true_iff.mp ungrouped
    exact (List.mem_append.mp h).elim (ihp hp) (ihq hq)
  | repeated min max greedy p ih =>
    refine rounds_induction (P := fun v => v.opened = s.opened ∧ v.groups = s.groups) ?_
      ⟨rfl, rfl⟩ h
    rintro u v ⟨opened, groups⟩ round
    rw [← opened, ← groups]
    exact ih ungrouped round
  | group number p ih => cases ungrouped

section Places

variable {f g : Spot → List Spot}

/-- Two computations of ways that lead to the same places from spots at one place. -/
def SamePlaces (f g : Spot → List Spot) : Prop :=
  ∀ s t : Spot, s.place = t.place → (f s).map (·.place) = (g t).map (·.place)

theorem SamePlaces.flatMap (h : SamePlaces f g) {ss ts : List Spot}
    (same : ss.map (·.place) = ts.map (·.place)) :
    (ss.flatMap f).map (·.place) = (ts.flatMap g).map (·.place) := by
  induction ss generalizing ts with
  | nil =>
    obtain rfl := List.map_eq_nil_iff.mp same.symm
    rfl
  | cons s ss ih =>
    cases ts with
    | nil => cases same
    | cons t ts =>
      rw [List.map_cons, List.map_cons, List.cons.injEq] at same
      simp only [List.flatMap_cons, List.map_append, ih same.2, h s t same.1]

theorem map_prefer {greedy : Bool} {again again' : List Spot} {s t : Spot}
    (same : again.map (·.place) = again'.map (·.place)) (place : s.place = t.place) :
    (prefer greedy again s).map (·.place) = (prefer greedy again' t).map (·.place) := by
  cases greedy <;> simp [prefer, same, place]

theorem SamePlaces.star (h : SamePlaces f f) (greedy : Bool) : SamePlaces (star f greedy) (star f greedy) := by
  intro s t place
  induction left : s.place.left using Nat.strongRecOn generalizing s t with
  | ind n ih =>
    rw [Pattern.star, Pattern.star]
    refine map_prefer (SamePlaces.flatMap (fun u v same => ?_) (h s t place)) place
    rw [← place, ← same]
    split
    · rename_i less
      exact ih _ (left ▸ less) u v same rfl
    · rfl

theorem SamePlaces.rounds (h : SamePlaces f f) (greedy : Bool) (min : Nat) (max : Option Nat) :
    SamePlaces (rounds f greedy min max) (rounds f greedy min max) := by
  intro s t place
  fun_induction Pattern.rounds f greedy min max s generalizing t with
  | case1 s =>
    rw [Pattern.rounds]
    exact h.star greedy s t place
  | case2 s => simp [Pattern.rounds, place]
  | case3 max s ih =>
    rw [Pattern.rounds]
    exact map_prefer (SamePlaces.flatMap (fun u v same => ih u v same) (h s t place)) place
  | case4 min max s ih =>
    rw [Pattern.rounds]
    exact SamePlaces.flatMap (fun u v same => ih u v same) (h s t place)

/-- Where a pattern can lead does not depend on the groups that were there before. -/
theorem map_place_ways (p : Expr) : SamePlaces p.ways p.ways := by
  induction p with
  | empty => exact fun s t place => by simp [Expr.ways, place]
  | one cls =>
    intro s t place
    rw [Expr.ways, Expr.ways, place]
    split
    · split <;> rfl
    · rfl
  | assert condition =>
    intro s t place
    rw [Expr.ways, Expr.ways, place]
    split <;> simp [place]
  | seq p q ihp ihq => exact fun s t place => ihq.flatMap (ihp s t place)
  | alt p q ihp ihq =>
    intro s t place
    rw [Expr.ways, Expr.ways, List.map_append, List.map_append, ihp s t place, ihq s t place]
  | repeated min max greedy p ih => exact ih.rounds greedy min max
  | group number p ih =>
    intro s t place
    rw [Expr.ways, Expr.ways, List.map_map, List.map_map]
    exact ih _ _ place

end Places

end ModelLoading.Pattern
