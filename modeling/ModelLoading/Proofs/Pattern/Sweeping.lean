import ModelLoading.Pattern.Template
import ModelLoading.Proofs.Pattern.Backtracking
import ModelLoading.Proofs.Text.Sweeping

/-!
# Replacing matches is a sweep

A scan cuts a text at the matches that searches find. If the pattern cannot match nothing, this is a
sweep: at every place the first way of the pattern is taken, or the next character is kept if there is
no way (`Regex.sweep`).
-/

namespace ModelLoading.Pattern

open Text (Sweep Swap Stay)

/-! ## 1. Places -/

namespace Cursor

/-- The place behind a character, before a text. -/
def behind (before : Option Char) (s : List Char) : Cursor := { atStart s with before }

@[simp] theorem rest_behind (before : Option Char) (s : List Char) : (behind before s).rest = s := rfl

@[simp] theorem before_behind (before : Option Char) (s : List Char) :
    (behind before s).before = before := rfl

theorem ext {c d : Cursor} (before : c.before = d.before) (rest : c.rest = d.rest) : c = d := by
  obtain ⟨b, r, l, hl⟩ := c
  obtain ⟨b', r', l', hl'⟩ := d
  obtain rfl : b = b' := before
  obtain rfl : r = r' := rest
  obtain rfl : l = l' := hl.trans hl'.symm
  rfl

theorem next?_behind_cons (before : Option Char) (x : Char) (s : List Char) :
    (behind before (x :: s)).next? = some (x, behind (some x) s) :=
  congrArg (fun d => some (x, d)) (ext rfl rfl)

theorem next?_of_nil {c : Cursor} (h : c.rest = []) : c.next? = none := by
  obtain ⟨before, rest, left, same⟩ := c
  subst h
  rfl

theorem next?_of_cons {c : Cursor} {x : Char} {s : List Char} (h : c.rest = x :: s) :
    ∃ d, c.next? = some (x, d) ∧ d.rest = s := by
  obtain ⟨before, rest, left, same⟩ := c
  subst h
  exact ⟨_, rfl, rfl⟩

/-- The place to which a text leads. -/
theorem Passes.eq_behind {before : Option Char} {s passed : List Char} {d : Cursor}
    (h : (behind before s).Passes passed d) :
    s = passed ++ d.rest ∧ d = behind (passed.getLast?.or before) d.rest :=
  ⟨h.rest, ext h.before rfl⟩

theorem textTo_self (c : Cursor) : c.textTo c = [] := by
  rw [textTo, Nat.sub_self, List.take_zero]

/-- The text up to a place that lies behind the next character begins with this character. -/
theorem textTo_of_next? {c d start : Cursor} {x : Char} (goesOn : c.next? = some (x, d))
    (later : start.rest <:+ d.rest) : c.textTo start = x :: d.textTo start := by
  have le := later.length_le
  rw [← start.left_eq, ← d.left_eq] at le
  have left : c.left = d.left + 1 := by
    rw [c.left_eq, d.left_eq, rest_of_next? goesOn, List.length_cons]
  have more : c.left - start.left = (d.left - start.left) + 1 := by omega
  rw [textTo, textTo, rest_of_next? goesOn, more, List.take_succ_cons]

end Cursor

/-! ## 2. Scans -/

/-- The match that a way is. -/
def Spot.result (way : Spot) (start : Cursor) : Match where
  text := start.textTo way.place
  groups := way.groups.map fun (number, g) => (number, g.text)

/-- The first way in which a pattern matches from a place on. -/
def Expr.first? (p : Expr) (c : Cursor) : Option Spot := (p.ways ⟨c, [], []⟩).head?

section Scans

variable {p : Expr} {c start : Cursor} {way : Spot}

/-- What can be found begins at or after the place, and is a way of the pattern. -/
theorem mem_outcomes (h : (start, way) ∈ p.outcomes c) :
    way ∈ p.ways ⟨start, [], []⟩ ∧ start.rest <:+ c.rest := by
  induction left : c.left using Nat.strongRecOn generalizing c with
  | ind n ih =>
    rw [Expr.outcomes_eq, List.mem_append] at h
    rcases h with here | later
    · obtain ⟨w, inside, same⟩ := List.mem_map.mp here
      cases same
      exact ⟨inside, List.suffix_rfl⟩
    · rw [Expr.later] at later
      split at later
      · rename_i x d goesOn
        obtain ⟨inside, suffix⟩ := ih _ (left ▸ Cursor.left_lt_of_next? goesOn) later rfl
        exact ⟨inside, suffix.trans (Cursor.rest_of_next? goesOn ▸ List.suffix_cons ..)⟩
      · simp at later

variable (productive : p.productive = true) (nonnull : p.nullable = false)

include productive

theorem scanFrom_of_nothing (nothing : p.outcomes c = []) (fresh : Bool) :
    p.scanFrom c fresh = c.rest.map .kept := by
  have none := outcome?_searchFrom_fresh productive c
  rw [nothing, outcome?, List.head?_nil, Option.map_eq_none_iff] at none
  rw [Expr.scanFrom, none]

include nonnull

theorem scanFrom_of_outcome (first : (p.outcomes c).head? = some (start, way)) (fresh : Bool) :
    p.scanFrom c fresh =
      (c.textTo start).map .kept ++ .found (way.result start) :: p.scanFrom way.place false := by
  have found := outcome?_searchFrom_fresh productive c
  rw [first, outcome?, Option.map_eq_some_iff] at found
  obtain ⟨⟨a, stop⟩, found, same⟩ := found
  cases same
  obtain ⟨inside, suffix⟩ := mem_outcomes (List.mem_of_head? first)
  have shorter : stop.left < c.left := by
    have less : stop.left < a.start.left := left_lt_of_mem_ways nonnull inside
    have le := suffix.length_le
    rw [← c.left_eq, ← a.start.left_eq] at le
    omega
  rw [Expr.scanFrom, found]
  simp only [shorter, dif_pos]
  rfl

/-- Where a way begins, it is taken. -/
theorem scanFrom_of_first? (here : p.first? c = some way) (fresh : Bool) :
    p.scanFrom c fresh = .found (way.result c) :: p.scanFrom way.place false := by
  have first : (p.outcomes c).head? = some (c, way) := by
    rw [Expr.outcomes_eq, List.head?_append, List.head?_map]
    rw [Expr.first?] at here
    rw [here]
    rfl
  rw [scanFrom_of_outcome productive nonnull first, Cursor.textTo_self, List.map_nil, List.nil_append]

/-- Where no way begins, the next character is kept. -/
theorem scanFrom_of_next? {d : Cursor} {x : Char} (here : p.first? c = none)
    (goesOn : c.next? = some (x, d)) (fresh : Bool) :
    p.scanFrom c fresh = .kept x :: p.scanFrom d true := by
  have outcomes : p.outcomes c = p.outcomes d := by
    rw [Expr.first?, List.head?_eq_none_iff] at here
    rw [Expr.outcomes_eq, here, Expr.later, goesOn]
    rfl
  cases first : (p.outcomes d).head? with
  | none =>
    have nothing := List.head?_eq_none_iff.mp first
    rw [scanFrom_of_nothing productive (outcomes.trans nothing), scanFrom_of_nothing productive nothing,
      Cursor.rest_of_next? goesOn, List.map_cons]
  | some found =>
    obtain ⟨start, way⟩ := found
    have suffix := (mem_outcomes (List.mem_of_head? first)).2
    rw [scanFrom_of_outcome productive nonnull first,
      scanFrom_of_outcome productive nonnull (outcomes ▸ first), Cursor.textTo_of_next? goesOn suffix]
    rfl

end Scans

/-! ## 3. Sweeps -/

namespace Regex

/-- What replacing the matches of a pattern puts in the place of what: the first way of the pattern is
taken, and the template is expanded. -/
def swap (r : Regex) (template : List Char) : Swap := fun before old new rest =>
  ∃ way, r.body.first? (.behind before (old ++ rest)) = some way ∧ way.place.rest = rest ∧
    new = Template.expand ((way.result (.behind before (old ++ rest))).value r.names) template

/-- Where no match begins. -/
def stay (r : Regex) : Stay := fun before s => r.body.first? (.behind before s) = none

/-- A scan from any place on is a sweep, by what its pieces are written as and which of them count. -/
theorem sweep_scanFrom {r : Regex} (productive : r.body.productive = true)
    (nonnull : r.body.nullable = false) (template : List Char) {write : Piece → List Char}
    {counts : Piece → Bool} (kept : ∀ c, write (.kept c) = [c] ∧ ¬counts (.kept c) = true)
    (found : ∀ m, write (.found m) = Template.expand (m.value r.names) template ∧
      counts (.found m) = true) (before : Option Char) (s : List Char) (fresh : Bool) :
    Sweep (r.swap template) r.stay before s
      ((r.body.scanFrom (.behind before s) fresh).flatMap write)
      ((r.body.scanFrom (.behind before s) fresh).countP counts) := by
  induction length : s.length using Nat.strongRecOn generalizing before s fresh with
  | ind length ih =>
    subst length
    cases here : r.body.first? (.behind before s) with
    | some way =>
      have inside := List.mem_of_head? here
      obtain ⟨old, ⟨passes, -⟩, some⟩ := passes_of_mem_ways inside
      obtain ⟨split, place⟩ := passes.eq_behind
      have shorter : way.place.rest.length < s.length := by
        have := List.length_pos_of_ne_nil (some nonnull)
        rw [split, List.length_append]
        omega
      have rest := ih _ shorter (old.getLast?.or before) way.place.rest false rfl
      rw [← place] at rest
      rw [scanFrom_of_first? productive nonnull here, List.flatMap_cons, (found _).1,
        List.countP_cons_of_pos (found _).2]
      subst split
      exact .swap ⟨way, here, rfl, rfl⟩ (some nonnull) rest
    | none =>
      cases s with
      | nil =>
        have nothing : r.body.outcomes (.behind before []) = [] := by
          rw [Expr.first?, List.head?_eq_none_iff] at here
          rw [Expr.outcomes_eq, here]
          rfl
        rw [scanFrom_of_nothing productive nothing]
        exact .done
      | cons x s =>
        rw [scanFrom_of_next? productive nonnull here (Cursor.next?_behind_cons before x s),
          List.flatMap_cons, (kept x).1, List.countP_cons_of_neg (kept x).2]
        exact .keep here (ih _ (by simp) _ _ _ rfl)

/-- Replacing the matches of a pattern is a sweep, if the pattern cannot match nothing. -/
theorem sweep {r : Regex} (productive : r.body.productive = true) (nonnull : r.body.nullable = false)
    (template s : List Char) :
    Sweep (r.swap template) r.stay none s (r.replaceAll template s) (r.count s) :=
  sweep_scanFrom productive nonnull template (fun _ => ⟨rfl, Bool.false_ne_true⟩) (fun _ => ⟨rfl, rfl⟩)
    none s true

end Regex

end ModelLoading.Pattern
