import ModelLoading.Pattern.Match

/-!
# What a search finds

A search carries attempts through a text. What every step of an attempt keeps therefore holds of the
attempt that is found (`searchFrom_induction`). The first use is about places: an attempt lies in the
text that is searched, and so do its groups (`Attempt.Within`). So a scan cuts a text into pieces
without losing anything (`written_scan`), and the text of every group is a part of it
(`infix_of_mem_scan`).
-/

namespace ModelLoading.Pattern

/-! ## 1. What attempts keep -/

/-- A property of attempts at places that no step of an attempt ends. -/
structure Steady (I : Cursor → Attempt → Prop) : Prop where
  next : ∀ {c a b}, I c a → a.step c = .next b → I c b
  choice : ∀ {c a ways}, I c a → a.step c = .choice ways → ∀ b ∈ ways, I c b
  consume : ∀ {c a b x d}, I c a → a.step c = .consume b → c.next? = some (x, d) → I d b

/-- An attempt has just consumed a character, and had the property before. -/
def Consumed (I : Cursor → Attempt → Prop) (c : Cursor) (b : Attempt) : Prop :=
  ∃ a, I c a ∧ a.step c = .consume b

section Invariants

variable {I : Cursor → Attempt → Prop}

/-- What a place is left with comes from the attempts that were there. -/
theorem explore_induction (steady : Steady I) (c : Cursor) (attempts : List Attempt)
    (seen : Std.HashSet (List Goal)) (alive : List Attempt) (start : ∀ a ∈ attempts, I c a)
    (before : ∀ b ∈ alive, Consumed I c b) :
    (∀ a, (explore c attempts seen alive).accepted = some a → I c a) ∧
      ∀ b ∈ (explore c attempts seen alive).alive, Consumed I c b := by
  fun_induction explore c attempts seen alive with
  | case1 seen alive => simpa using before
  | case2 seen alive a rest fails ih => exact ih (fun b hb => start b (by simp [hb])) before
  | case3 seen alive a rest ended =>
    refine ⟨fun b hb => ?_, by simpa using before⟩
    obtain rfl := Option.some.inj hb
    exact start _ (by simp)
  | case4 seen alive a rest b goesOn ih =>
    refine ih (fun d hd => ?_) before
    rcases List.mem_cons.mp hd with rfl | old
    · exact steady.next (start a (by simp)) goesOn
    · exact start d (by simp [old])
  | case5 seen alive a rest ways chooses known ih =>
    exact ih (fun b hb => start b (by simp [hb])) before
  | case6 seen alive a rest ways chooses new ih =>
    refine ih (fun b hb => ?_) before
    rcases List.mem_append.mp hb with way | old
    · exact steady.choice (start a (by simp)) chooses b way
    · exact start b (by simp [old])
  | case7 seen alive a rest b consumes known ih =>
    exact ih (fun b hb => start b (by simp [hb])) before
  | case8 seen alive a rest b consumes new ih =>
    refine ih (fun d hd => start d (by simp [hd])) fun d hd => ?_
    rcases List.mem_cons.mp hd with rfl | old
    · exact ⟨a, start a (by simp), consumes⟩
    · exact before d old

/-- The best attempt after a place. -/
def Frontier.best (front : Frontier) (c : Cursor) (best : Option (Attempt × Cursor)) :
    Option (Attempt × Cursor) :=
  match front.accepted with
  | some a => some (a, c)
  | none => best

/-- The attempt that a search finds has every property that new attempts have and no step ends. The
places of the text are given by a predicate of their own. -/
theorem searchFrom_induction {J : Cursor → Prop} {p : Expr} (steady : Steady I)
    (further : ∀ {c x d}, J c → c.next? = some (x, d) → J d)
    (fresh : ∀ {c}, J c → I c (.fresh p c)) {c : Cursor} {attempts : List Attempt}
    {best : Option (Attempt × Cursor)} (place : J c) (start : ∀ a ∈ attempts, I c a)
    (before : ∀ a stop, best = some (a, stop) → I stop a) :
    ∀ a stop, p.searchFrom c attempts best = some (a, stop) → I stop a := by
  -- what one place makes of the attempts and of the best one
  have here : ∀ {c : Cursor} {attempts : List Attempt} {best : Option (Attempt × Cursor)},
      J c → (∀ a ∈ attempts, I c a) → (∀ a stop, best = some (a, stop) → I stop a) →
      let front := explore c (if best.isSome then attempts else attempts ++ [.fresh p c]) ∅ []
      (∀ a stop, front.best c best = some (a, stop) → I stop a) ∧
        ∀ b ∈ front.alive, Consumed I c b := by
    intro c attempts best place start before front
    have all : ∀ a ∈ if best.isSome then attempts else attempts ++ [.fresh p c], I c a := by
      intro a ha
      split at ha
      · exact start a ha
      · rcases List.mem_append.mp ha with old | new
        · exact start a old
        · obtain rfl := List.mem_singleton.mp new
          exact fresh place
    obtain ⟨accepted, alive⟩ := explore_induction steady c _ ∅ [] all (by simp)
    refine ⟨fun a stop h => ?_, alive⟩
    unfold Frontier.best at h
    split at h
    · rename_i b found
      cases h
      exact accepted _ found
    · exact before a stop h
  fun_induction Expr.searchFrom p c attempts best with
  | case1 c attempts best attempts' front best' ends => exact (here place start before).1
  | case2 c attempts best attempts' front best' x next goesOn found =>
    exact (here place start before).1
  | case3 c attempts best attempts' front best' x next goesOn searches ih =>
    obtain ⟨accepted, alive⟩ := here place start before
    refine ih (further place goesOn) (fun b hb => ?_) accepted
    obtain ⟨a, kept, consumes⟩ := alive b hb
    exact steady.consume kept consumes goesOn

end Invariants

/-! ## 2. Places -/

namespace Cursor

theorem rest_of_next? {c d : Cursor} {x : Char} (h : c.next? = some (x, d)) :
    c.rest = x :: d.rest := by
  unfold next? at h
  split at h
  · cases h
  · rename_i y rest split
    cases h
    exact split

/-- The text up to a later place and the text from there on are the text. -/
theorem textTo_append {c d : Cursor} (later : d.rest <:+ c.rest) : c.textTo d ++ d.rest = c.rest := by
  obtain ⟨between, split⟩ := later
  have length : c.left - d.left = between.length := by
    rw [c.left_eq, d.left_eq, ← split, List.length_append]
    omega
  rw [textTo, length, ← split, List.take_left]

end Cursor

theorem mem_put {α : Type} {number : Nat} {value : α} {values : List (Nat × α)} {x : Nat × α}
    (h : x ∈ put number value values) : x = (number, value) ∨ x ∈ values := by
  rcases List.mem_cons.mp h with new | old
  · exact .inl new
  · exact .inr (List.mem_filter.mp old).1

/-- An attempt at a place lies in a text: it began before the place, and its groups begin in the text. -/
structure Attempt.Within (s : List Char) (c : Cursor) (a : Attempt) : Prop where
  begun : c.rest <:+ a.start.rest
  start : a.start.rest <:+ s
  opened : ∀ g ∈ a.opened, g.2.rest <:+ s
  groups : ∀ g ∈ a.groups, g.2.start.rest <:+ s

namespace Attempt.Within

variable {s : List Char} {c : Cursor} {a : Attempt}

theorem place (h : a.Within s c) : c.rest <:+ s := h.begun.trans h.start

theorem fresh {p : Expr} (place : c.rest <:+ s) : (Attempt.fresh p c).Within s c :=
  ⟨List.suffix_rfl, place, by simp [Attempt.fresh], by simp [Attempt.fresh]⟩

theorem turn (h : a.Within s c) (todo : List Goal) : (a.turn todo).Within s c :=
  ⟨h.begun, h.start, h.opened, h.groups⟩

theorem openGroup (h : a.Within s c) (number : Nat) (todo : List Goal) :
    (a.openGroup number c todo).Within s c := by
  refine ⟨h.begun, h.start, fun g hg => ?_, h.groups⟩
  rcases mem_put hg with rfl | old
  · exact h.place
  · exact h.opened g old

theorem closeGroup (h : a.Within s c) (number : Nat) (todo : List Goal) :
    (a.closeGroup number c todo).Within s c := by
  refine ⟨h.begun, h.start, h.opened, fun g hg => ?_⟩
  rcases mem_put hg with rfl | old
  · -- the group begins where it was opened
    cases found : a.opened.lookup number with
    | none => simpa [found] using h.place
    | some start =>
      obtain ⟨before, after, split, -⟩ := List.lookup_eq_some_iff.mp found
      have inside : (number, start) ∈ a.opened := by simp [split]
      simpa [found] using h.opened _ inside
  · exact h.groups g old

theorem later {d : Cursor} {x : Char} (h : a.Within s c) (goesOn : c.next? = some (x, d)) :
    a.Within s d := by
  refine ⟨?_, h.start, h.opened, h.groups⟩
  have behind : d.rest <:+ c.rest := Cursor.rest_of_next? goesOn ▸ List.suffix_cons x d.rest
  exact behind.trans h.begun

theorem steady (s : List Char) : Steady fun c a => a.Within s c where
  next {c a b} h goesOn := by
    unfold Attempt.step at goesOn
    split at goesOn
    case h_2 number k todo =>
      cases goesOn
      exact h.closeGroup number k
    case h_4 part p k todo =>
      split at goesOn
      case h_10 number q =>
        cases goesOn
        exact h.openGroup number _
      case h_3 condition =>
        split at goesOn <;> cases goesOn
        exact h.turn k
      case h_2 => split at goesOn <;> cases goesOn
      case h_1 | h_4 | h_6 | h_8 =>
        cases goesOn
        exact h.turn _
      all_goals cases goesOn
    all_goals cases goesOn
  choice {c a ways} h chooses := by
    have chosen : ∀ greedy again rest, a.choose greedy again rest = .choice ways →
        ∀ b ∈ ways, b.Within s c := by
      intro greedy again rest same b hb
      cases same
      split at hb <;> simp only [List.mem_cons, List.not_mem_nil, or_false] at hb <;>
        rcases hb with rfl | rfl <;> exact h.turn _
    unfold Attempt.step at chooses
    split at chooses
    case h_4 part p k todo =>
      split at chooses
      case h_5 p q =>
        cases chooses
        intro b hb
        obtain ⟨way, -, rfl⟩ := List.mem_map.mp hb
        exact h.turn _
      case h_7 | h_9 => exact chosen _ _ _ chooses
      case h_2 | h_3 => split at chooses <;> cases chooses
      all_goals cases chooses
    all_goals cases chooses
  consume {c a b x d} h consumes goesOn := by
    unfold Attempt.step at consumes
    split at consumes
    case h_4 part p k todo =>
      split at consumes
      case h_2 cls =>
        split at consumes <;> cases consumes
        exact (h.turn _).later goesOn
      case h_3 => split at consumes <;> cases consumes
      all_goals cases consumes
    all_goals cases consumes

end Attempt.Within

/-- What a search finds begins at or after the place where it was begun, and ends at or after its own
beginning. -/
theorem within_of_searchFrom {p : Expr} {c stop : Cursor} {a : Attempt}
    (found : p.searchFrom c [] none = some (a, stop)) : a.Within c.rest stop := by
  refine searchFrom_induction (J := fun d => d.rest <:+ c.rest) (Attempt.Within.steady c.rest)
    (fun place goesOn => ?_) Attempt.Within.fresh List.suffix_rfl (by simp) (by simp) a stop found
  exact (Cursor.rest_of_next? goesOn ▸ List.suffix_cons ..).trans place

/-! ## 3. Pieces -/

/-- The text of a piece. -/
def Piece.written : Piece → List Char
  | kept c => [c]
  | found m => m.text

theorem flatMap_kept {write : Piece → List Char} (plain : ∀ c, write (.kept c) = [c]) (s : List Char) :
    (s.map Piece.kept).flatMap write = s := by
  induction s with
  | nil => rfl
  | cons c s ih => simp [plain, ih]

theorem written_kept (s : List Char) : (s.map Piece.kept).flatMap Piece.written = s :=
  flatMap_kept (fun _ => rfl) s

section Found

variable {p : Expr} {c stop : Cursor} {a : Attempt}

/-- What is found lies between the text before it and the text after it. -/
theorem written_found (found : p.searchFrom c [] none = some (a, stop)) :
    c.textTo a.start ++ ((a.result stop).text ++ stop.rest) = c.rest := by
  have within := within_of_searchFrom found
  have inner : (a.result stop).text ++ stop.rest = a.start.rest := Cursor.textTo_append within.begun
  rw [inner, Cursor.textTo_append within.start]

/-- A match that consumes nothing of the text is empty, and stands where the search began. -/
theorem text_of_not_lt (found : p.searchFrom c [] none = some (a, stop))
    (none : ¬stop.left < c.left) : (a.result stop).text = [] := by
  have within := within_of_searchFrom found
  have length := within.begun.length_le
  have length' := within.start.length_le
  have nothing : a.start.left - stop.left = 0 := by
    have := c.left_eq
    have := a.start.left_eq
    omega
  show a.start.textTo stop = []
  rw [Cursor.textTo, nothing, List.take_zero]

/-- The text of a group is a part of the text. -/
theorem infix_of_mem_groups (found : p.searchFrom c [] none = some (a, stop)) {g : Nat × List Char}
    (hg : g ∈ (a.result stop).groups) : g.2 <:+: c.rest := by
  have within := within_of_searchFrom found
  obtain ⟨⟨number, group⟩, inside, rfl⟩ := List.mem_map.mp hg
  have start := within.groups _ inside
  exact (List.take_prefix ..).isInfix.trans start.isInfix

end Found

/-- A scan loses nothing of the text. -/
theorem written_scanFrom (p : Expr) (c : Cursor) (fresh : Bool) :
    (p.scanFrom c fresh).flatMap Piece.written = c.rest := by
  fun_induction Expr.scanFrom p c fresh with
  | case1 c fresh missing => exact written_kept c.rest
  | case2 c fresh a stop found ahead ih =>
    rw [List.flatMap_append, written_kept, List.flatMap_cons, ih]
    exact written_found found
  | case3 c a stop found here ih =>
    rw [List.flatMap_cons, ih]
    exact congrArg (· ++ c.rest) (text_of_not_lt found here)
  | case4 c fresh a stop found here again ends =>
    have empty : c.rest = [] := by
      unfold Cursor.next? at ends
      split at ends
      · assumption
      · cases ends
    simp [empty]
  | case5 c fresh a stop found here again x next goesOn ih =>
    rw [List.flatMap_cons, ih, Cursor.rest_of_next? goesOn]
    rfl

theorem infix_of_mem_scanFrom {p : Expr} {c : Cursor} {fresh : Bool} {m : Match}
    (hm : .found m ∈ p.scanFrom c fresh) {g : Nat × List Char} (hg : g ∈ m.groups) :
    g.2 <:+: c.rest := by
  fun_induction Expr.scanFrom p c fresh with
  | case1 c fresh missing => simp at hm
  | case2 c fresh a stop found ahead ih =>
    simp only [List.mem_append, List.mem_map, reduceCtorEq, and_false, exists_false, false_or,
      List.mem_cons, Piece.found.injEq] at hm
    rcases hm with rfl | later
    · exact infix_of_mem_groups found hg
    · have within := within_of_searchFrom found
      exact (ih later).trans within.place.isInfix
  | case3 c a stop found here ih =>
    simp only [List.mem_cons, Piece.found.injEq] at hm
    rcases hm with rfl | later
    · exact infix_of_mem_groups found hg
    · exact ih later
  | case4 => simp at hm
  | case5 c fresh a stop found here again x next goesOn ih =>
    simp only [List.mem_cons, reduceCtorEq, false_or] at hm
    have behind : next.rest <:+ c.rest := Cursor.rest_of_next? goesOn ▸ List.suffix_cons ..
    exact (ih hm).trans behind.isInfix

/-- The pieces of a scan are the text. -/
theorem Regex.written_scan (r : Regex) (s : List Char) : (r.scan s).flatMap Piece.written = s :=
  written_scanFrom r.body (.atStart s) true

/-- The text of a group is a part of the text that was scanned. -/
theorem Regex.infix_of_mem_scan {r : Regex} {s : List Char} {m : Match} (hm : .found m ∈ r.scan s)
    {g : Nat × List Char} (hg : g ∈ m.groups) : g.2 <:+: s :=
  infix_of_mem_scanFrom hm hg

end ModelLoading.Pattern
