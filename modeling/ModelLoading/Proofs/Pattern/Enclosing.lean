import ModelLoading.Proofs.Pattern.Sweeping
import ModelLoading.Proofs.Text.Occurrences

/-!
# Patterns of fixed text around a group

Most patterns of rules are fixed text before and after a group. Such a pattern has a way where the text
in front stands, for every way of the group that the text behind follows (`ways_enclosing`). So what it
finds is the fixed text around the text of the group, and a template that refers to the group keeps it
(`Regex.swap_enclosing`).
-/

namespace ModelLoading.Pattern

/-! ## 1. Fixed text -/

/-- The place behind a text that stands at a place. -/
def Cursor.after (c : Cursor) (passed : List Char) : Cursor :=
  .behind (passed.getLast?.or c.before) (c.rest.drop passed.length)

/-- The place behind a text, with the same groups. -/
def Spot.after (s : Spot) (passed : List Char) : Spot := { s with place := s.place.after passed }

theorem Cursor.after_nil (c : Cursor) : c.after [] = c := Cursor.ext rfl rfl

theorem Cursor.passes_after {c : Cursor} {passed : List Char} (h : passed <+: c.rest) :
    c.Passes passed (c.after passed) := by
  obtain ⟨rest, split⟩ := h
  exact ⟨by simp [Cursor.after, ← split], rfl⟩

theorem Cursor.after_cons {c d : Cursor} {x : Char} (goesOn : c.next? = some (x, d))
    (passed : List Char) : c.after (x :: passed) = d.after passed := by
  refine Cursor.ext ?_ ?_
  · have before : d.before = some x := (Passes.of_next? goesOn).before
    simp [Cursor.after, before, List.getLast?_cons]
  · simp [Cursor.after, rest_of_next? goesOn]

theorem Spot.after_cons {s : Spot} {c : Char} {d : Cursor} (goesOn : s.place.next? = some (c, d))
    (passed : List Char) : ({ s with place := d } : Spot).after passed = s.after (c :: passed) :=
  congrArg (fun place => { s with place }) (Cursor.after_cons goesOn passed).symm

theorem Spot.after_append (a b : List Char) (s : Spot) : (s.after a).after b = s.after (a ++ b) := by
  refine congrArg (fun place => { s with place }) (Cursor.ext ?_ ?_)
  · simp [Cursor.after, Spot.after, List.getLast?_append, Option.or_assoc]
  · simp [Cursor.after, Spot.after, List.drop_drop]

theorem Spot.rest_after {s : Spot} {a b : List Char} (split : s.place.rest = a ++ b) :
    (s.after a).place.rest = b := by
  simp [Spot.after, Cursor.after, split]

theorem ways_sequence_cons (p : Expr) (rest : List Expr) (s : Spot) :
    (Expr.sequence (p :: rest)).ways s = (p.ways s).flatMap (Expr.sequence rest).ways := by
  cases rest with
  | nil =>
    have stay : (Expr.sequence []).ways = fun s => [s] := rfl
    rw [stay]
    simp [Expr.sequence]
  | cons q rest => rfl

theorem ways_sequence_append (ps rest : List Expr) (s : Spot) :
    (Expr.sequence (ps ++ rest)).ways s =
      ((Expr.sequence ps).ways s).flatMap (Expr.sequence rest).ways := by
  induction ps generalizing s with
  | nil => simp [Expr.sequence, Expr.ways]
  | cons p ps ih =>
    rw [List.cons_append, ways_sequence_cons, ways_sequence_cons, List.flatMap_assoc]
    exact List.flatMap_congr fun t _ => ih t

theorem mem_single (c x : Char) : (CharClass.single c).mem x = true ↔ x = c := by
  simp only [CharClass.single, CharClass.mem, Bool.and_eq_true, decide_eq_true_eq]
  exact ⟨fun h => Char.le_antisymm h.2 h.1, fun h => h ▸ ⟨Char.le_refl _, Char.le_refl _⟩⟩

theorem ways_char (c : Char) (s : Spot) :
    (Expr.char c).ways s = if [c] <+: s.place.rest then [s.after [c]] else [] := by
  rw [Expr.char, Expr.ways]
  cases text : s.place.rest with
  | nil => simp [Cursor.next?_of_nil text]
  | cons x rest =>
    obtain ⟨d, goesOn, -⟩ := Cursor.next?_of_cons text
    have front : [c] <+: x :: rest ↔ x = c := by simp [eq_comm]
    simp only [goesOn, mem_single, front]
    split
    · rename_i same
      subst same
      rw [← Spot.after_cons goesOn, Spot.after, Cursor.after_nil]
    · rfl

/-- A character is a way of itself. -/
theorem mem_ways_char {c : Char} {s : Spot} (stands : [c] <+: s.place.rest) :
    s.after [c] ∈ (Expr.char c).ways s := by
  rw [ways_char, if_pos stands]
  exact List.mem_singleton_self _

/-- Fixed text has one way where it stands, and none elsewhere. -/
theorem ways_chars (text : List Char) (s : Spot) : (Expr.sequence (text.map Expr.char)).ways s =
    if text <+: s.place.rest then [s.after text] else [] := by
  induction text generalizing s with
  | nil =>
    rw [if_pos List.nil_prefix, Spot.after, Cursor.after_nil]
    rfl
  | cons c text ih =>
    rw [List.map_cons, ways_sequence_cons, ways_char]
    by_cases first : [c] <+: s.place.rest
    · rw [if_pos first, List.flatMap_cons, List.flatMap_nil, List.append_nil, ih]
      obtain ⟨rest, split⟩ := first
      have goesOn : s.place.next? = some (c, s.place.after [c]) := by
        obtain ⟨d, goesOn, -⟩ := Cursor.next?_of_cons split.symm
        rw [goesOn, Cursor.after_cons goesOn, Cursor.after_nil]
      have same : (s.after [c]).after text = s.after (c :: text) := Spot.after_cons goesOn text
      have whole : c :: text <+: s.place.rest ↔ text <+: (s.after [c]).place.rest := by
        rw [Cursor.rest_of_next? goesOn, List.prefix_cons_inj]
        rfl
      simp only [same, whole]
    · rw [if_neg first, List.flatMap_nil, if_neg]
      exact fun whole => first ((List.prefix_append [c] text).trans whole)

/-- One of several texts has a way for each of them that stands there. -/
theorem mem_ways_firstOf {texts : List (List Char)} (some : texts ≠ []) {s t : Spot} :
    t ∈ (Expr.firstOf (texts.map fun text => .sequence (text.map .char))).ways s ↔
      ∃ text ∈ texts, text <+: s.place.rest ∧ t = s.after text := by
  have one : ∀ text : List Char, t ∈ (Expr.sequence (text.map Expr.char)).ways s ↔
      text <+: s.place.rest ∧ t = s.after text := by
    intro text
    rw [ways_chars]
    split <;> simp_all
  induction texts with
  | nil => exact absurd rfl some
  | cons text texts ih =>
    cases texts with
    | nil =>
      simp only [List.mem_singleton, exists_eq_left]
      exact one text
    | cons text' texts =>
      have rest := ih (List.cons_ne_nil text' texts)
      simp only [List.mem_cons, exists_eq_or_imp] at rest ⊢
      exact List.mem_append.trans (or_congr (one text) rest)

/-! ## 2. Text around a group -/

/-- Fixed text before and after a group. -/
def Expr.enclosing (front : List Char) (inner : Expr) (back : List Char) : Expr :=
  .sequence (front.map .char ++ .group 1 inner :: back.map .char)

theorem ways_enclosing (front : List Char) (inner : Expr) (back : List Char) (s : Spot) :
    (Expr.enclosing front inner back).ways s =
      if front <+: s.place.rest then
        ((inner.ways ((s.after front).openGroup 1)).filter fun u => back.isPrefixOf u.place.rest).map
          fun u => (u.closeGroup 1).after back
      else [] := by
  rw [Expr.enclosing, ways_sequence_append, ways_chars]
  split
  · rw [List.flatMap_cons, List.flatMap_nil, List.append_nil, ways_sequence_cons, Expr.ways,
      List.flatMap_map]
    generalize inner.ways _ = us
    induction us with
    | nil => rfl
    | cons u us ih =>
      rw [List.flatMap_cons, ih, ways_chars, List.filter_cons, Spot.closeGroup_place]
      simp only [List.isPrefixOf_iff_prefix]
      split <;> rfl
  · rfl

/-- The spot where the group begins. -/
def groupSpot (c : Cursor) (front : List Char) : Spot :=
  { place := c.after front, opened := [(1, c.after front)] }

/-- The first way is that of the first way of the group that the text behind follows. -/
theorem first?_enclosing (front : List Char) (inner : Expr) (back : List Char) (c : Cursor) :
    (Expr.enclosing front inner back).first? c =
      if front <+: c.rest then
        ((inner.ways (groupSpot c front)).find? fun u => back.isPrefixOf u.place.rest).map
          fun u => (u.closeGroup 1).after back
      else none := by
  rw [Expr.first?, ways_enclosing]
  split
  · rw [List.head?_map, List.head?_filter]
    rfl
  · rfl

/-- What is found around the first way of a group that the text behind follows: from the spot where the
group begins to the one where it ends, with a text between them and another one behind it all. -/
structure Found (inner : Expr) (back : List Char) (s u : Spot) (text rest : List Char) : Prop where
  first : (inner.ways s).find? (fun u => back.isPrefixOf u.place.rest) = some u
  passed : inner.Passed s u text
  some : inner.nullable = false → text ≠ []
  behind : u.place.rest = back ++ rest

theorem Found.mem_ways {inner : Expr} {back text rest : List Char} {s u : Spot}
    (h : Found inner back s u text rest) : u ∈ inner.ways s := List.mem_of_find?_eq_some h.first

theorem Found.rest_eq {inner : Expr} {back text rest : List Char} {s u : Spot}
    (h : Found inner back s u text rest) : s.place.rest = text ++ (back ++ rest) := by
  rw [h.passed.1.rest, h.behind]

section Swaps

variable {r : Regex} {front back : List Char} {inner : Expr}

/-- Where nothing is found, no text of the group stands between the text in front and the one behind. -/
theorem Regex.not_mem_ways_of_stay (body : r.body = .enclosing front inner back)
    {before : Option Char} {s text rest : List Char} (split : s = front ++ (text ++ (back ++ rest)))
    (h : r.stay before s) : (groupSpot (.behind before s) front).after text ∉
      inner.ways (groupSpot (.behind before s) front) := by
  intro inside
  have front : front <+: s := ⟨_, split.symm⟩
  rw [Regex.stay, body, first?_enclosing, Cursor.rest_behind, if_pos front,
    Option.map_eq_none_iff] at h
  have follows := List.find?_eq_none.mp h _ inside
  simp [Spot.after, Cursor.after, groupSpot, split] at follows

/-- What is found is the fixed text around the text of the group, and a template that refers to the group
keeps it. -/
theorem Regex.swap_enclosing (body : r.body = .enclosing front inner back)
    (ungrouped : inner.ungrouped = true) {template front' back' : List Char}
    (expands : ∀ value, Template.expand value template = front' ++ (value (.number 1) ++ back'))
    {before : Option Char} {old new rest : List Char} (h : r.swap template before old new rest) :
    ∃ u text, old = front ++ (text ++ back) ∧ new = front' ++ (text ++ back') ∧
      Found inner back (groupSpot (.behind before (old ++ rest)) front) u text rest := by
  obtain ⟨way, here, ends, rfl⟩ := h
  rw [body, first?_enclosing] at here
  split at here
  · rename_i stands
    obtain ⟨u, first, rfl⟩ := Option.map_eq_some_iff.mp here
    have inside := List.mem_of_find?_eq_some first
    have follows : back <+: u.place.rest := by
      simpa using List.find?_some first
    obtain ⟨text, passed, some⟩ := passes_of_mem_ways inside
    obtain ⟨opened, groups⟩ := marks_of_mem_ways ungrouped inside
    -- the text in front, the group, and the text behind are what is found
    have whole := ((Cursor.passes_after stands).trans passed.1).trans (Cursor.passes_after follows)
    have same : (u.place.after back).rest = rest := ends
    have behind : u.place.rest = back ++ rest := by rw [(Cursor.passes_after follows).rest, same]
    have found : old = front ++ (text ++ back) := by
      have split := whole.rest
      rw [same, Cursor.rest_behind] at split
      simpa using List.append_cancel_right split
    have group : ((((u.closeGroup 1).after back).result (.behind before (old ++ rest))).value r.names
        (.number 1)) = text := by
      have text_eq := passed.1.textTo_eq
      simp only [Spot.result, Spot.after, Spot.closeGroup, opened, groups, groupSpot, put, Match.value,
        List.filter_nil, List.map_cons, List.map_nil, List.lookup_cons_self, Option.getD_some,
        Group.text]
      exact text_eq
    refine ⟨u, text, found, ?_, first, passed, some, behind⟩
    rw [expands, group]
  · cases here

end Swaps

end ModelLoading.Pattern
