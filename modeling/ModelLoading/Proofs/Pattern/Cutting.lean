import ModelLoading.Proofs.Pattern.Search
import ModelLoading.Proofs.Pattern.Sweeping

/-!
# Cutting a text at matches

A text is cut at the matches of a pattern from left to right: each is what a search from the end of the one
before finds (`Expr.CutAt`). A match of nothing does not count where the match before it ended; the search is
then taken up one character on (`Expr.nextMatch?`). There is exactly one cut, and a scan is its parts
(`exists_cutAt`, `CutAt.unique`), so that counting and replacing see the same matches.
-/

namespace ModelLoading.Pattern

/-- The next match that counts from a place on. -/
def Expr.nextMatch? (p : Expr) (c : Cursor) (fresh : Bool) : Option (Attempt × Cursor) :=
  match p.searchFrom c [] none with
  | none => none
  | some (a, stop) =>
    if stop.left < c.left ∨ fresh then some (a, stop)
    else
      match c.next? with
      | none => none
      | some (_, next) => p.searchFrom next [] none

/-- A text is cut at the matches of a pattern from a place on: what is kept in front of each, with the match,
and what is left behind the last. -/
inductive Expr.CutAt (p : Expr) :
    (c : Cursor) → (fresh : Bool) → (matched : List (List Char × Match)) → (rest : List Char) → Prop
  /-- There is no match. -/
  | rest {c : Cursor} {fresh : Bool} (none : p.nextMatch? c fresh = none) : CutAt p c fresh [] c.rest
  /-- There is a match, and the text behind it is cut. -/
  | found {c stop : Cursor} {fresh : Bool} {a : Attempt} {matched : List (List Char × Match)} {rest : List Char}
      (next : p.nextMatch? c fresh = some (a, stop)) (later : CutAt p stop false matched rest) :
      CutAt p c fresh ((c.textTo a.start, a.result stop) :: matched) rest

/-! ## 1. Places of matches -/

section Matches

variable {p : Expr} {c stop : Cursor} {a : Attempt} {fresh : Bool}

/-- A search that consumes nothing ends at the very place where it was begun. -/
theorem eq_of_searchFrom (found : p.searchFrom c [] none = some (a, stop)) (none : ¬stop.left < c.left) :
    stop = c := by
  have reached : stop = c ∨ stop.left < c.left := by
    have further : ∀ {d : Cursor} {x : Char} {next : Cursor}, (d = c ∨ d.left < c.left) →
        d.next? = some (x, next) → next = c ∨ next.left < c.left := by
      intro d x next before goesOn
      have less := Cursor.left_lt_of_next? goesOn
      rcases before with rfl | before
      · exact .inr less
      · exact .inr (less.trans before)
    have steady : Steady fun d _ => d = c ∨ d.left < c.left :=
      ⟨fun h _ => h, fun h _ _ _ => h, fun h _ => further h⟩
    exact searchFrom_induction steady further id (.inl rfl) (by simp) (by simp) a stop found
  exact reached.resolve_right none

theorem nextMatch?_of_none (missing : p.searchFrom c [] none = none) : p.nextMatch? c fresh = none := by
  rw [Expr.nextMatch?, missing]

theorem nextMatch?_of_some (found : p.searchFrom c [] none = some (a, stop))
    (counts : stop.left < c.left ∨ fresh = true) : p.nextMatch? c fresh = some (a, stop) := by
  simp only [Expr.nextMatch?, found, if_pos counts]

/-- A match of nothing that does not count is passed. -/
theorem nextMatch?_of_passed {x : Char} {next : Cursor} (found : p.searchFrom c [] none = some (a, stop))
    (none : ¬stop.left < c.left) (goesOn : c.next? = some (x, next)) :
    p.nextMatch? c false = p.nextMatch? next true := by
  simp only [Expr.nextMatch?, found, goesOn]
  rw [if_neg (by simpa using none)]
  cases p.searchFrom next [] Option.none with
  | none => rfl
  | some found => simp

/-- What counts next begins at or behind the place. -/
theorem start_of_nextMatch? (next : p.nextMatch? c true = some (a, stop)) : a.start.rest <:+ c.rest := by
  have found : p.searchFrom c [] none = some (a, stop) := by
    unfold Expr.nextMatch? at next
    split at next
    · cases next
    · simp_all
  exact (within_of_searchFrom found).start

end Matches

/-! ## 2. Cuts -/

section Cuts

variable {p : Expr} {c : Cursor} {fresh : Bool} {matched matched' : List (List Char × Match)}
  {rest rest' : List Char}

/-- The pieces of a match and of the text kept in front of it. -/
def cutPieces (part : List Char × Match) : List Piece := part.1.map .kept ++ [.found part.2]

/-- A text is cut in one way only. -/
theorem Expr.CutAt.unique (h : p.CutAt c fresh matched rest) (h' : p.CutAt c fresh matched' rest') :
    matched = matched' ∧ rest = rest' := by
  induction h generalizing matched' rest' with
  | rest none =>
    cases h' with
    | rest => exact ⟨rfl, rfl⟩
    | found next => cases none.symm.trans next
  | found next later ih =>
    cases h' with
    | rest none => cases none.symm.trans next
    | found next' later' =>
      cases next.symm.trans next'
      obtain ⟨rfl, rfl⟩ := ih later'
      exact ⟨rfl, rfl⟩

/-- A cut from behind a character, if the next match is the same, is one from before it. -/
theorem Expr.CutAt.keep {x : Char} {d : Cursor} (goesOn : c.next? = some (x, d))
    (same : p.nextMatch? c fresh = p.nextMatch? d true) (h : p.CutAt d true matched rest) :
    ∃ matched' rest', p.CutAt c fresh matched' rest' ∧
      matched'.flatMap cutPieces ++ rest'.map .kept = .kept x :: (matched.flatMap cutPieces ++ rest.map .kept) := by
  cases h with
  | rest none =>
    refine ⟨_, _, .rest (same.trans none), ?_⟩
    rw [Cursor.rest_of_next? goesOn]
    rfl
  | @found _ stop _ a matched _ next later =>
    refine ⟨_, _, .found (same.trans next) later, ?_⟩
    rw [Cursor.textTo_of_next? goesOn (start_of_nextMatch? next)]
    rfl

/-- A text is cut, and its scan is the parts of the cut. -/
theorem Expr.exists_cutAt (p : Expr) (c : Cursor) (fresh : Bool) : ∃ matched rest, p.CutAt c fresh matched rest ∧
    p.scanFrom c fresh = matched.flatMap cutPieces ++ rest.map .kept := by
  fun_induction Expr.scanFrom p c fresh with
  | case1 c fresh missing => exact ⟨[], c.rest, .rest (nextMatch?_of_none missing), rfl⟩
  | case2 c fresh a stop found ahead ih =>
    obtain ⟨matched, rest, later, scanned⟩ := ih
    refine ⟨_, rest, .found (nextMatch?_of_some found (.inl ahead)) later, ?_⟩
    simp [cutPieces, scanned]
  | case3 c a stop found here ih =>
    obtain ⟨matched, rest, later, scanned⟩ := ih
    obtain rfl := eq_of_searchFrom found here
    have nothing : stop.textTo a.start = [] := by
      have whole := written_found found
      rw [text_of_not_lt found here, List.nil_append] at whole
      simpa using whole
    refine ⟨_, rest, .found (nextMatch?_of_some found (.inr rfl)) later, ?_⟩
    simp [cutPieces, nothing, scanned]
  | case4 c fresh a stop found here again ends =>
    obtain rfl : fresh = false := by simpa using again
    have missing : p.nextMatch? c false = none := by
      simp only [Expr.nextMatch?, found, ends]
      rw [if_neg (by simpa using here)]
    have empty : c.rest = [] := by
      cases left : c.rest with
      | nil => rfl
      | cons x s =>
        obtain ⟨d, goesOn, -⟩ := Cursor.next?_of_cons left
        cases ends.symm.trans goesOn
    exact ⟨[], c.rest, .rest missing, by rw [empty]; rfl⟩
  | case5 c fresh a stop found here again x next goesOn ih =>
    obtain ⟨matched, rest, later, scanned⟩ := ih
    obtain rfl : fresh = false := by simpa using again
    obtain ⟨matched', rest', cut, pieces⟩ := later.keep goesOn (nextMatch?_of_passed found here goesOn)
    exact ⟨matched', rest', cut, by rw [scanned, pieces]⟩

/-! ## 3. Reading a cut -/

/-- The parts of a cut, with something written in the place of each match. -/
theorem flatMap_cutPieces {write : Piece → List Char} (plain : ∀ c, write (.kept c) = [c])
    (matched : List (List Char × Match)) (rest : List Char) :
    (matched.flatMap cutPieces ++ rest.map Piece.kept).flatMap write =
      (matched.flatMap fun part => part.1 ++ write (.found part.2)) ++ rest := by
  rw [List.flatMap_append, flatMap_kept plain, List.flatMap_assoc]
  congr 1
  refine List.flatMap_congr fun part _ => ?_
  rw [cutPieces, List.flatMap_append, flatMap_kept plain, List.flatMap_singleton]

theorem countP_cutPieces (matched : List (List Char × Match)) (rest : List Char) {counts : Piece → Bool}
    (kept : ∀ c, counts (.kept c) = false) (found : ∀ m, counts (.found m) = true) :
    (matched.flatMap cutPieces ++ rest.map Piece.kept).countP counts = matched.length := by
  have none : ∀ s : List Char, (s.map Piece.kept).countP counts = 0 := by
    intro s
    simp [kept]
  rw [List.countP_append, none, Nat.add_zero]
  induction matched with
  | nil => rfl
  | cons part matched ih =>
    rw [List.flatMap_cons, List.countP_append, ih, cutPieces, List.countP_append, none]
    simp [found, Nat.add_comm]

variable {r : Regex} {s : List Char}

/-- A text is put together again from the parts of a cut. -/
theorem Regex.written_of_cutAt (cut : r.body.CutAt (.atStart s) true matched rest) :
    (matched.flatMap fun part => part.1 ++ part.2.text) ++ rest = s := by
  obtain ⟨matched', rest', cut', scanned⟩ := Expr.exists_cutAt r.body (.atStart s) true
  obtain ⟨rfl, rfl⟩ := cut.unique cut'
  rw [← r.written_scan s, Regex.scan, scanned, flatMap_cutPieces fun _ => rfl]
  rfl

/-- Replacing puts the expanded template in the place of each match of the cut, and counting counts them. -/
theorem Regex.replaceAll_of_cutAt (cut : r.body.CutAt (.atStart s) true matched rest) (template : List Char) :
    r.replaceAll template s =
        (matched.flatMap fun part => part.1 ++ Template.expand (part.2.value r.names) template) ++ rest ∧
      r.count s = matched.length := by
  obtain ⟨matched', rest', cut', scanned⟩ := Expr.exists_cutAt r.body (.atStart s) true
  obtain ⟨rfl, rfl⟩ := cut.unique cut'
  rw [Regex.replaceAll, Regex.count, Regex.scan, scanned]
  exact ⟨flatMap_cutPieces (fun _ => rfl) .., countP_cutPieces _ _ (fun _ => rfl) fun _ => rfl⟩

end Cuts

end ModelLoading.Pattern
