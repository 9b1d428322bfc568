import ModelLoading.Proofs.Text.Sweeping

/-!
# Cutting a text at occurrences

A text is cut at the occurrences of another from left to right: each is the first one at or behind the end of
the one before, and there is none behind the last (`CutAt`). For a text that is not empty there is a cut
(`exists_cutAt`), and its parts are the pieces that counting and replacing are read off (`CutAt.pieces_eq`). An
empty text occurs before every character and at the end.
-/

namespace ModelLoading.Text

variable {what s rest : List Char} {keeps : List (List Char)}

/-- A text is cut at the occurrences of another: what is kept in front of each, and what is left behind the last. -/
inductive CutAt (what : List Char) : (s : List Char) → (keeps : List (List Char)) → (rest : List Char) → Prop
  /-- There is no occurrence. -/
  | rest {s : List Char} (none : ¬what <:+: s) : CutAt what s [] s
  /-- There is an occurrence behind a text, and none that begins earlier. -/
  | found {kept s rest : List Char} {keeps : List (List Char)} (first : ¬what <:+: kept ++ what.dropLast)
      (later : CutAt what s keeps rest) : CutAt what (kept ++ (what ++ s)) (kept :: keeps) rest

/-! ## 1. Pieces -/

/-- A text without an occurrence is one piece. -/
theorem pieces_of_not_infix (none : ¬what <:+: s) : pieces what s = [s] := by
  have nonempty : what ≠ [] := by
    rintro rfl
    exact none List.nil_infix
  obtain ⟨first, others, split⟩ := List.exists_cons_of_ne_nil (pieces_ne_nil what s)
  have whole := intercalate_pieces nonempty s
  rw [split] at whole ⊢
  cases others with
  | nil => rw [← whole, List.intercalate_singleton]
  | cons second others =>
    rw [List.intercalate_cons_cons, List.append_assoc] at whole
    exact absurd ⟨first, _, (List.append_assoc ..).trans whole⟩ none

theorem begins_with_dropLast (what front s : List Char) : front ++ what.dropLast <+: front ++ (what ++ s) :=
  (List.prefix_append_right_inj front).mpr ((List.dropLast_prefix what).trans (List.prefix_append ..))

/-- What stands in front of the first occurrence is the first piece. -/
theorem pieces_of_first {kept : List Char} (first : ¬what <:+: kept ++ what.dropLast) (s : List Char) :
    pieces what (kept ++ (what ++ s)) = kept :: pieces what s := by
  have nonempty : what ≠ [] := by
    rintro rfl
    exact first List.nil_infix
  induction kept with
  | nil => exact pieces_append nonempty s
  | cons c kept ih =>
    have absent : ¬what <+: c :: (kept ++ (what ++ s)) := by
      intro here
      have length := List.length_pos_of_ne_nil nonempty
      refine first (List.prefix_of_prefix_length_le here (begins_with_dropLast what (c :: kept) s) ?_).isInfix
      simp only [List.length_append, List.length_cons, List.length_dropLast]
      omega
    obtain ⟨piece, others, split, split'⟩ := pieces_cons nonempty absent
    rw [ih fun occurs => first (List.infix_cons occurs)] at split
    obtain ⟨rfl, rfl⟩ := List.cons.inj split
    exact split'

/-! ## 2. Cuts -/

theorem CutAt.pieces_eq (h : CutAt what s keeps rest) : pieces what s = keeps ++ [rest] := by
  induction h with
  | rest none => exact pieces_of_not_infix none
  | found first later ih => rw [pieces_of_first first, ih, List.cons_append]

theorem CutAt.ne_nil (h : CutAt what s keeps rest) : what ≠ [] := by
  rintro rfl
  cases h with
  | rest none => exact none List.nil_infix
  | found first => exact first List.nil_infix

theorem exists_cutAt (nonempty : what ≠ []) (s : List Char) : ∃ keeps rest, CutAt what s keeps rest := by
  induction s using occurrence_induction nonempty with
  | nil => exact ⟨[], [], .rest fun occurs => nonempty (List.eq_nil_of_infix_nil occurs)⟩
  | occurs s ih =>
    obtain ⟨keeps, rest, later⟩ := ih
    have first : ¬what <:+: [] ++ what.dropLast := by
      intro occurs
      have shorter := occurs.length_le
      have length := List.length_pos_of_ne_nil nonempty
      rw [List.nil_append, List.length_dropLast] at shorter
      omega
    exact ⟨[] :: keeps, rest, .found first later⟩
  | other c s absent ih =>
    obtain ⟨keeps, rest, cut⟩ := ih
    cases cut with
    | rest none => exact ⟨[], c :: s, .rest fun occurs => (List.infix_cons_iff.mp occurs).elim absent none⟩
    | @found kept s _ keeps first later =>
      have first' : ¬what <:+: c :: kept ++ what.dropLast := fun occurs =>
        (List.infix_cons_iff.mp occurs).elim
          (fun here => absent (here.trans (begins_with_dropLast what (c :: kept) s))) first
      exact ⟨(c :: kept) :: keeps, rest, .found first' later⟩

-- an occurrence that begins inside another one is passed
example : pieces ['a', 'a'] ['a', 'a', 'a'] = [[], ['a']] := by decide

/-! ## 3. Replacing -/

theorem intercalate_append_singleton (replacement : List Char) (keeps : List (List Char)) (rest : List Char) :
    replacement.intercalate (keeps ++ [rest]) = keeps.flatMap (· ++ replacement) ++ rest := by
  induction keeps with
  | nil => exact List.intercalate_singleton
  | cons kept keeps ih =>
    obtain ⟨next, others, split⟩ := List.exists_cons_of_ne_nil (List.append_ne_nil_of_right_ne_nil keeps
      (List.cons_ne_nil rest []))
    rw [List.flatMap_cons, List.append_assoc, ← ih, List.cons_append, split, List.intercalate_cons_cons]

/-- Counting and replacing see what lies between the pieces. -/
theorem replaceAll_of_pieces (split : pieces what s = keeps ++ [rest]) (replacement : List Char) :
    replaceAll what replacement s = keeps.flatMap (· ++ replacement) ++ rest ∧
      occurrences what s = keeps.length := by
  rw [replaceAll, occurrences, split, intercalate_append_singleton, List.length_append]
  exact ⟨rfl, rfl⟩

/-- A text is put together again from the parts of a cut. -/
theorem CutAt.written (h : CutAt what s keeps rest) : keeps.flatMap (· ++ what) ++ rest = s := by
  induction h with
  | rest => rfl
  | found _ _ ih => rw [List.flatMap_cons, List.append_assoc, ih, List.append_assoc]

/-- An empty text occurs before every character and at the end. -/
theorem pieces_empty (s : List Char) : pieces [] s = ([] :: s.map ([·])) ++ [[]] := rfl

end ModelLoading.Text
