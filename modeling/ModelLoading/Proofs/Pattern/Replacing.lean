import ModelLoading.Pattern.Template
import ModelLoading.Proofs.Pattern.Search
import ModelLoading.Proofs.Text.Occurrences
import ModelLoading.Proofs.Text.Sweeping

/-!
# What a replacement brings forth

A template is expanded from left to right: quoted text stands for itself (`expand_quote`), and a
reference in braces for its value (`expand_reference`). What it refers to is a part of the text that
was searched (`value_infix`). So a template that encloses a reference brings forth no occurrence of a
text that the enclosure blocks (`Regex.not_infix_replaceAll`).
-/

namespace ModelLoading.Pattern

open Text (Enclosure)

/-! ## 1. Templates -/

namespace Template

variable (value : Reference → List Char)

theorem expand_cons {c : Char} (plain : c ≠ '$') (rest : List Char) :
    expand value (c :: rest) = c :: expand value rest := by
  simp [expand, expandFrom, plain]

theorem quote_nil : quote [] = [] := rfl

theorem quote_dollar (s : List Char) : quote ('$' :: s) = '$' :: '$' :: quote s := rfl

theorem quote_cons {c : Char} (plain : c ≠ '$') (s : List Char) : quote (c :: s) = c :: quote s := by
  rw [quote, List.flatMap_cons, if_neg plain]
  rfl

theorem quote_append (s s' : List Char) : quote (s ++ s') = quote s ++ quote s' := List.flatMap_append

/-- Quoting replaces every dollar sign by two. -/
theorem quote_eq_replaceAll (s : List Char) : quote s = Text.replaceAll ['$'] ['$', '$'] s := by
  have some : ['$'] ≠ [] := List.cons_ne_nil _ _
  induction s with
  | nil => exact (Text.replaceAll_nil _ some).1.symm
  | cons c s ih =>
    by_cases dollar : c = '$'
    · subst dollar
      rw [quote_dollar, ih]
      exact (Text.replaceAll_append ['$', '$'] some s).1.symm
    · have absent : ¬['$'] <+: c :: s := fun stands => dollar (List.cons_prefix_cons.mp stands).1.symm
      rw [quote_cons dollar, ih, (Text.replaceAll_cons _ some absent).1]

/-- Quoted text stands for itself, whatever follows it. -/
theorem expand_quote (s rest : List Char) :
    expand value (quote s ++ rest) = s ++ expand value rest := by
  induction s with
  | nil => rfl
  | cons c s ih =>
    by_cases dollar : c = '$'
    · -- the two dollar signs are read together, whatever the next character is
      subst dollar
      rw [quote_dollar, List.cons_append, List.cons_append, List.cons_append, ← ih]
      rfl
    · rw [quote_cons dollar, List.cons_append, expand_cons value dollar, ih, List.cons_append]

theorem expand_quoted (s : List Char) : expand value (quote s) = s := by
  have expands := expand_quote value s []
  have nothing : expand value [] = [] := rfl
  rwa [List.append_nil, nothing, List.append_nil] at expands

theorem expandFrom_skip (s rest : List Char) :
    expandFrom value s.length (s ++ rest) = expand value rest := by
  induction s with
  | nil => rfl
  | cons c s ih =>
    rw [← ih]
    rfl

theorem expand_reference {body : List Char} (plain : '\x7d' ∉ body) (rest : List Char) :
    expand value ('$' :: '\x7b' :: (body ++ '\x7d' :: rest)) =
      value (reference body) ++ expand value rest := by
  have whole : (body ++ '\x7d' :: rest).takeWhile (· != '\x7d') = body := by
    have inside : ∀ c ∈ body, (c != '\x7d') = true := by
      intro c hc
      rw [bne_iff_ne]
      rintro rfl
      exact plain hc
    rw [List.takeWhile_append_of_pos inside]
    simp
  have read : reference? ('\x7b' :: (body ++ '\x7d' :: rest)) =
      some (reference body, body.length + 2) := by
    simp only [reference?, whole]
    rw [if_pos (by simp)]
  have skipped := expandFrom_skip value ('\x7b' :: (body ++ ['\x7d'])) rest
  simp only [List.length_cons, List.length_append, List.cons_append, List.append_assoc,
    List.length_nil, List.nil_append] at skipped
  rw [expand, expandFrom]
  · simp only [read]
    rw [skipped]
  · simp

/-- A template of quoted text and a reference in braces between two characters. -/
theorem expand_enclosing (front body : List Char) {first last : Char}
    (plain : '\x7d' ∉ body) (hfirst : first ≠ '$') (hlast : last ≠ '$') :
    expand value (quote front ++ first :: '$' :: '\x7b' :: (body ++ ['\x7d', last])) =
      (Enclosure.mk front first (value (reference body)) last).text := by
  rw [expand_quote, expand_cons value hfirst, expand_reference value plain,
    expand_cons value hlast]
  rfl

end Template

/-! ## 2. Replacing -/

section Replacing

variable {r : Regex} {s w : List Char}

/-- What a template refers to is a part of the text. -/
theorem Regex.value_infix {m : Match} (hm : .found m ∈ r.scan s) (names : List (String × Nat))
    (ref : Reference) : m.value names ref <:+: s := by
  have group : ∀ n, (m.groups.lookup n).getD [] <:+: s := by
    intro n
    cases found : m.groups.lookup n with
    | none => exact List.nil_infix
    | some text =>
      obtain ⟨before, after, split, -⟩ := List.lookup_eq_some_iff.mp found
      have inside : (n, text) ∈ m.groups := by simp [split]
      exact Regex.infix_of_mem_scan hm inside
  unfold Match.value
  split
  · -- the whole match is a piece of the scan
    obtain ⟨before, after, split⟩ := List.append_of_mem hm
    have whole := Regex.written_scan r s
    rw [split, List.flatMap_append, List.flatMap_cons] at whole
    rw [← whole]
    exact List.infix_append' ..
  · exact group _
  · split
    · exact group _
    · exact List.nil_infix

/-- The text of a piece, with something else in the place of a match. -/
def Piece.replaced (put : Match → List Char) : Piece → List Char
  | kept c => [c]
  | found m => put m

/-- Enclosures in the place of matches bring forth no occurrence, also none that begins in the text
that is there before. -/
theorem not_infix_flatMap_replaced {enclosure : Match → Enclosure} (pieces : List Piece)
    (before : List Char) (absent : ¬w <:+: before ++ pieces.flatMap Piece.written)
    (blocks : ∀ m, .found m ∈ pieces → (enclosure m).Blocks w ∧ ¬w <:+: (enclosure m).inner) :
    ¬w <:+: before ++ pieces.flatMap (Piece.replaced fun m => (enclosure m).text) := by
  induction pieces generalizing before with
  | nil => exact absent
  | cons piece pieces ih =>
    have later : ∀ m, .found m ∈ pieces → (enclosure m).Blocks w ∧ ¬w <:+: (enclosure m).inner :=
      fun m hm => blocks m (List.mem_cons_of_mem _ hm)
    rw [List.flatMap_cons] at absent ⊢
    cases piece with
    | kept c =>
      rw [← List.append_assoc] at absent ⊢
      exact ih _ absent later
    | found m =>
      intro occurs
      obtain ⟨blocked, inner⟩ := blocks m List.mem_cons_self
      rcases blocked.cases occurs with left | inside | right
      · exact absent (List.infix_append_of_infix_left left)
      · exact inner inside
      · refine ih [] (fun written => ?_) later right
        exact absent (List.infix_append_of_infix_right (List.infix_append_of_infix_right written))

/-- A template that expands to an enclosure of a part of the text brings forth no occurrence of a text
that the enclosure blocks. -/
theorem Regex.not_infix_replaceAll {template front : List Char} {first last : Char}
    {ref : Reference}
    (expands : ∀ value, Template.expand value template =
      (Enclosure.mk front first (value ref) last).text)
    (blocks : ∀ inner, (Enclosure.mk front first inner last).Blocks w) (absent : ¬w <:+: s) :
    ¬w <:+: r.replaceAll template s := by
  have pieces : r.replaceAll template s = (r.scan s).flatMap
      (Piece.replaced fun m => (Enclosure.mk front first (m.value r.names ref) last).text) := by
    simp only [← expands]
    rfl
  rw [pieces]
  refine not_infix_flatMap_replaced (r.scan s) [] ?_ fun m hm => ⟨blocks _, fun occurs => ?_⟩
  · rwa [List.nil_append, Regex.written_scan]
  · exact absent (occurs.trans (Regex.value_infix hm r.names ref))

end Replacing

end ModelLoading.Pattern
