import Mathlib.Data.List.TakeWhile
import ModelLoading.Proofs.Pattern.Replacing

/-!
# What templates say

A template says in one way what is written: a character other than a dollar sign stands for itself, two dollar
signs write one, a reference in braces reaches to the first closing one, a reference without braces is the longest
run of letters, digits and underscores, and any other dollar sign stands for itself (`Template.Expands`). Expanding
finds this and nothing else (`Template.expand_eq_iff`).
-/

namespace ModelLoading.Pattern.Template

/-- What a template comes to, by what it begins with. -/
inductive Expands (value : Reference → List Char) : (template out : List Char) → Prop
  | done : Expands value [] []
  /-- A character other than a dollar sign stands for itself. -/
  | plain {c : Char} {rest out : List Char} (other : c ≠ '$') (later : Expands value rest out) :
      Expands value (c :: rest) (c :: out)
  /-- Two dollar signs write one. -/
  | pair {rest out : List Char} (later : Expands value rest out) :
      Expands value ('$' :: '$' :: rest) ('$' :: out)
  /-- A reference in braces reaches to the first closing one. -/
  | braced {body rest out : List Char} (first : '\x7d' ∉ body) (later : Expands value rest out) :
      Expands value ('$' :: '\x7b' :: (body ++ '\x7d' :: rest)) (value (reference body) ++ out)
  /-- A reference without braces is the longest run of characters that can be part of it. -/
  | run {body rest out : List Char} (some : body ≠ []) (all : ∀ c ∈ body, isReferenceChar c = true)
      (longest : ∀ c ∈ rest.head?, isReferenceChar c = false) (later : Expands value rest out) :
      Expands value ('$' :: (body ++ rest)) (value (reference body) ++ out)
  /-- Any other dollar sign stands for itself. -/
  | lone {rest out : List Char} (single : rest.head? ≠ some '$')
      (unnamed : ∀ c ∈ rest.head?, isReferenceChar c = false)
      (unclosed : ∀ inner, rest = '\x7b' :: inner → '\x7d' ∉ inner) (later : Expands value rest out) :
      Expands value ('$' :: rest) ('$' :: out)

section Expanding

variable {value : Reference → List Char} {template body rest out : List Char}

/-! ## 1. References -/

theorem takeWhile_run (all : ∀ c ∈ body, isReferenceChar c = true)
    (longest : ∀ c ∈ rest.head?, isReferenceChar c = false) :
    (body ++ rest).takeWhile isReferenceChar = body := by
  rw [List.takeWhile_append_of_pos all]
  cases rest with
  | nil => simp
  | cons c rest => simp [longest c rfl]

/-- A run of characters is a reference without braces. -/
theorem reference?_run (some_ : body ≠ []) (all : ∀ c ∈ body, isReferenceChar c = true)
    (longest : ∀ c ∈ rest.head?, isReferenceChar c = false) :
    reference? (body ++ rest) = some (reference body, body.length) := by
  have whole := takeWhile_run all longest
  obtain ⟨c, body, rfl⟩ := List.exists_cons_of_ne_nil some_
  unfold reference?
  split
  · rename_i inner same
    obtain ⟨rfl, -⟩ := List.cons.inj same
    exact absurd (all _ List.mem_cons_self) (by decide)
  · rw [whole]
    rfl

/-- Neither braces that are not closed nor a character that no reference has are a reference. -/
theorem reference?_none (unnamed : ∀ c ∈ rest.head?, isReferenceChar c = false)
    (unclosed : ∀ inner, rest = '\x7b' :: inner → '\x7d' ∉ inner) : reference? rest = none := by
  unfold reference?
  split
  · rename_i inner
    have all : inner.takeWhile (· != '\x7d') = inner := by
      refine List.takeWhile_eq_self_iff.mpr fun c member => bne_iff_ne.mpr ?_
      rintro rfl
      exact unclosed inner rfl member
    simp [all]
  · cases rest with
    | nil => rfl
    | cons c rest => simp [unnamed c rfl]

/-- Where a reference without braces begins, there is a longest one. -/
theorem exists_run (begins : ¬∀ c ∈ template.head?, isReferenceChar c = false) : ∃ body rest,
    template = body ++ rest ∧ body ≠ [] ∧ (∀ c ∈ body, isReferenceChar c = true) ∧
      ∀ c ∈ rest.head?, isReferenceChar c = false := by
  refine ⟨template.takeWhile isReferenceChar, template.dropWhile isReferenceChar,
    List.takeWhile_append_dropWhile.symm, fun empty => begins fun c first => ?_,
    fun c inside => List.mem_takeWhile_imp inside, fun c first => ?_⟩
  · obtain ⟨rest, rfl⟩ := List.head?_eq_some_iff.mp first
    rw [← Bool.not_eq_true]
    intro named
    rw [List.takeWhile_cons_of_pos named] at empty
    exact List.cons_ne_nil _ _ empty
  · have ends := List.head?_dropWhile_not isReferenceChar template
    rwa [first] at ends

/-! ## 2. Expanding -/

theorem expand_dollar (single : rest.head? ≠ some '$') : expand value ('$' :: rest) =
    match reference? rest with
    | some (r, length) => value r ++ expandFrom value length rest
    | none => '$' :: expand value rest := by
  rw [expand, expandFrom]
  · rfl
  · rintro rest rfl
    exact single rfl

theorem expand_run (some_ : body ≠ []) (all : ∀ c ∈ body, isReferenceChar c = true)
    (longest : ∀ c ∈ rest.head?, isReferenceChar c = false) :
    expand value ('$' :: (body ++ rest)) = value (reference body) ++ expand value rest := by
  have single : (body ++ rest).head? ≠ some '$' := by
    obtain ⟨c, body, rfl⟩ := List.exists_cons_of_ne_nil some_
    intro same
    obtain rfl : c = '$' := by simpa using same
    exact absurd (all _ List.mem_cons_self) (by decide)
  rw [expand_dollar single, reference?_run some_ all longest]
  exact congrArg (value (reference body) ++ ·) (expandFrom_skip value body rest)

theorem Expands.expand_eq (h : Expands value template out) : expand value template = out := by
  induction h with
  | done => rfl
  | plain other _ ih => rw [expand_cons value other, ih]
  | pair _ ih => rw [← ih]; rfl
  | braced first _ ih => rw [expand_reference value first, ih]
  | run some all longest _ ih => rw [expand_run some all longest, ih]
  | lone single unnamed unclosed _ ih =>
    rw [expand_dollar single, reference?_none unnamed unclosed, ih]

/-- Every template comes to something. -/
theorem exists_expands (value : Reference → List Char) (template : List Char) :
    ∃ out, Expands value template out := by
  induction length : template.length using Nat.strongRecOn generalizing template with
  | ind length ih =>
    subst length
    obtain _ | ⟨c, rest⟩ := template
    · exact ⟨_, .done⟩
    have next : ∀ rest', rest' <:+ rest → ∃ out, Expands value rest' out := fun rest' behind =>
      ih _ (Nat.lt_succ_of_le behind.length_le) rest' rfl
    by_cases other : c = '$'
    · subst other
      by_cases single : rest.head? = some '$'
      · obtain ⟨rest, rfl⟩ := List.head?_eq_some_iff.mp single
        obtain ⟨out, later⟩ := next rest (List.suffix_cons ..)
        exact ⟨_, .pair later⟩
      by_cases named : ∀ c ∈ rest.head?, isReferenceChar c = false
      · by_cases closed : ∃ inner, rest = '\x7b' :: inner ∧ '\x7d' ∈ inner
        · obtain ⟨inner, rfl, closed⟩ := closed
          obtain ⟨body, rest, rfl, first⟩ := List.eq_append_cons_of_mem closed
          obtain ⟨out, later⟩ := next rest ⟨'\x7b' :: (body ++ ['\x7d']), by simp⟩
          exact ⟨_, .braced first later⟩
        · obtain ⟨out, later⟩ := next rest List.suffix_rfl
          exact ⟨_, .lone single named (fun inner same inside => closed ⟨inner, same, inside⟩) later⟩
      · obtain ⟨body, rest, rfl, some, all, longest⟩ := exists_run named
        obtain ⟨out, later⟩ := next rest (List.suffix_append ..)
        exact ⟨_, .run some all longest later⟩
    · obtain ⟨out, later⟩ := next rest List.suffix_rfl
      exact ⟨_, .plain other later⟩

/-- Expanding a template writes what the template says. -/
theorem expand_eq_iff : expand value template = out ↔ Expands value template out := by
  refine ⟨?_, Expands.expand_eq⟩
  rintro rfl
  obtain ⟨out, expands⟩ := exists_expands value template
  rwa [expands.expand_eq]

end Expanding

end ModelLoading.Pattern.Template
