import Mathlib.Algebra.Group.Int.Defs
import Mathlib.Data.List.Basic
import Mathlib.Tactic.Ring
import ModelLoading.Text.Split

/-!
# Sweeps through a text

A sweep goes through a text from left to right. At every place it either finds nothing and keeps the
next character, or it puts something else in the place of what it finds and goes on behind it
(`Sweep`). Replacing the occurrences of a text is a sweep (`sweep_replaceAll`), and so is replacing
the matches of a pattern.

What a sweep keeps is shown by looking at one change at a time: `Sweep.keeps` is about a property of
the whole text that no change ends, `Sweep.measure` about a number that every change alters alike.
-/

namespace ModelLoading.Text

/-! ## 1. Sweeps -/

/-- What may be put in the place of what is found: given the character before it, what is found, what
takes its place, and the text behind it. -/
abbrev Swap := Option Char → List Char → List Char → List Char → Prop

/-- Where nothing is found: given the character before the place, and the text from there on. -/
abbrev Stay := Option Char → List Char → Prop

/-- One text becomes another by a sweep from left to right that makes a number of changes. -/
inductive Sweep (swap : Swap) (stay : Stay) :
    (before : Option Char) → (s t : List Char) → (changes : Nat) → Prop
  /-- The text is at its end. -/
  | done {before : Option Char} : Sweep swap stay before [] [] 0
  /-- Nothing is found. -/
  | keep {before : Option Char} {c : Char} {s t : List Char} {n : Nat} (here : stay before (c :: s))
      (rest : Sweep swap stay (some c) s t n) : Sweep swap stay before (c :: s) (c :: t) n
  /-- Something is found. -/
  | swap {before : Option Char} {old new s t : List Char} {n : Nat} (here : swap before old new s)
      (some : old ≠ []) (rest : Sweep swap stay (old.getLast?.or before) s t n) :
      Sweep swap stay before (old ++ s) (new ++ t) (n + 1)

namespace Sweep

variable {swap swap' : Swap} {stay stay' : Stay} {before : Option Char} {s t : List Char} {n : Nat}

theorem mono (h : Sweep swap stay before s t n)
    (swaps : ∀ before old new rest, swap before old new rest → swap' before old new rest)
    (stays : ∀ before s, stay before s → stay' before s) : Sweep swap' stay' before s t n := by
  induction h with
  | done => exact done
  | keep here _ ih => exact keep (stays _ _ here) ih
  | swap here some _ ih => exact Sweep.swap (swaps _ _ _ _ here) some ih

/-- A property of a text that no change ends is kept by a sweep, whatever stands before the text. -/
theorem keeps {P : List Char → Prop}
    (each : ∀ before old new rest x, swap before old new rest → P (x ++ (old ++ rest)) →
      P (x ++ (new ++ rest)))
    (h : Sweep swap stay before s t n) {x : List Char} (start : P (x ++ s)) : P (x ++ t) := by
  induction h generalizing x with
  | done => exact start
  | @keep before c s t n here rest ih =>
    have := ih (x := x ++ [c]) (by simpa using start)
    simpa using this
  | @swap before old new s t n here some rest ih =>
    have := ih (x := x ++ new) (by simpa using each _ _ _ _ _ here start)
    simpa using this

/-- Where every change keeps the last character, the text in front ends as it did. -/
theorem keeps_behind {P : List Char → Prop}
    (each : ∀ old new rest x, swap x.getLast? old new rest → P (x ++ (old ++ rest)) → P (x ++ (new ++ rest)))
    (ends : ∀ before old new rest, swap before old new rest → new.getLast? = old.getLast?)
    (h : Sweep swap stay before s t n) {x : List Char} (place : x.getLast? = before) (start : P (x ++ s)) :
    P (x ++ t) := by
  induction h generalizing x with
  | done => exact start
  | @keep before c s t n here rest ih =>
    have := ih (x := x ++ [c]) (by simp) (by simpa using start)
    simpa using this
  | @swap before old new s t n here some rest ih =>
    subst place
    have := ih (x := x ++ new) (by rw [List.getLast?_append, ends _ _ _ _ here])
      (by simpa using each _ _ _ _ here start)
    simpa using this

/-- A number that adds up along a text, and that every change alters by the same amount. -/
theorem measure {f : List Char → Int} (append : ∀ a b, f (a ++ b) = f a + f b) {d : Int}
    (each : ∀ before old new rest, swap before old new rest → f new = f old + d)
    (h : Sweep swap stay before s t n) : f t = f s + n * d := by
  induction h with
  | done => simp
  | @keep before c s t n here rest ih =>
    have kept : ∀ u, f (c :: u) = f [c] + f u := append [c]
    rw [kept t, kept s, ih, add_assoc]
  | @swap before old new s t n here some rest ih =>
    rw [append, append, ih, each _ _ _ _ here]
    push_cast
    ring

/-- Nothing comes of nothing. -/
theorem eq_nil (h : Sweep swap stay before [] t n) : t = [] ∧ n = 0 := by
  generalize empty : [] = s at h
  cases h with
  | done => exact ⟨rfl, rfl⟩
  | keep => cases empty
  | swap _ some _ => exact absurd (List.append_eq_nil_iff.mp empty.symm).1 some

/-- A sweep that finds nothing leaves the text, and makes no change. -/
theorem eq_of_nowhere (h : Sweep swap stay before s t n)
    (nowhere : ∀ l old new rest, s = l ++ (old ++ rest) → ¬swap (l.getLast?.or before) old new rest) :
    t = s ∧ n = 0 := by
  induction h with
  | done => exact ⟨rfl, rfl⟩
  | @keep before c s t n here rest ih =>
    refine (ih fun l old new rest split => ?_).imp_left (congrArg (c :: ·))
    have := nowhere (c :: l) old new rest (by rw [split]; rfl)
    rwa [List.getLast?_cons, Option.some_or, ← Option.or_some] at this
  | swap here _ _ _ => exact absurd here (nowhere [] _ _ _ rfl)

/-- A sweep passes a text in which nothing is found. -/
theorem skip {x y : List Char} (h : Sweep swap stay before (x ++ y) t n)
    (clear : ∀ x₁ x₂, x = x₁ ++ x₂ → x₂ ≠ [] → ∀ before old new rest, swap before old new rest →
      old ++ rest ≠ x₂ ++ y) : ∃ u before', t = x ++ u ∧ Sweep swap stay before' y u n := by
  induction x generalizing before t n with
  | nil => exact ⟨t, before, rfl, h⟩
  | cons c x ih =>
    generalize whole : (c :: x) ++ y = s at h
    cases h with
    | done => cases whole
    | @keep _ d s t n here rest =>
      obtain ⟨rfl, rfl⟩ := List.cons.inj whole
      obtain ⟨u, before', rfl, later⟩ := ih rest fun x₁ x₂ split =>
        clear (c :: x₁) x₂ (congrArg (c :: ·) split)
      exact ⟨u, before', rfl, later⟩
    | swap here _ _ => exact absurd whole.symm (clear [] (c :: x) rfl (List.cons_ne_nil c x) _ _ _ _ here)

/-- What a sweep leaves at the beginning was there, as far as it lacks the character with which everything
begins that is put somewhere. -/
theorem prefix_of_left {z : Char} (swaps : ∀ before old new rest, swap before old new rest → new.head? = some z)
    (h : Sweep swap stay before s t n) {m : List Char} (lacks : z ∉ m) (stands : m <+: t) : m <+: s := by
  induction h generalizing m with
  | done => exact stands
  | @keep before c s t n here rest ih =>
    cases m with
    | nil => exact List.nil_prefix
    | cons d m =>
      obtain ⟨rfl, others⟩ := List.cons_prefix_cons.mp stands
      exact List.cons_prefix_cons.mpr ⟨rfl, ih (fun later => lacks (by simp [later])) others⟩
  | @swap before old new s t n here _ rest ih =>
    obtain ⟨new, rfl⟩ := List.head?_eq_some_iff.mp (swaps _ _ _ _ here)
    cases m with
    | nil => exact List.nil_prefix
    | cons d m =>
      obtain ⟨rfl, -⟩ := List.cons_prefix_cons.mp stands
      exact absurd (by simp) lacks

/-- A sweep that puts everything in its own place leaves the text. -/
theorem eq_self (h : Sweep swap stay before s t n)
    (same : ∀ before old new rest, swap before old new rest → new = old) : t = s := by
  induction h with
  | done => rfl
  | keep _ _ ih => rw [ih]
  | swap here _ _ ih => rw [ih, same _ _ _ _ here]

/-- A sweep that can change something at one place only, and has to, changes that. -/
theorem eq_of_once {f x z result : List Char} (h : Sweep swap stay before (x ++ (f ++ z)) t n) (some : f ≠ [])
    (fronts : ∀ before old new rest, swap before old new rest → f <+: old)
    (early : ¬f <:+: x ++ f.dropLast) (late : ¬f <:+: (f ++ z).tail)
    (leaves : ¬stay (x.getLast?.or before) (f ++ z))
    (changes : ∀ before old new rest, swap before old new rest → old ++ rest = f ++ z →
      new ++ rest = result) : t = x ++ result := by
  induction x generalizing before t n with
  | nil =>
    rw [List.nil_append] at h ⊢
    generalize whole : f ++ z = s at h late leaves changes
    cases h with
    | done => exact absurd (List.append_eq_nil_iff.mp whole).1 some
    | keep here => exact absurd here leaves
    | @swap before old new s t n here nonempty rest =>
      obtain ⟨c, old, rfl⟩ := List.exists_cons_of_ne_nil nonempty
      have same := (rest.eq_of_nowhere fun l old' new' rest' split there => late <|
        (fronts _ _ _ _ there).isInfix.trans ⟨old ++ l, rest', by rw [split]; simp⟩).1
      rw [same, changes _ _ _ _ here rfl]
  | cons c x ih =>
    have place : f <+: c :: x ++ (f ++ z) → False := by
      intro front
      refine early (List.IsPrefix.isInfix ?_)
      have shorter : c :: x ++ f.dropLast <+: c :: x ++ (f ++ z) := by
        rw [List.prefix_append_right_inj]
        exact (List.dropLast_prefix f).trans (List.prefix_append f z)
      refine List.prefix_of_prefix_length_le front shorter ?_
      simp only [List.length_append, List.length_cons, List.length_dropLast]
      omega
    generalize whole : c :: x ++ (f ++ z) = s at h place
    cases h with
    | done => simp at whole
    | @keep before d s t n here rest =>
      obtain ⟨rfl, rfl⟩ := List.cons.inj whole
      rw [List.getLast?_cons, Option.some_or, ← Option.or_some] at leaves
      rw [ih rest (fun occurs => early (occurs.trans (List.suffix_cons ..).isInfix)) leaves]
      rfl
    | swap here =>
      exact absurd ((fronts _ _ _ _ here).trans (List.prefix_append ..)) place

end Sweep

/-! ## 2. Replacing a text -/

section Replacing

variable {what : List Char} (replacement : List Char)

theorem splitFrom_skip (sep piece : List Char) (skip : Nat) (s : List Char) :
    splitFrom sep piece skip s = splitFrom sep piece 0 (s.drop skip) := by
  induction s generalizing skip with
  | nil => cases skip <;> rfl
  | cons c s ih =>
    cases skip with
    | zero => rfl
    | succ skip => exact ih skip

/-- The characters since the last occurrence begin the first piece. -/
theorem splitFrom_piece (sep piece s : List Char) : ∃ first others,
    splitFrom sep [] 0 s = first :: others ∧
      splitFrom sep piece 0 s = (piece.reverse ++ first) :: others := by
  induction s generalizing piece with
  | nil => exact ⟨[], [], rfl, by simp [splitFrom]⟩
  | cons c s ih =>
    by_cases here : sep.isPrefixOf (c :: s) = true
    · exact ⟨[], _, by rw [splitFrom, if_pos here]; rfl, by rw [splitFrom, if_pos here]; simp⟩
    · obtain ⟨first, others, split, split'⟩ := ih (c :: piece)
      obtain ⟨first', others', again, split''⟩ := ih [c]
      rw [split, List.cons.injEq] at again
      obtain ⟨rfl, rfl⟩ := again
      refine ⟨c :: first, others, ?_, ?_⟩
      · rw [splitFrom, if_neg here, split'']
        rfl
      · rw [splitFrom, if_neg here, split']
        simp

theorem pieces_nil (nonempty : what ≠ []) : pieces what [] = [[]] := by
  simp [pieces, splitFrom, nonempty]

/-- An occurrence ends a piece. -/
theorem pieces_append (nonempty : what ≠ []) (s : List Char) : pieces what (what ++ s) = [] :: pieces what s := by
  obtain ⟨c, what', rfl⟩ := List.exists_cons_of_ne_nil nonempty
  have here : (c :: what').isPrefixOf (c :: (what' ++ s)) = true := by simp
  simp only [pieces, List.isEmpty_cons, Bool.false_eq_true, if_false, List.cons_append, splitFrom, here, if_true,
    List.length_cons, Nat.add_sub_cancel, List.reverse_nil]
  rw [splitFrom_skip, List.drop_left]

/-- Where there is no occurrence, the next character is a part of the first piece. -/
theorem pieces_cons (nonempty : what ≠ []) {c : Char} {s : List Char} (absent : ¬what <+: c :: s) :
    ∃ first others, pieces what s = first :: others ∧ pieces what (c :: s) = (c :: first) :: others := by
  have here : what.isPrefixOf (c :: s) = false := by
    rwa [← Bool.not_eq_true, List.isPrefixOf_iff_prefix]
  obtain ⟨first, others, split, split'⟩ := splitFrom_piece what [c] s
  have nonempty : what.isEmpty = false := by simpa using nonempty
  refine ⟨first, others, ?_, ?_⟩
  · simpa [pieces, nonempty] using split
  · simpa [pieces, nonempty, splitFrom, here] using split'

theorem pieces_ne_nil (what s : List Char) : pieces what s ≠ [] := by
  unfold pieces
  split
  · simp
  · obtain ⟨first, others, split, -⟩ := splitFrom_piece what [] s
    simp [split]

theorem replaceAll_nil (nonempty : what ≠ []) :
    replaceAll what replacement [] = [] ∧ occurrences what [] = 0 := by
  simp [replaceAll, occurrences, pieces_nil nonempty]

theorem replaceAll_cons (nonempty : what ≠ []) {c : Char} {s : List Char} (absent : ¬what <+: c :: s) :
    replaceAll what replacement (c :: s) = c :: replaceAll what replacement s ∧
      occurrences what (c :: s) = occurrences what s := by
  obtain ⟨first, others, split, split'⟩ := pieces_cons nonempty absent
  simp only [replaceAll, occurrences, split, split']
  exact ⟨by cases others <;> simp [List.intercalate_cons_cons], rfl⟩

theorem replaceAll_append (nonempty : what ≠ []) (s : List Char) :
    replaceAll what replacement (what ++ s) = replacement ++ replaceAll what replacement s ∧
      occurrences what (what ++ s) = occurrences what s + 1 := by
  obtain ⟨first, others, split⟩ := List.exists_cons_of_ne_nil (pieces_ne_nil what s)
  simp only [replaceAll, occurrences, pieces_append nonempty, split]
  exact ⟨by simp [List.intercalate_cons_cons], rfl⟩

/-- What replacing a text puts in the place of what. -/
def literalSwap (what replacement : List Char) : Swap :=
  fun _ old new _ => old = what ∧ new = replacement

/-- Where a text does not stand. -/
def literalStay (what : List Char) : Stay := fun _ s => ¬what <+: s

/-- A text is empty, or it begins with an occurrence or with a character where there is none. -/
theorem occurrence_induction (some : what ≠ []) {P : List Char → Prop} (nil : P [])
    (occurs : ∀ s, P s → P (what ++ s)) (other : ∀ c s, ¬what <+: c :: s → P s → P (c :: s)) (s : List Char) :
    P s := by
  induction length : s.length using Nat.strongRecOn generalizing s with
  | ind length ih =>
    subst length
    by_cases here : what <+: s
    · obtain ⟨s, rfl⟩ := here
      have shorter : s.length < (what ++ s).length := by
        have := List.length_pos_of_ne_nil some
        rw [List.length_append]
        omega
      exact occurs s (ih _ shorter s rfl)
    · cases s with
      | nil => exact nil
      | cons c s => exact other c s here (ih _ (by simp) s rfl)

/-- Replacing the occurrences of a text is a sweep. -/
theorem sweep_replaceAll (nonempty : what ≠ []) (before : Option Char) (s : List Char) :
    Sweep (literalSwap what replacement) (literalStay what) before s
      (replaceAll what replacement s) (occurrences what s) := by
  induction s using occurrence_induction nonempty generalizing before with
  | nil =>
    obtain ⟨text, count⟩ := replaceAll_nil replacement nonempty
    rw [text, count]
    exact .done
  | occurs s ih =>
    obtain ⟨text, count⟩ := replaceAll_append replacement nonempty s
    rw [text, count]
    exact .swap ⟨rfl, rfl⟩ nonempty (ih _)
  | other c s here ih =>
    obtain ⟨text, count⟩ := replaceAll_cons replacement nonempty here
    rw [text, count]
    exact .keep here (ih _)

/-- The pieces of a text, with the separator between them, are the text. -/
theorem intercalate_pieces {sep : List Char} (nonempty : sep ≠ []) (s : List Char) :
    sep.intercalate (pieces sep s) = s :=
  (sweep_replaceAll sep nonempty none s).eq_self fun _ _ _ _ swap => swap.2.trans swap.1.symm

end Replacing

end ModelLoading.Text
