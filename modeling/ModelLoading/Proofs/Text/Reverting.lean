import ModelLoading.Proofs.Text.Apart

/-!
# Replacements that are taken back

A text is replaced everywhere, and then put back where a further text follows it. This comes to
replacing it only where that does not follow (`replaceAll_replaceAll`), provided that the text and its
replacement begin with a character that occurs nowhere else in the three texts. For then the second
replacing finds only what the first one wrote, and what follows a place is the same before and after.
-/

namespace ModelLoading.Text

/-! ## 1. Replacing on a condition -/

/-- Replaces a text where a further one does not follow it; `skip` counts the characters of an occurrence
that are still to be passed. -/
def replaceUnlessFrom (what follow replacement : List Char) : (skip : Nat) → List Char → List Char
  | _, [] => []
  | skip + 1, _ :: s => replaceUnlessFrom what follow replacement skip s
  | 0, c :: s =>
    if what.isPrefixOf (c :: s) && !(what ++ follow).isPrefixOf (c :: s) then
      replacement ++ replaceUnlessFrom what follow replacement (what.length - 1) s
    else c :: replaceUnlessFrom what follow replacement 0 s

/-- Replaces every occurrence of `what` that `follow` does not stand behind. -/
def replaceUnless (what follow replacement s : List Char) : List Char :=
  replaceUnlessFrom what follow replacement 0 s

section Conditional

variable {what follow replacement s : List Char} {c : Char}

theorem replaceUnlessFrom_skip (skip : Nat) (s : List Char) :
    replaceUnlessFrom what follow replacement skip s =
      replaceUnless what follow replacement (s.drop skip) := by
  induction s generalizing skip with
  | nil => cases skip <;> rfl
  | cons c s ih =>
    cases skip with
    | zero => rfl
    | succ skip => exact ih skip

/-- An occurrence that is not followed is replaced. -/
theorem replaceUnless_append (some : what ≠ []) (alone : ¬follow <+: s) :
    replaceUnless what follow replacement (what ++ s) =
      replacement ++ replaceUnless what follow replacement s := by
  obtain ⟨c, what, rfl⟩ := List.exists_cons_of_ne_nil some
  have unfollowed : ((c :: what) ++ follow).isPrefixOf (c :: (what ++ s)) = false := by
    rw [← Bool.not_eq_true, List.isPrefixOf_iff_prefix]
    simpa using alone
  rw [List.cons_append, replaceUnless, replaceUnlessFrom, if_pos (by rw [unfollowed]; simp),
    replaceUnlessFrom_skip]
  simp

/-- Everything else is kept. -/
theorem replaceUnless_cons (kept : what <+: c :: s → what ++ follow <+: c :: s) :
    replaceUnless what follow replacement (c :: s) = c :: replaceUnless what follow replacement s := by
  rw [replaceUnless, replaceUnlessFrom, if_neg]
  · rfl
  · simp only [Bool.and_eq_true, Bool.not_eq_true', ← Bool.not_eq_true, List.isPrefixOf_iff_prefix, not_and,
      not_not]
    exact kept

/-- Replacing on a condition is a sweep. -/
theorem sweep_replaceUnless (some : what ≠ []) (before : Option Char) (s : List Char) : ∃ count,
    Sweep (literalSwap what replacement) (fun _ s => what <+: s → what ++ follow <+: s) before s
      (replaceUnless what follow replacement s) count := by
  induction length : s.length using Nat.strongRecOn generalizing s before with
  | ind length ih =>
    subst length
    by_cases kept : what <+: s → what ++ follow <+: s
    · cases s with
      | nil => exact ⟨0, .done⟩
      | cons c s =>
        obtain ⟨count, rest⟩ := ih _ (by simp) (Option.some c) s rfl
        rw [replaceUnless_cons kept]
        exact ⟨count, .keep kept rest⟩
    · obtain ⟨⟨s, rfl⟩, unfollowed⟩ := Classical.not_imp.mp kept
      have alone : ¬follow <+: s := fun stands => unfollowed ((List.prefix_append_right_inj what).mpr stands)
      have shorter : s.length < (what ++ s).length := by
        have := List.length_pos_of_ne_nil some
        rw [List.length_append]
        omega
      obtain ⟨count, rest⟩ := ih _ shorter (what.getLast?.or before) s rfl
      rw [replaceUnless_append some alone]
      exact ⟨count + 1, .swap ⟨rfl, rfl⟩ some rest⟩

end Conditional

/-! ## 2. Texts that begin with a character of their own -/

section Marked

variable {z : Char} {a b m r s x y follow : List Char}

theorem not_prefix_of_ne {c : Char} (other : c ≠ z) : ¬z :: a <+: c :: s := fun stands =>
  other (List.cons_prefix_cons.mp stands).1.symm

/-- A text without the first character is kept. -/
theorem replaceAll_front (lacks : z ∉ x) (s : List Char) :
    replaceAll (z :: a) r (x ++ s) = x ++ replaceAll (z :: a) r s := by
  induction x with
  | nil => rfl
  | cons c x ih =>
    obtain ⟨other, lacks⟩ := not_or.mp (List.mem_cons.not.mp lacks)
    rw [List.cons_append, (replaceAll_cons r (List.cons_ne_nil z a) (not_prefix_of_ne (Ne.symm other))).1,
      ih lacks, List.cons_append]

theorem replaceUnless_front (lacks : z ∉ x) (s : List Char) :
    replaceUnless (z :: a) follow r (x ++ s) = x ++ replaceUnless (z :: a) follow r s := by
  induction x with
  | nil => rfl
  | cons c x ih =>
    obtain ⟨other, lacks⟩ := not_or.mp (List.mem_cons.not.mp lacks)
    rw [List.cons_append, replaceUnless_cons fun stands => absurd stands (not_prefix_of_ne (Ne.symm other)),
      ih lacks, List.cons_append]

/-- An occurrence that is followed is kept. -/
theorem replaceUnless_followed (lacks : z ∉ a) (s : List Char) :
    replaceUnless (z :: a) follow r ((z :: a) ++ (follow ++ s)) =
      (z :: a) ++ replaceUnless (z :: a) follow r (follow ++ s) := by
  rw [List.cons_append, replaceUnless_cons fun _ => ⟨s, by simp⟩, replaceUnless_front lacks, List.cons_append]

/-- An occurrence that does not begin where a text does begins behind it. -/
theorem exists_behind (lacks : z ∉ m) {t : List Char} (split : (z :: m) ++ t = x ++ ((z :: a) ++ y)) :
    x = [] ∨ ∃ k, t = k ++ ((z :: a) ++ y) := by
  cases x with
  | nil => exact .inl rfl
  | cons c x =>
    have split : m ++ t = x ++ z :: (a ++ y) := (List.cons.inj split).2
    rcases List.append_eq_append_iff.mp split with ⟨k, -, behind⟩ | ⟨k, rfl, inside⟩
    · exact .inr ⟨k, behind⟩
    · cases k with
      | nil => exact .inr ⟨[], inside.symm⟩
      | cons d k =>
        obtain ⟨rfl, -⟩ := List.cons.inj inside
        exact absurd (by simp) lacks

/-- What follows a place behind the replacing followed it before, if it lacks the first character. -/
theorem prefix_of_prefix_replaceAll (lacks : z ∉ m) (stands : m <+: replaceAll (z :: a) (z :: b) s) :
    m <+: s :=
  (sweep_replaceAll (z :: b) (List.cons_ne_nil z a) none s).prefix_of_left
    (fun _ _ _ _ put => put.2 ▸ rfl) lacks stands

theorem prefix_of_prefix_replaceUnless (lacks : z ∉ m)
    (stands : m <+: replaceUnless (z :: a) follow (z :: b) s) : m <+: s :=
  have ⟨_, sweep⟩ := sweep_replaceUnless (List.cons_ne_nil z a) none s
  sweep.prefix_of_left (fun _ _ _ _ put => put.2 ▸ rfl) lacks stands

/-! ## 3. Putting the text back -/

section PuttingBack

variable (ha : z ∉ a) (hb : z ∉ b) (hfollow : z ∉ follow)

include ha hb hfollow

/-- Replacing a text everywhere, and then putting it back where it is followed, is replacing it where it is
not followed. -/
theorem replaceAll_replaceAll (absent : ¬(z :: b) ++ follow <:+: s) :
    replaceAll ((z :: b) ++ follow) ((z :: a) ++ follow) (replaceAll (z :: a) (z :: b) s) =
      replaceUnless (z :: a) follow (z :: b) s := by
  have some : ∀ x : List Char, z :: x ≠ [] := List.cons_ne_nil z
  -- what the second replacing does with an end, a front, a character, and a text that is followed
  have nil := (replaceAll_nil ((z :: a) ++ follow) (some (b ++ follow))).1
  have front : ∀ {x}, z ∉ x → ∀ t, replaceAll (z :: (b ++ follow)) ((z :: a) ++ follow) (x ++ t) =
      x ++ replaceAll (z :: (b ++ follow)) ((z :: a) ++ follow) t := fun lacks => replaceAll_front lacks
  have kept : ∀ {c t}, ¬z :: (b ++ follow) <+: c :: t →
      replaceAll (z :: (b ++ follow)) ((z :: a) ++ follow) (c :: t) =
        c :: replaceAll (z :: (b ++ follow)) ((z :: a) ++ follow) t :=
    fun absent => (replaceAll_cons _ (some (b ++ follow)) absent).1
  have back : ∀ t, replaceAll (z :: (b ++ follow)) ((z :: a) ++ follow) ((z :: b) ++ (follow ++ t)) =
      (z :: a) ++ replaceAll (z :: (b ++ follow)) ((z :: a) ++ follow) (follow ++ t) := by
    intro t
    rw [front hfollow, ← List.append_assoc, ← List.append_assoc]
    exact (replaceAll_append _ (some (b ++ follow)) t).1
  change ¬z :: (b ++ follow) <:+: s at absent
  change replaceAll (z :: (b ++ follow)) ((z :: a) ++ follow) (replaceAll (z :: a) (z :: b) s) = _
  generalize replaceAll (z :: (b ++ follow)) ((z :: a) ++ follow) = second at nil front kept back ⊢
  induction s using occurrence_induction (some a) with
  | nil => rw [(replaceAll_nil _ (some a)).1, nil, replaceUnless, replaceUnlessFrom]
  | occurs s ih =>
    have ih := ih fun occurs => absent (occurs.trans (List.suffix_append ..).isInfix)
    rw [(replaceAll_append _ (some a) s).1]
    by_cases follows : follow <+: s
    · -- the place is put back
      obtain ⟨t, rfl⟩ := follows
      rw [replaceAll_front hfollow, back, ← replaceAll_front hfollow, ih, replaceUnless_followed ha]
    · -- the place stays replaced
      have unfollowed : ¬z :: (b ++ follow) <+: z :: (b ++ replaceAll (z :: a) (z :: b) s) := fun stands =>
        follows <| prefix_of_prefix_replaceAll hfollow <|
          (List.prefix_append_right_inj b).mp (List.cons_prefix_cons.mp stands).2
      rw [List.cons_append, kept unfollowed, front hb, ih, replaceUnless_append (some a) follows,
        List.cons_append]
  | other c s here ih =>
    have ih := ih fun occurs => absent (occurs.trans (List.suffix_cons ..).isInfix)
    have unfollowed : ¬z :: (b ++ follow) <+: c :: replaceAll (z :: a) (z :: b) s := by
      intro stands
      obtain ⟨rfl, behind⟩ := List.cons_prefix_cons.mp stands
      have stood : b ++ follow <+: s :=
        prefix_of_prefix_replaceAll (List.mem_append.not.mpr (not_or.mpr ⟨hb, hfollow⟩)) behind
      exact absent (List.cons_prefix_cons.mpr ⟨rfl, stood⟩).isInfix
    rw [(replaceAll_cons _ (some a) here).1, kept unfollowed, ih, replaceUnless_cons fun stands => absurd stands here]

/-- Where the text is left that is replaced unless it is followed, it is followed. -/
theorem follow_of_replaceUnless (apart : ¬Agree (z :: b) (z :: a))
    (split : replaceUnless (z :: a) follow (z :: b) s = x ++ ((z :: a) ++ y)) : follow <+: y := by
  induction s using occurrence_induction (List.cons_ne_nil z a) generalizing x with
  | nil => simp [replaceUnless, replaceUnlessFrom] at split
  | occurs s ih =>
    by_cases follows : follow <+: s
    · obtain ⟨t, rfl⟩ := follows
      rw [replaceUnless_followed ha] at split
      rcases exists_behind ha split with rfl | ⟨k, behind⟩
      · rw [List.nil_append, replaceUnless_front hfollow] at split
        exact ⟨_, List.append_cancel_left split⟩
      · exact ih behind
    · rw [replaceUnless_append (List.cons_ne_nil z a) follows] at split
      rcases exists_behind hb split with rfl | ⟨k, behind⟩
      · exact absurd (agree_of_append_eq (by simpa using split)) apart
      · exact ih behind
  | other c s here ih =>
    rw [replaceUnless_cons fun stands => absurd stands here] at split
    cases x with
    | nil =>
      obtain ⟨rfl, rest⟩ := List.cons.inj split
      have stood : a <+: s := prefix_of_prefix_replaceUnless ha ⟨y, rest.symm⟩
      exact absurd (List.cons_prefix_cons.mpr ⟨rfl, stood⟩) here
    | cons d x => exact ih (List.cons.inj split).2

end PuttingBack

end Marked

end ModelLoading.Text
