import ModelLoading.Text.Split

/-!
# Occurrences in a text that was changed

Whether a text `w` occurs in another is `w <:+: s`. A change can bring forth an occurrence that begins
or ends in what was inserted. It cannot when the inserted text is an `Enclosure` that blocks `w`:
then every occurrence lies before it, in what it encloses, or behind it (`Enclosure.Blocks.cases`).
Replacing a text by an enclosure therefore brings forth no occurrence of `w` (`not_infix_replaceAll`),
and leaves none of the text that is replaced (`not_infix_replaceAll_self`).
-/

namespace ModelLoading.Text

variable {w a b s : List Char}

/-! ## 1. Occurrences at a border -/

/-- An occurrence does not reach over a character that it lacks. -/
theorem infix_of_infix_append_cons {c : Char} (lacks : c ∉ w) (occurs : w <:+: a ++ c :: b) :
    w <:+: a ∨ w <:+: b := by
  rcases List.infix_append_iff.mp occurs with left | right | ⟨u, v, rfl, hu, hv⟩
  · exact .inl left
  · rcases List.infix_cons_iff.mp right with front | behind
    · rcases List.prefix_cons_iff.mp front with rfl | ⟨v, rfl, -⟩
      · exact .inl List.nil_infix
      · exact absurd List.mem_cons_self lacks
    · exact .inr behind
  · -- the part of the occurrence behind the border would begin with the character
    rcases List.prefix_cons_iff.mp hv with rfl | ⟨v, rfl, -⟩
    · exact .inl (by simpa using hu.isInfix)
    · exact absurd (by simp) lacks

/-- An occurrence does not end in a text without its last character. -/
theorem infix_of_infix_append {z : Char} (last : w.getLast? = some z) (lacks : z ∉ b)
    (occurs : w <:+: a ++ b) : w <:+: a := by
  have elsewhere : ∀ {v : List Char}, v.getLast? = some z → ¬v <:+: b := fun hz hv =>
    lacks (hv.mem (List.mem_of_getLast? hz))
  rcases List.infix_append_iff.mp occurs with left | right | ⟨u, v, rfl, hu, hv⟩
  · exact left
  · exact absurd right (elsewhere last)
  · cases v with
    | nil => simpa using hu.isInfix
    | cons x v =>
      have behind : (x :: v).getLast? = some z := by
        rwa [List.getLast?_append, List.getLast?_cons, Option.some_or, ← List.getLast?_cons] at last
      exact absurd hv.isInfix (elsewhere behind)

/-- An occurrence of a text that lacks a character lies before or behind the character. -/
theorem cases_of_append_cons {c : Char} {m v : List Char} (lacks : c ∉ w)
    (split : a ++ c :: b = m ++ (w ++ v)) : (∃ k, a = m ++ (w ++ k)) ∨ ∃ k, b = k ++ (w ++ v) := by
  rcases List.append_eq_append_iff.mp split with ⟨k, rfl, hk⟩ | ⟨k, rfl, hk⟩
  · cases k with
    | nil =>
      cases w with
      | nil => exact .inl ⟨[], by simp⟩
      | cons d w => exact absurd (List.cons.inj hk).1 (by rintro rfl; simp at lacks)
    | cons d k => exact .inr ⟨k, (List.cons.inj hk).2⟩
  · rcases List.append_eq_append_iff.mp hk with ⟨j, rfl, -⟩ | ⟨j, rfl, hj⟩
    · exact .inl ⟨j, rfl⟩
    · cases j with
      | nil => exact .inl ⟨[], by simp⟩
      | cons d j => exact absurd (List.cons.inj hj).1 (by rintro rfl; simp at lacks)

/-- Two texts that are cut at the first place of a character are cut alike. -/
theorem eq_of_append_cons {c : Char} {m n : List Char} (ha : c ∉ a) (hm : c ∉ m)
    (split : a ++ c :: b = m ++ c :: n) : a = m ∧ b = n := by
  rcases List.append_eq_append_iff.mp split with ⟨k, rfl, hk⟩ | ⟨k, rfl, hk⟩
  · cases k with
    | nil => simpa using hk
    | cons d k => exact absurd (List.cons.inj hk).1 (by rintro rfl; simp at hm)
  · cases k with
    | nil => simpa using hk.symm
    | cons d k => exact absurd (List.cons.inj hk).1 (by rintro rfl; simp at ha)

/-- An occurrence that has a character once has it at its first place in the text, or lies behind that. -/
theorem infix_append_cons_cases {c : Char} {m n : List Char} (ha : c ∉ a) (hm : c ∉ m)
    (occurs : a ++ c :: b <:+: m ++ c :: n) : (a <:+ m ∧ b <+: n) ∨ a ++ c :: b <:+: n := by
  obtain ⟨l, r, split⟩ := occurs
  by_cases early : c ∈ l
  · obtain ⟨l₁, l₂, rfl, fresh⟩ := List.eq_append_cons_of_mem early
    obtain ⟨rfl, rfl⟩ := eq_of_append_cons fresh hm (by simpa using split)
    exact .inr ⟨l₂, r, by simp⟩
  · obtain ⟨rfl, rfl⟩ := eq_of_append_cons (a := l ++ a) (b := b ++ r) (by simp [early, ha]) hm
      (by simpa using split)
    exact .inl ⟨List.suffix_append .., List.prefix_append ..⟩

/-! ## 2. Enclosures -/

/-- A text that encloses another between two characters, with something in front. -/
structure Enclosure where
  front : List Char
  first : Char
  inner : List Char
  last : Char

namespace Enclosure

/-- The whole text. -/
def text (e : Enclosure) : List Char := e.front ++ e.first :: (e.inner ++ [e.last])

/-- An enclosure that no occurrence of `w` reaches into from outside: `w` has neither of the two
characters, and does not end as the front could end it. -/
structure Blocks (e : Enclosure) (w : List Char) : Prop where
  first : e.first ∉ w
  last : e.last ∉ w
  front : ∃ z, w.getLast? = some z ∧ z ∉ e.front

variable {e : Enclosure}

theorem Blocks.cases (blocks : e.Blocks w) (occurs : w <:+: a ++ (e.text ++ b)) :
    w <:+: a ∨ w <:+: e.inner ∨ w <:+: b := by
  have split : a ++ (e.text ++ b) = (a ++ e.front) ++ e.first :: (e.inner ++ e.last :: b) := by
    simp [text]
  rw [split] at occurs
  rcases infix_of_infix_append_cons blocks.first occurs with before | behind
  · obtain ⟨z, hz, lacks⟩ := blocks.front
    exact .inl (infix_of_infix_append hz lacks before)
  · exact .inr (infix_of_infix_append_cons blocks.last behind)

/-- Texts without `w` are joined by an enclosure without `w` between them. -/
theorem Blocks.not_infix_intercalate (blocks : e.Blocks w) (inner : ¬w <:+: e.inner)
    {parts : List (List Char)} (each : ∀ p ∈ parts, ¬w <:+: p) : ¬w <:+: e.text.intercalate parts := by
  induction parts with
  | nil =>
    intro occurs
    obtain rfl := List.eq_nil_of_infix_nil occurs
    exact inner List.nil_infix
  | cons p parts ih =>
    cases parts with
    | nil =>
      rw [List.intercalate_singleton]
      exact each p (by simp)
    | cons q parts =>
      rw [List.intercalate_cons_cons, List.append_assoc]
      intro occurs
      rcases blocks.cases occurs with before | inside | behind
      · exact each p (by simp) before
      · exact inner inside
      · exact ih (fun r hr => each r (by simp [hr])) behind

end Enclosure

/-! ## 3. Replacing -/

theorem infix_of_mem_splitFrom {sep piece : List Char} {skip : Nat} {p : List Char}
    (hp : p ∈ splitFrom sep piece skip s) : p <:+: piece.reverse ++ s.drop skip := by
  fun_induction splitFrom sep piece skip s with
  | case1 piece skip =>
    obtain rfl := List.mem_singleton.mp hp
    exact List.infix_append_left
  | case2 piece skip c rest ih => exact ih hp
  | case3 piece c rest here ih =>
    rcases List.mem_cons.mp hp with rfl | later
    · exact List.infix_append_left
    · have inside := (ih later).trans (List.drop_suffix ..).isInfix
      exact List.infix_append_of_infix_right (List.infix_cons inside)
  | case4 piece c rest elsewhere ih =>
    have inside := ih hp
    rwa [List.reverse_cons, List.append_assoc] at inside

/-- Every piece between occurrences is a part of the text. -/
theorem infix_of_mem_pieces {sep p : List Char} (hp : p ∈ pieces sep s) : p <:+: s := by
  unfold pieces at hp
  split at hp
  · simp only [List.cons_append, List.mem_cons, List.mem_append, List.mem_map, List.not_mem_nil,
      or_false] at hp
    rcases hp with rfl | ⟨c, hc, rfl⟩ | rfl
    · exact List.nil_infix
    · obtain ⟨before, after, rfl⟩ := List.append_of_mem hc
      exact List.infix_append' before [c] after
    · exact List.nil_infix
  · exact infix_of_mem_splitFrom hp

/-- No piece contains the separator, if none begins in the characters that were read before. -/
theorem not_infix_of_mem_splitFrom {sep piece : List Char} {skip : Nat} {p : List Char}
    (nonempty : sep ≠ [])
    (begun : ∀ q, q ≠ [] → q <:+ piece.reverse → ¬sep <+: q ++ s.drop skip)
    (hp : p ∈ splitFrom sep piece skip s) : ¬sep <:+: p := by
  have whole : ∀ {piece rest : List Char},
      (∀ q, q ≠ [] → q <:+ piece.reverse → ¬sep <+: q ++ rest) → ¬sep <:+: piece.reverse := by
    intro piece rest begun occurs
    obtain ⟨q, front, behind⟩ := List.infix_iff_prefix_suffix.mp occurs
    refine begun q (fun empty => ?_) behind (front.trans (List.prefix_append ..))
    subst empty
    exact nonempty (List.prefix_nil.mp front)
  fun_induction splitFrom sep piece skip s with
  | case1 piece skip =>
    obtain rfl := List.mem_singleton.mp hp
    exact whole begun
  | case2 piece skip c rest ih => exact ih begun hp
  | case3 piece c rest here ih =>
    rcases List.mem_cons.mp hp with rfl | later
    · exact whole begun
    · refine ih (fun q hq behind => ?_) later
      exact absurd (List.suffix_nil.mp behind) hq
  | case4 piece c rest elsewhere ih =>
    refine ih (fun q hq behind occurs => ?_) hp
    rw [List.reverse_cons] at behind
    -- what ends in the character is it alone, or begins before it
    rcases List.suffix_concat_iff.mp behind with rfl | ⟨q, rfl, before⟩
    · exact hq rfl
    · rw [List.append_assoc] at occurs
      by_cases empty : q = []
      · subst empty
        exact elsewhere (List.isPrefixOf_iff_prefix.mpr occurs)
      · exact begun q empty before occurs

theorem not_infix_of_mem_pieces {sep p : List Char} (nonempty : sep ≠ [])
    (hp : p ∈ pieces sep s) : ¬sep <:+: p := by
  rw [pieces, if_neg (by simpa using nonempty)] at hp
  refine not_infix_of_mem_splitFrom nonempty (fun q hq behind => ?_) hp
  exact absurd (List.suffix_nil.mp behind) hq

section Replacing

variable {e : Enclosure} {what : List Char}

/-- Replacing a text by an enclosure brings forth no occurrence of a text that the enclosure blocks. -/
theorem not_infix_replaceAll (blocks : e.Blocks w) (inner : ¬w <:+: e.inner) (absent : ¬w <:+: s) :
    ¬w <:+: replaceAll what e.text s :=
  blocks.not_infix_intercalate inner fun _ hp occurs => absent (occurs.trans (infix_of_mem_pieces hp))

/-- Replacing a text by an enclosure that blocks it leaves no occurrence of it. -/
theorem not_infix_replaceAll_self (blocks : e.Blocks what) (inner : ¬what <:+: e.inner) :
    ¬what <:+: replaceAll what e.text s := by
  have nonempty : what ≠ [] := by
    rintro rfl
    exact inner List.nil_infix
  exact blocks.not_infix_intercalate inner fun _ hp => not_infix_of_mem_pieces nonempty hp

end Replacing

end ModelLoading.Text
