import ModelLoading.Proofs.Conversion.Bodies

/-!
# The arguments of a call

The pattern for the arguments of a call matches the texts whose parentheses are balanced and nest at most
one deep, all of them and nothing else (`mem_ways_arguments`). Two such texts that a closing parenthesis
follows are the same if one begins the other, so the pattern finds the parenthesis that closes the call.
-/

namespace ModelLoading.Conversion

open Pattern

/-! ## 1. Texts with calls in them -/

/-- Balanced parentheses that nest at most one deep. -/
structure Shallow (s : List Char) : Prop where
  balanced : s.count '(' = s.count ')'
  depth : ∀ p, p <+: s → p.count ')' ≤ p.count '(' ∧ p.count '(' ≤ p.count ')' + 1

/-- Characters other than parentheses, and texts of such characters between parentheses. -/
inductive Arguments : List Char → Prop
  | nil : Arguments []
  | plain {c : Char} {s : List Char} (other : c ≠ '(' ∧ c ≠ ')') (rest : Arguments s) : Arguments (c :: s)
  | call {inner s : List Char} (plain : Unparenthesized inner) (rest : Arguments s) :
      Arguments ('(' :: (inner ++ ')' :: s))

section Texts

variable {a b s inner : List Char}

theorem Unparenthesized.count (h : Unparenthesized s) : s.count '(' = 0 ∧ s.count ')' = 0 :=
  ⟨List.count_eq_zero.mpr fun inside => (h _ inside).1 rfl,
    List.count_eq_zero.mpr fun inside => (h _ inside).2 rfl⟩

theorem Unparenthesized.of_front (h : Unparenthesized s) {p : List Char} (front : p <+: s) :
    Unparenthesized p := fun c hc => h c (front.subset hc)

theorem Unparenthesized.arguments (h : Unparenthesized s) : Arguments s := by
  induction s with
  | nil => exact .nil
  | cons c s ih => exact .plain (h c (by simp)) (ih fun d hd => h d (by simp [hd]))

theorem Arguments.append (ha : Arguments a) (hb : Arguments b) : Arguments (a ++ b) := by
  induction ha with
  | nil => exact hb
  | plain other _ ih => exact .plain other ih
  | call plain _ ih =>
    rw [List.cons_append, List.append_assoc]
    exact .call plain ih

/-- A beginning of a text ends before a character or behind it. -/
theorem prefix_append_cons_cases {c : Char} {p : List Char} (front : p <+: a ++ c :: b) :
    p <+: a ∨ ∃ q, p = a ++ c :: q ∧ q <+: b := by
  obtain ⟨t, split⟩ := front
  rcases List.append_eq_append_iff.mp split with ⟨k, rfl, -⟩ | ⟨k, rfl, behind⟩
  · exact .inl (List.prefix_append p k)
  · cases k with
    | nil => exact .inl (by simp)
    | cons d q =>
      obtain ⟨rfl, rfl⟩ := List.cons.inj behind
      exact .inr ⟨q, rfl, List.prefix_append q t⟩

theorem Arguments.shallow (h : Arguments s) : Shallow s := by
  induction h with
  | nil => exact ⟨rfl, fun p front => by simp [List.prefix_nil.mp front]⟩
  | @plain c s other _ ih =>
    refine ⟨?_, fun p front => ?_⟩
    · rw [List.count_cons_of_ne other.1, List.count_cons_of_ne other.2]
      exact ih.balanced
    · rcases List.prefix_cons_iff.mp front with rfl | ⟨p, rfl, rest⟩
      · simp
      · rw [List.count_cons_of_ne other.1, List.count_cons_of_ne other.2]
        exact ih.depth p rest
  | @call inner s plain _ ih =>
    obtain ⟨opening, closing⟩ := plain.count
    refine ⟨by simp [opening, closing, ih.balanced], fun p front => ?_⟩
    rcases List.prefix_cons_iff.mp front with rfl | ⟨p, rfl, rest⟩
    · simp
    · rcases prefix_append_cons_cases rest with inside | ⟨q, rfl, behind⟩
      · obtain ⟨opening, closing⟩ := (plain.of_front inside).count
        simp [opening, closing]
      · have := ih.depth q behind
        simpa [opening, closing] using this

/-- What follows such a text in another one is such a text. -/
theorem Shallow.of_append (ha : Shallow a) (h : Shallow (a ++ b)) : Shallow b := by
  have front := ha.balanced
  refine ⟨?_, fun p here => ?_⟩
  · have whole := h.balanced
    rw [List.count_append, List.count_append] at whole
    omega
  · have whole := h.depth (a ++ p) ((List.prefix_append_right_inj a).mpr here)
    rw [List.count_append, List.count_append] at whole
    omega

/-- A text has no parentheses, or it has a first one. -/
theorem exists_parenthesis (s : List Char) : Unparenthesized s ∨
    ∃ inner c rest, s = inner ++ c :: rest ∧ Unparenthesized inner ∧ (c = '(' ∨ c = ')') := by
  have none : Unparenthesized [] := fun c hc => absurd hc List.not_mem_nil
  induction s with
  | nil => exact .inl none
  | cons d s ih =>
    by_cases here : d = '(' ∨ d = ')'
    · exact .inr ⟨[], d, s, rfl, none, here⟩
    · have goesOn : ∀ {t}, Unparenthesized t → Unparenthesized (d :: t) := fun plain =>
        List.forall_mem_cons.mpr ⟨not_or.mp here, plain⟩
      rcases ih with plain | ⟨inner, c, rest, rfl, plain, parenthesis⟩
      · exact .inl (goesOn plain)
      · exact .inr ⟨d :: inner, c, rest, rfl, goesOn plain, parenthesis⟩

theorem Shallow.arguments (h : Shallow s) : Arguments s := by
  induction length : s.length using Nat.strongRecOn generalizing s with
  | ind length ih =>
    subst length
    rcases exists_parenthesis s with plain | ⟨inner, c, rest, rfl, plain, rfl | rfl⟩
    · exact plain.arguments
    · obtain ⟨opening, closing⟩ := plain.count
      rcases exists_parenthesis rest with plain' | ⟨inner', c, rest, rfl, plain', rfl | rfl⟩
      · -- it is not closed
        obtain ⟨opening', closing'⟩ := plain'.count
        have := h.balanced
        simp [opening, closing, opening', closing'] at this
      · -- the next one opens one more
        obtain ⟨opening', closing'⟩ := plain'.count
        have := h.depth (inner ++ '(' :: (inner' ++ ['('])) (by simp)
        simp [opening, closing, opening', closing'] at this
      · have call : Arguments (inner ++ '(' :: (inner' ++ ')' :: [])) :=
          plain.arguments.append (.call plain' .nil)
        have split : inner ++ '(' :: (inner' ++ ')' :: rest) =
            (inner ++ '(' :: (inner' ++ ')' :: [])) ++ rest := by simp
        rw [split] at h ih ⊢
        have shorter : rest.length < (inner ++ '(' :: (inner' ++ ')' :: []) ++ rest).length := by
          simp
          omega
        exact call.append (ih _ shorter (call.shallow.of_append h) rfl)
    · -- nothing is open
      obtain ⟨opening, closing⟩ := plain.count
      have := h.depth (inner ++ [')']) (by simp)
      simp [opening, closing] at this

/-- The arguments of a call end at the only parenthesis that can close it. -/
theorem Shallow.eq_of_append {x y : List Char} (ha : Shallow a) (hb : Shallow b)
    (split : a ++ ')' :: x = b ++ ')' :: y) : a = b ∧ x = y := by
  -- where one of them goes on, the parenthesis would close what is not open
  have ends : ∀ {a k : List Char}, Shallow a → ¬Shallow (a ++ ')' :: k) := by
    intro a k ha whole
    have closed := whole.depth (a ++ [')']) ⟨k, by simp⟩
    have balanced := ha.balanced
    simp at closed
    omega
  rcases List.append_eq_append_iff.mp split with ⟨k, rfl, behind⟩ | ⟨k, rfl, behind⟩
  · cases k with
    | nil => simpa using behind
    | cons c k =>
      obtain ⟨rfl, -⟩ := List.cons.inj behind
      exact absurd hb (ends ha)
  · cases k with
    | nil => simpa using behind.symm
    | cons c k =>
      obtain ⟨rfl, -⟩ := List.cons.inj behind
      exact absurd ha (ends hb)

end Texts

/-! ## 2. Ways -/

section Ways

variable {s t : Spot} {text : List Char}

/-- A character other than a parenthesis, or a text of such characters between parentheses. -/
def argumentsRound : Expr :=
  .alt (.one noParenthesis) (.sequence [.char '(', .repeated 0 none true (.one noParenthesis), .char ')'])

theorem mem_ways_call (plain : Unparenthesized text) (stands : '(' :: (text ++ [')']) <+: s.place.rest) :
    s.after ('(' :: (text ++ [')'])) ∈ argumentsRound.ways s := by
  obtain ⟨rest, split⟩ := stands
  have opens : s.place.rest = ['('] ++ (text ++ ([')'] ++ rest)) := by simp [← split]
  have inside := Spot.rest_after opens
  have closes := Spot.rest_after inside
  refine List.mem_append_right _ ?_
  rw [ways_sequence_cons, List.mem_flatMap]
  refine ⟨_, mem_ways_char ⟨_, opens.symm⟩, ?_⟩
  rw [ways_sequence_cons, List.mem_flatMap]
  refine ⟨(s.after ['(']).after text, ?_, ?_⟩
  · rw [Expr.ways, rounds]
    exact mem_star (fun s c stands ok => mem_ways_one stands ((mem_noParenthesis c).mpr ok))
      ⟨_, inside.symm⟩ plain
  · have whole : s.after ('(' :: (text ++ [')'])) = ((s.after ['(']).after text).after [')'] := by
      rw [Spot.after_append, Spot.after_append]
      rfl
    rw [whole]
    exact mem_ways_char ⟨rest, closes.symm⟩

/-- Arguments are a way of their pattern. -/
theorem mem_ways_arguments (h : Arguments text) (stands : text <+: s.place.rest) :
    s.after text ∈ argumentsTree.expr.ways s := by
  change _ ∈ rounds argumentsRound.ways true 0 none s
  rw [rounds]
  induction h generalizing s with
  | nil => exact after_nil_mem_star s
  | @plain c text other _ ih =>
    have first : [c] <+: s.place.rest := (List.prefix_append [c] text).trans stands
    refine mem_star_append (a := [c]) (by simp) stands (List.mem_append_left _ ?_) ih
    exact mem_ways_one first ((mem_noParenthesis c).mpr other)
  | @call inner text plain _ ih =>
    have split : '(' :: (inner ++ ')' :: text) = ('(' :: (inner ++ [')'])) ++ text := by simp
    rw [split] at stands ⊢
    have first := (List.prefix_append ('(' :: (inner ++ [')'])) text).trans stands
    exact mem_star_append (by simp) stands (mem_ways_call plain first) ih

/-- One round passes arguments. -/
theorem passes_of_mem_ways_argumentsRound (h : t ∈ argumentsRound.ways s) :
    ∃ text, Arguments text ∧ s.place.Passes text t.place := by
  rcases List.mem_append.mp h with one | call
  · obtain ⟨c, member, passes⟩ := passes_of_mem_ways_one one
    exact ⟨[c], .plain ((mem_noParenthesis c).mp member) .nil, passes⟩
  · rw [ways_sequence_cons, List.mem_flatMap] at call
    obtain ⟨u, opens, call⟩ := call
    rw [ways_sequence_cons, List.mem_flatMap] at call
    obtain ⟨v, inside, closes⟩ := call
    obtain ⟨inner, ⟨passes, only⟩, -⟩ := passes_of_mem_ways inside
    have plain : Unparenthesized inner := fun c hc =>
      (mem_noParenthesis c).mp (only (noParenthesis.mem · = true) (fun _ => id) c hc)
    refine ⟨['('] ++ (inner ++ [')']), .call plain .nil, ?_⟩
    exact (passes_of_mem_ways_char opens).trans (passes.trans (passes_of_mem_ways_char closes))

/-- What the pattern of arguments passes are arguments. -/
theorem passes_of_mem_ways_arguments (h : t ∈ argumentsTree.expr.ways s) :
    ∃ text, Arguments text ∧ s.place.Passes text t.place := by
  change _ ∈ rounds argumentsRound.ways true 0 none s at h
  refine rounds_induction (P := fun u => ∃ text, Arguments text ∧ s.place.Passes text u.place) ?_
    ⟨[], .nil, .refl _⟩ h
  rintro u v ⟨a, arguments, passes⟩ further
  obtain ⟨b, arguments', passes'⟩ := passes_of_mem_ways_argumentsRound further
  exact ⟨a ++ b, arguments.append arguments', passes.trans passes'⟩

end Ways

end ModelLoading.Conversion
