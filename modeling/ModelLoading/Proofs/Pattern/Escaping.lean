import ModelLoading.Pattern.Regex

/-!
# Escaped text in a pattern

Escaped text is read as its characters, whatever follows it (`readAll_escape_append`). So a pattern of
escaped text and a fixed rest has the items of the rest with these characters in front
(`Reads.escape_append`), and it can only be refused for its size (`Regex.parse_of_reads`).
-/

namespace ModelLoading.Pattern

/-! ## 1. Tokens -/

namespace Token

theorem read_sign {c : Char} (sign : isSign c = true) (rest : List Char) :
    read '\\' (c :: rest) = .ok (.char c, rest) := by
  simp only [isSign, List.mem_cons, List.not_mem_nil, or_false, decide_eq_true_eq] at sign
  rcases sign with rfl | rfl | rfl | rfl | rfl | rfl | rfl | rfl | rfl | rfl | rfl | rfl | rfl | rfl |
    rfl | rfl | rfl | rfl <;> rfl

theorem read_plain {c : Char} (plain : isSign c = false) (rest : List Char) :
    read c rest = .ok (.char c, rest) := by
  unfold read
  split
  case h_13 => rfl
  all_goals simp [isSign] at plain

/-- More fuel changes nothing. -/
theorem readWithin_mono {fuel more : Nat} {s : List Char} {tokens : List Token}
    (enough : readWithin fuel s = .ok tokens) (le : fuel ≤ more) :
    readWithin more s = .ok tokens := by
  induction fuel generalizing more s tokens with
  | zero =>
    cases s with
    | nil => simpa [readWithin] using enough
    | cons c s => simp [readWithin] at enough
  | succ fuel ih =>
    cases s with
    | nil => simpa [readWithin] using enough
    | cons c s =>
      obtain ⟨more, rfl⟩ : ∃ n, more = n + 1 := ⟨more - 1, by omega⟩
      rw [readWithin] at enough ⊢
      cases first : read c s with
      | error e =>
        rw [first] at enough
        cases enough
      | ok next =>
        rw [first] at enough
        obtain ⟨token, rest⟩ := next
        cases others : readWithin fuel rest with
        | error e =>
          simp only [bind, Except.bind, others] at enough
          cases enough
        | ok read =>
          have same : readWithin more rest = .ok read := ih others (by omega)
          simp only [bind, Except.bind, others] at enough
          simpa only [bind, Except.bind, same] using enough

theorem readWithin_escape_append {fuel : Nat} {rest : List Char} {tokens : List Token}
    (read : readWithin fuel rest = .ok tokens) (s : List Char) :
    readWithin (s.length + fuel) (escape s ++ rest) = .ok (s.map char ++ tokens) := by
  induction s with
  | nil => simpa [escape] using read
  | cons c s ih =>
    have fuel_eq : (c :: s).length + fuel = (s.length + fuel) + 1 := by
      rw [List.length_cons]
      omega
    have split : escape (c :: s) ++ rest =
        (if isSign c then ['\\', c] else [c]) ++ (escape s ++ rest) := by
      simp [escape]
    rw [fuel_eq, split]
    cases sign : isSign c with
    | true =>
      simp only [if_true, List.cons_append, List.nil_append, readWithin, read_sign sign, bind,
        Except.bind, ih]
      rfl
    | false =>
      simp only [Bool.false_eq_true, if_false, List.cons_append, List.nil_append, readWithin,
        read_plain sign, bind, Except.bind, ih]
      rfl

theorem length_le_length_escape (s : List Char) : s.length ≤ (escape s).length := by
  induction s with
  | nil => exact Nat.le_refl 0
  | cons c s ih =>
    rw [escape, List.flatMap_cons, List.length_append, List.length_cons]
    change _ ≤ _ + (escape s).length
    split <;> simp only [List.length_cons, List.length_nil] <;> omega

/-- Escaped text is read as its characters. -/
theorem readAll_escape_append {rest : List Char} {tokens : List Token}
    (read : readAll rest = .ok tokens) (s : List Char) :
    readAll (escape s ++ rest) = .ok (s.map char ++ tokens) := by
  refine readWithin_mono (readWithin_escape_append read s) ?_
  rw [List.length_append]
  exact Nat.add_le_add_right (length_le_length_escape s) _

end Token

/-! ## 2. Trees -/

/-- One given character. -/
def Tree.char (c : Char) : Tree := .one (.single c) 0

/-- A state in which only items were read. -/
def ParseState.reading (items : List Tree) : ParseState := { current := { items } }

theorem ParseState.take_chars (s : List Char) (items : List Tree) :
    (s.map Token.char).foldlM take (reading items) =
      .ok (reading ((s.map Tree.char).reverse ++ items)) := by
  induction s generalizing items with
  | nil => rfl
  | cons c s ih =>
    rw [List.map_cons, List.foldlM_cons]
    refine (ih (Tree.char c :: items)).trans ?_
    rw [List.map_cons, List.reverse_cons, List.append_assoc]
    rfl

/-- A written pattern of several items, at least two, in which groups may be numbered but have no
name. -/
structure Reads (source : List Char) (items : List Tree) : Prop where
  tokens : ∃ tokens, Token.readAll source = .ok tokens ∧ ∀ before, ∃ nextNumber,
    tokens.foldlM ParseState.take (.reading before) =
      .ok { ParseState.reading (items.reverse ++ before) with nextNumber }
  several : 2 ≤ items.length

namespace Reads

variable {source : List Char} {items : List Tree}

/-- Escaped text in front adds its characters. -/
theorem escape_append (h : Reads source items) (s : List Char) :
    Reads (escape s ++ source) (s.map Tree.char ++ items) := by
  obtain ⟨tokens, read, taken⟩ := h.tokens
  refine ⟨⟨_, Token.readAll_escape_append read s, fun before => ?_⟩, ?_⟩
  · obtain ⟨nextNumber, rest⟩ := taken ((s.map Tree.char).reverse ++ before)
    refine ⟨nextNumber, ?_⟩
    rw [List.foldlM_append, ParseState.take_chars, List.reverse_append, List.append_assoc]
    exact rest
  · have := h.several
    rw [List.length_append]
    omega

theorem ofTokens (h : Reads source items) : ∃ tokens, Token.readAll source = .ok tokens ∧
    Tree.ofTokens tokens = .ok (.seq items, []) := by
  obtain ⟨tokens, read, taken⟩ := h.tokens
  obtain ⟨nextNumber, state⟩ := taken []
  have seq : Tree.ofItems items = .seq items := by
    match items, h.several with
    | _ :: _ :: _, _ => rfl
  rw [List.append_nil] at state
  refine ⟨tokens, read, ?_⟩
  change (List.foldlM ParseState.take (.reading []) tokens >>= _) = _
  rw [state]
  change Except.ok (Tree.ofItems items.reverse.reverse, _) = _
  rw [List.reverse_reverse, seq]
  rfl

end Reads

theorem Tree.depthOfAll_chars_append (s : List Char) (items : List Tree) :
    Tree.depthOfAll (s.map Tree.char ++ items) = Tree.depthOfAll items := by
  induction s with
  | nil => rfl
  | cons c s ih =>
    rw [List.map_cons, List.cons_append, Tree.depthOfAll, ih]
    exact Nat.zero_max _

/-! ## 3. Patterns -/

/-- A written pattern that is not too deep is refused only if it is too large. -/
theorem Regex.parse_of_reads {source : List Char} {items : List Tree} (reads : Reads source items)
    (shallow : Tree.depthOfAll items < depthLimit) :
    Regex.parse (.ofList source) =
      if (Tree.seq items).fits then
        .ok { source := .ofList source, body := (Tree.seq items).expr, names := [] }
      else .error .tooLarge := by
  obtain ⟨tokens, read, tree⟩ := reads.ofTokens
  have depth : ¬depthLimit < (Tree.seq items).depth := by
    rw [Tree.depth]
    split <;> omega
  rw [Regex.parse, String.toList_ofList, read]
  simp only [bind, Except.bind, tree, if_neg depth]
  split <;> rfl

end ModelLoading.Pattern
