import Mathlib.Algebra.BigOperators.Ring.List
import Mathlib.Algebra.Order.BigOperators.Group.List
import Mathlib.Algebra.Order.Ring.Nat
import ModelLoading.Proofs.Pattern.Escaping

/-!
# The room that patterns take

A pattern is refused when its automata would take too much room. Given characters take at most 128
bytes each (`length_encoded_le`), and a set of characters takes room in proportion to the number of
its ranges (`setSize_le`). So a pattern that begins with escaped text is only refused if the text is very
long (`Regex.parse_escape_append`).
-/

namespace ModelLoading

/-! ## 1. Encoded characters -/

namespace Text

/-- The encodings in one block. -/
def EncodingBlock.within (b : EncodingBlock) (low high : Nat) : List (List ByteRange) :=
  if low ≤ b.high ∧ b.low ≤ high then encodingsOf b.lead (max low b.low) (min high b.high) b.more
  else []

theorem encodings_cons (range : Nat × Nat) (ranges : Ranges) :
    encodings (range :: ranges) =
      (encodingBlocks.flatMap fun b => b.within range.1 range.2) ++ encodings ranges := rfl

/-- A single number has a single encoding. -/
theorem encodingsOf_self (lead n more : Nat) :
    ∃ bytes, encodingsOf lead n n more = [bytes] ∧ bytes.length = more + 1 := by
  induction more generalizing lead n with
  | zero => exact ⟨_, rfl, rfl⟩
  | succ more ih =>
    obtain ⟨bytes, single, length⟩ := ih 0x80 (n % Nat.pow 64 (more + 1))
    rw [encodingsOf]
    simp only [if_true, single, List.map_cons, List.map_nil]
    exact ⟨_, rfl, by rw [List.length_cons, length]⟩

theorem length_encoded_le (c : Nat) : (encoded c).length ≤ 4 := by
  have bytes : ∀ b : EncodingBlock, ((b.within c c).flatMap fun bytes => bytes.map (·.1)).length =
      if c ≤ b.high ∧ b.low ≤ c then b.more + 1 else 0 := by
    intro b
    unfold EncodingBlock.within
    split
    · rename_i inside
      obtain ⟨bytes, single, length⟩ := encodingsOf_self b.lead c b.more
      rw [Nat.max_eq_left inside.2, Nat.min_eq_left inside.1, single]
      simp [length]
    · rfl
  rw [encoded, encodings_cons]
  simp only [encodingBlocks, List.flatMap_cons, List.flatMap_nil, List.flatMap_append,
    List.length_append, List.length_nil, bytes, encodings]
  -- no character is in two of the blocks
  split <;> split <;> split <;> split <;> split <;> omega

theorem length_encodingsOf_le (lead low high more : Nat) :
    (encodingsOf lead low high more).length ≤ 3 ^ more := by
  induction more generalizing lead low high with
  | zero => exact Nat.le_refl 1
  | succ more ih =>
    have three : 3 ^ (more + 1) = 3 ^ more + 3 ^ more + 3 ^ more := by omega
    have below : ∀ (byte : ByteRange) (low high : Nat),
        ((encodingsOf 0x80 low high more).map (byte :: ·)).length ≤ 3 ^ more := by
      intro byte low high
      rw [List.length_map]
      exact ih ..
    have optional : ∀ (p : Prop) [Decidable p] (xs ys : List (List ByteRange)),
        xs.length ≤ 3 ^ more → ys.length ≤ 3 ^ more → (if p then xs else ys).length ≤ 3 ^ more := by
      intro p _ xs ys hxs hys
      split <;> assumption
    have none : ([] : List (List ByteRange)).length ≤ 3 ^ more := Nat.zero_le _
    rw [encodingsOf, three]
    split
    · exact Nat.le_trans (below ..) (by omega)
    · -- the first byte and the last one may be incomplete, and there are those between them
      simp only [List.length_append]
      exact Nat.add_le_add (Nat.add_le_add (optional _ _ _ none (below ..))
        (optional _ _ _ (below ..) none)) (optional _ _ _ none (below ..))

theorem EncodingBlock.length_within_le (b : EncodingBlock) (low high : Nat) :
    (b.within low high).length ≤ 3 ^ b.more := by
  unfold within
  split
  · exact length_encodingsOf_le ..
  · exact Nat.zero_le _

theorem length_encodings_le (ranges : Ranges) : (encodings ranges).length ≤ 49 * ranges.length := by
  induction ranges with
  | nil => exact Nat.le_refl 0
  | cons range ranges ih =>
    have blocks : (encodingBlocks.flatMap fun b => b.within range.1 range.2).length ≤ 49 := by
      have each := fun b : EncodingBlock => b.length_within_le range.1 range.2
      have ascii := each ⟨0, 0x7F, 0, 0⟩
      have two := each ⟨0x80, 0x7FF, 1, 0xC0⟩
      have three := each ⟨0x800, 0xD7FF, 2, 0xE0⟩
      have three' := each ⟨0xE000, 0xFFFF, 2, 0xE0⟩
      have four := each ⟨0x10000, 0x10FFFF, 3, 0xF0⟩
      simp only [encodingBlocks, List.flatMap_cons, List.flatMap_nil, List.length_append,
        List.length_nil] at ascii two three three' four ⊢
      omega
    rw [encodings_cons, List.length_append, List.length_cons]
    omega

end Text

/-! ## 2. Sets of characters -/

namespace Text.Ranges

theorem length_joinFrom_le (low high : Nat) (ranges : Ranges) :
    (joinFrom low high ranges).length ≤ ranges.length + 1 := by
  fun_induction joinFrom low high ranges with
  | case1 => exact Nat.le_refl 1
  | case2 low high low' high' rest touch ih => exact Nat.le_succ_of_le ih
  | case3 low high low' high' rest apart ih => exact Nat.succ_le_succ ih

theorem length_union_le (a b : Ranges) : (a.union b).length ≤ a.length + b.length := by
  have sorted : ((a ++ b).mergeSort fun x y => x.1 ≤ y.1).length = a.length + b.length := by
    rw [List.length_mergeSort, List.length_append]
  unfold union ofList
  split
  · exact Nat.zero_le _
  · rename_i low high rest split
    have join := length_joinFrom_le low high rest
    rw [split, List.length_cons] at sorted
    omega

end Text.Ranges

namespace Pattern

section Sets

variable (sequences : List (List Text.ByteRange))

theorem total_eq_sum (sizes : List Nat) : total sizes = sizes.sum := List.sum_eq_foldl_nat.symm

theorem length_byFirst_le : (byFirst sequences).length ≤ sequences.length := by
  fun_induction byFirst sequences with
  | case1 => exact Nat.le_refl 0
  | case2 rest ih => exact Nat.le_succ_of_le ih
  | case3 r tail rest tails groups known ih | case4 r tail rest r' tails groups known new ih =>
    rw [known] at ih
    simp only [List.length_cons] at ih ⊢
    omega
  | case5 r tail rest none ih =>
    simp only [List.length_cons, List.length_nil]
    omega

theorem sum_byFirst_le : ((byFirst sequences).map (·.2.length)).sum ≤ sequences.length := by
  fun_induction byFirst sequences with
  | case1 => exact Nat.le_refl 0
  | case2 rest ih => exact Nat.le_succ_of_le ih
  | case3 r tail rest tails groups known ih | case4 r tail rest r' tails groups known new ih =>
    rw [known] at ih
    simp only [List.map_cons, List.sum_cons, List.length_cons, List.length_nil] at ih ⊢
    omega
  | case5 r tail rest none ih =>
    simp only [List.map_cons, List.map_nil, List.sum_cons, List.sum_nil, List.length_cons,
      List.length_nil]
    omega

/-- Each byte that is read shares the sequences out among the states after it. -/
theorem sum_readingStates_le (length : Nat) :
    ((readingStates length sequences).map List.length).sum ≤ length * sequences.length := by
  induction length generalizing sequences with
  | zero => exact Nat.zero_le _
  | succ length ih =>
    have after : ∀ groups : List (Text.ByteRange × List (List Text.ByteRange)),
        ((groups.flatMap fun g => readingStates length g.2).map List.length).sum ≤
          length * (groups.map (·.2.length)).sum := by
      intro groups
      induction groups with
      | nil => exact Nat.zero_le _
      | cons g groups ih' =>
        rw [List.flatMap_cons, List.map_append, List.sum_append, List.map_cons, List.sum_cons,
          Nat.mul_add]
        exact Nat.add_le_add (ih g.2) ih'
    rw [readingStates]
    split
    · exact Nat.zero_le _
    · rw [List.map_cons, List.sum_cons, Nat.succ_mul, Nat.add_comm]
      refine Nat.add_le_add_right (Nat.le_trans (after _) ?_) _
      exact Nat.mul_le_mul_left _ (sum_byFirst_le sequences)

theorem ne_nil_of_mem_readingStates {length : Nat} {state : List (List Text.ByteRange)}
    (h : state ∈ readingStates length sequences) : state ≠ [] := by
  induction length generalizing sequences with
  | zero => simp [readingStates] at h
  | succ length ih =>
    rw [readingStates] at h
    split at h
    · simp at h
    · rename_i some
      rcases List.mem_cons.mp h with rfl | later
      · rintro rfl
        exact some rfl
      · obtain ⟨g, -, inside⟩ := List.mem_flatMap.mp later
        exact ih g.2 inside

theorem eraseDups_sublist {α : Type} [BEq α] (xs : List α) : xs.eraseDups.Sublist xs := by
  induction h : xs.length using Nat.strongRecOn generalizing xs with
  | ind n ih =>
    cases xs with
    | nil => exact List.Sublist.refl _
    | cons x xs =>
      rw [List.eraseDups_cons]
      refine List.Sublist.cons_cons x ((ih _ ?_ _ rfl).trans List.filter_sublist)
      have := List.length_filter_le (fun y => !y == x) xs
      rw [List.length_cons] at h
      omega

end Sets

/-- The room for a set is in proportion to the number of its ranges. -/
theorem setSize_le (backward : Bool) (ranges : Text.Ranges) :
    setSize backward ranges ≤ 64 + 8000 * ranges.length := by
  have sequences := Text.length_encodings_le ranges
  have read := sum_readingStates_le (Text.encodings ranges) 4
  unfold setSize
  split
  · simp only [stateSize, rangeSize]
    omega
  · cases backward with
    | true =>
      have edges : ((readingStates 4 (Text.encodings ranges)).map fun s => (byFirst s).length).sum ≤
          ((readingStates 4 (Text.encodings ranges)).map List.length).sum :=
        List.sum_le_sum fun s _ => length_byFirst_le s
      simp only [if_true, total_eq_sum, stateSize, edgeSize]
      omega
    | false =>
      have each : ∀ s ∈ (readingStates 4 (Text.encodings ranges)).eraseDups,
          stateSize + rangeSize * (byFirst s).length ≤ 40 * s.length := by
        intro s hs
        have some := ne_nil_of_mem_readingStates _ ((eraseDups_sublist _).mem hs)
        have groups := length_byFirst_le s
        have pos : 0 < s.length := List.length_pos_of_ne_nil some
        simp only [stateSize, rangeSize]
        omega
      have kept : ((readingStates 4 (Text.encodings ranges)).eraseDups.map List.length).sum ≤
          ((readingStates 4 (Text.encodings ranges)).map List.length).sum :=
        ((eraseDups_sublist _).map _).sum_le_sum fun _ _ => Nat.zero_le _
      have sizes := List.sum_le_sum each
      rw [List.sum_map_mul_left] at sizes
      simp only [Bool.false_eq_true, if_false, total_eq_sum]
      simp only [stateSize] at sizes ⊢
      omega

/-! ## 3. Parts -/

theorem length_textBytes_le (backward : Bool) (chars : List Nat) :
    (textBytes backward chars).length ≤ 4 * chars.length := by
  have forward : (chars.flatMap Text.encoded).length ≤ 4 * chars.length := by
    induction chars with
    | nil => exact Nat.zero_le _
    | cons c chars ih =>
      have := Text.length_encoded_le c
      rw [List.flatMap_cons, List.length_append, List.length_cons]
      omega
  unfold textBytes
  cases backward with
  | true => simpa using forward
  | false => exact forward

namespace Part

/-- The room for one character of a set. -/
theorem sizeOfAll_ofRanges_le (backward : Bool) (ranges : Text.Ranges) :
    sizeOfAll backward (ofRanges ranges) ≤ 128 + 8000 * ranges.length := by
  have set := setSize_le backward ranges
  have character : ∀ c, stateSize * (textBytes backward [c]).length ≤ 128 := fun c =>
    Nat.mul_le_mul_left stateSize (length_textBytes_le backward [c])
  unfold ofRanges
  split
  · split
    · exact Nat.le_trans (character _) (Nat.le_add_right _ _)
    · simp only [sizeOfAll, size]
      omega
  · simp only [sizeOfAll, size]
    omega

/-- A longer text at the beginning takes as much more room as its bytes do. -/
theorem sizeOfAll_text_append (backward : Bool) (chars more : List Nat) (rest : List Part) :
    sizeOfAll backward (text (chars ++ more) :: rest) =
      stateSize * (textBytes backward chars).length + sizeOfAll backward (text more :: rest) := by
  have bytes : (textBytes backward (chars ++ more)).length =
      (textBytes backward chars).length + (textBytes backward more).length := by
    cases backward <;> simp [textBytes, Nat.add_comm]
  cases rest with
  | nil => simp only [sizeOfAll, size, bytes, Nat.mul_add]
  | cons p rest => simp only [sizeOfAll, size, bytes, Nat.mul_add, Nat.add_assoc]

end Part

theorem Tree.partsOfAll_chars_append {items : List Tree} {more : List Nat} {rest : List Part}
    (parts : Tree.partsOfAll items = .text more :: rest) (s : List Char) :
    Tree.partsOfAll (s.map Tree.char ++ items) = .text (s.map Char.toNat ++ more) :: rest := by
  induction s with
  | nil => exact parts
  | cons c s ih =>
    have single : (Tree.char c).parts = [.text [c.toNat]] := by
      simp [Tree.char, Tree.parts, CharClass.single, CharClass.ranges, Part.ofRanges]
    rw [List.map_cons, List.cons_append, Tree.partsOfAll, ih, single]
    rfl

/-! ## 4. Patterns -/

section Patterns

variable {items : List Tree}

/-- A written pattern that is neither too deep nor too large is understood. -/
theorem Regex.parse_ok {source : String} (reads : Reads source.toList items)
    (shallow : Tree.depthOfAll items < depthLimit)
    (size : ∀ backward, automatonSize backward (Tree.partsOfAll items) ≤ sizeLimit) :
    ∃ regex, Regex.parse source = .ok regex := by
  have fits : (Tree.seq items).fits = true := by simp [Tree.fits, Tree.parts, size]
  have parsed := Regex.parse_of_reads reads shallow
  rw [if_pos fits, String.ofList_toList] at parsed
  exact ⟨_, parsed⟩

/-- A pattern that begins with escaped text is understood, or else the text is long and the pattern too
large. -/
theorem Regex.parse_escape_append {source : List Char} {more : List Nat} {rest : List Part}
    {room : Nat} (reads : Reads source items) (shallow : Tree.depthOfAll items < depthLimit)
    (parts : Tree.partsOfAll items = .text more :: rest)
    (takes : ∀ backward, automatonSize backward (.text more :: rest) ≤ room) (s : List Char) :
    (∃ regex, Regex.parse (.ofList (escape s ++ source)) = .ok regex) ∨
      sizeLimit < 128 * s.length + room ∧
        Regex.parse (.ofList (escape s ++ source)) = .error .tooLarge := by
  have parsed := Regex.parse_of_reads (reads.escape_append s)
    (by rwa [Tree.depthOfAll_chars_append])
  by_cases fits : (Tree.seq (s.map Tree.char ++ items)).fits = true
  · rw [if_pos fits] at parsed
    exact .inl ⟨_, parsed⟩
  · rw [if_neg fits] at parsed
    refine .inr ⟨Nat.lt_of_not_le fun short => fits ?_, parsed⟩
    have size : ∀ backward,
        automatonSize backward (.text (s.map Char.toNat ++ more) :: rest) ≤ sizeLimit := by
      intro backward
      have base := takes backward
      have bytes := length_textBytes_le backward (s.map Char.toNat)
      rw [List.length_map] at bytes
      simp only [automatonSize, Part.sizeOfAll_text_append] at base ⊢
      simp only [stateSize] at base ⊢
      omega
    simp only [Tree.fits, Tree.parts, Tree.partsOfAll_chars_append parts, size, decide_true,
      Bool.and_self, Bool.or_true]

end Patterns

end Pattern

end ModelLoading
