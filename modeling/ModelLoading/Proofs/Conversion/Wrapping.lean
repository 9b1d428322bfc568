import ModelLoading.Proofs.Conversion.Effects

/-!
# Arrays that are wrapped and unwrapped

The rules for arrays turn the native arrays of each listed type into interop arrays, and the rules for enum
types turn them back. A text in between is made of portions: characters that were not touched, and arrays,
some of which are native again (`Portion`). Wrapping makes an array of some characters (`exists_portions`),
and unwrapping makes the arrays of one kind native (`Unwraps.render`). Neither changes the text that there is
when all arrays are native.

That the rules find these arrays and nothing else is a matter of where a text can begin and end. A native array
ends with a bracket that no interop array has, and the other way round, so the two do not overlap. Nor do two
interop arrays, as each of them has one opening angle bracket, and what stands in front of it is the same in
both. So a name that ends in another one does no harm.
-/

namespace ModelLoading.Conversion

open Edit Text

/-! ## 1. Texts that do not agree -/

section Agree

variable {u v w x k m : List Char} {c y z : Char}

theorem mem_of_suffix (last : w.getLast? = some z) (ends : k <:+ w) (some : k ≠ []) : z ∈ k := by
  obtain ⟨front, rfl⟩ := ends
  rw [List.getLast?_append_of_ne_nil _ some] at last
  exact List.mem_of_getLast? last

/-- Neither of two texts begins with an end of the other if each lacks the character that the other one ends
with. -/
theorem not_agree_of_last (hw : w.getLast? = some y) (hx : x.getLast? = some z) (other : y ∉ x) (lacks : z ∉ w)
    (endw : k <:+ w) (somek : k ≠ []) (endx : m <:+ x) (somem : m ≠ []) : ¬Agree k m := by
  rintro (front | front)
  · exact other (endx.subset (front.subset (mem_of_suffix hw endw somek)))
  · exact lacks (endw.subset (front.subset (mem_of_suffix hx endx somem)))

/-- Texts that agree are alike up to the first place of a character, and agree behind it. -/
theorem agree_of_append_cons {a b : List Char} (h : Agree (a ++ c :: u) (b ++ c :: v)) (ha : c ∉ a)
    (hb : c ∉ b) : a = b ∧ Agree u v := by
  rcases h with ⟨r, split⟩ | ⟨r, split⟩
  · rw [List.append_assoc, List.cons_append] at split
    obtain ⟨rfl, rfl⟩ := eq_of_append_cons ha hb split
    exact ⟨rfl, .inl (List.prefix_append ..)⟩
  · rw [List.append_assoc, List.cons_append] at split
    obtain ⟨rfl, rfl⟩ := eq_of_append_cons hb ha split
    exact ⟨rfl, .inr (List.prefix_append ..)⟩

/-- A word and a character behind it do not agree with what is left of them without their beginning. -/
theorem not_agree_of_proper {a : List Char} (ha : c ∉ a) (hv : c ∉ v) (last : (a ++ c :: v).getLast? = some z)
    (hz : z ∉ a) (split : a ++ c :: v = k ++ m) (front : k ≠ []) (some : m ≠ []) : ¬Agree (a ++ c :: u) m := by
  intro agree
  have ends : z ∈ m := mem_of_suffix last ⟨k, split.symm⟩ some
  rcases List.append_eq_append_iff.mp split with ⟨l, rfl, behind⟩ | ⟨l, rfl, rfl⟩
  · cases l with
    | nil =>
      obtain rfl : c :: v = m := by simpa using behind
      obtain ⟨rfl, -⟩ := agree_of_append_cons (b := []) agree ha List.not_mem_nil
      exact front rfl
    | cons d l =>
      -- only the part behind the character is left
      obtain ⟨rfl, rfl⟩ := List.cons.inj behind
      have lacks : c ∉ m := fun inside => hv (List.mem_append_right l inside)
      rcases agree with whole | left
      · exact lacks (whole.subset (by simp))
      · rcases prefix_append_cons_cases left with inside | ⟨q, rfl, -⟩
        · exact hz (inside.subset ends)
        · exact lacks (by simp)
  · obtain ⟨same, -⟩ := agree_of_append_cons agree ha fun inside => ha (List.mem_append_right k inside)
    exact front (List.append_left_eq_self.mp same)

end Agree

/-! ## 2. Portions -/

/-- A text without brackets. -/
def Plain (s : List Char) : Prop := ∀ c ∈ ['<', '>', '(', ')', '[', ']'], c ∉ s

/-- The size of an array, if it has one. -/
def sizeText : (sized : Bool) → List Char
  | true => ['a', 'r', 'r', 'C', 'o', 'u', 'n', 't']
  | false => []

/-- A native array. -/
def nativeArray (element : List Char) (sized : Bool) : List Char :=
  element ++ '[' :: (sizeText sized ++ [']'])

/-- An interop array without its size. -/
def wrapped (array element : List Char) : List Char := array ++ '<' :: (element ++ ['>'])

/-- The size of an interop array, if it has one, as an argument. -/
def sizeArgument : (sized : Bool) → List Char
  | true => '(' :: (sizeText true ++ [')'])
  | false => []

/-- An interop array. -/
def interopArray (array element : List Char) (sized : Bool) : List Char :=
  wrapped array element ++ sizeArgument sized

/-- A portion of a text. -/
inductive Portion where
  /-- A character that was not touched. -/
  | char (c : Char)
  /-- An array of a listed type. -/
  | array (element : List Char) (sized : Bool)

/-- The arrays that are native again: their elements, and whether they have a size. -/
abbrev Reverted := List (List Char × Bool)

/-- What a portion looks like. -/
def Portion.text (array : List Char) (reverted : Reverted) : Portion → List Char
  | char c => [c]
  | .array element sized =>
    if (element, sized) ∈ reverted then nativeArray element sized else interopArray array element sized

/-- What portions look like one after another. -/
def render (array : List Char) (reverted : Reverted) (portions : List Portion) : List Char :=
  portions.flatMap (Portion.text array reverted)

/-- A portion with its array native. -/
def Portion.original : Portion → List Char
  | char c => [c]
  | array element sized => nativeArray element sized

/-- Portions with all arrays native. -/
def original (portions : List Portion) : List Char := portions.flatMap Portion.original

/-- An array is of a listed type. -/
def Portion.Listed (names : List (List Char)) : Portion → Prop
  | char _ => True
  | array element _ => element ∈ names

section Texts

variable {array element other : List Char} {sized sized' : Bool} {c : Char}

theorem plain_sizeText : Plain (sizeText sized) := by
  cases sized with
  | false => exact fun c _ => List.not_mem_nil
  | true => simp [Plain, sizeText]

theorem not_mem_nativeArray (plain : Plain element) (bracket : c ∈ ['<', '>', '(', ')']) :
    c ∉ nativeArray element sized := by
  have any : c ∈ ['<', '>', '(', ')', '[', ']'] := List.mem_append_left ['[', ']'] bracket
  have square : c ≠ '[' ∧ c ≠ ']' := by
    constructor <;> rintro rfl <;> exact absurd bracket (by decide)
  simp [nativeArray, plain c any, plain_sizeText c any, square]

theorem not_mem_wrapped (array_plain : Plain array) (plain : Plain element)
    (bracket : c ∈ ['(', ')', '[', ']']) : c ∉ wrapped array element := by
  have any : c ∈ ['<', '>', '(', ')', '[', ']'] := List.mem_append_right ['<', '>'] bracket
  have angle : c ≠ '<' ∧ c ≠ '>' := by
    constructor <;> rintro rfl <;> exact absurd bracket (by decide)
  simp [wrapped, array_plain c any, plain c any, angle]

theorem not_mem_interopArray (array_plain : Plain array) (plain : Plain element) (square : c ∈ ['[', ']']) :
    c ∉ interopArray array element sized := by
  have other : c ∈ ['(', ')', '[', ']'] := List.mem_append_right ['(', ')'] square
  rw [interopArray, List.mem_append, not_or]
  refine ⟨not_mem_wrapped array_plain plain other, ?_⟩
  rcases List.mem_pair.mp square with rfl | rfl <;> cases sized <;> decide

theorem getLast?_nativeArray : (nativeArray element sized).getLast? = some ']' := by
  simp [nativeArray, List.getLast?_cons]

theorem getLast?_wrapped : (wrapped array element).getLast? = some '>' := by
  simp [wrapped, List.getLast?_cons]

/-- An interop array ends with a bracket that no native array has. -/
theorem exists_getLast?_interopArray : ∃ c ∈ ['>', ')'], (interopArray array element sized).getLast? = some c := by
  cases sized with
  | false => exact ⟨'>', by simp, by simp [interopArray, sizeArgument, getLast?_wrapped]⟩
  | true => exact ⟨')', by simp, by simp [interopArray, sizeArgument, List.getLast?_cons]⟩

theorem interopArray_eq : interopArray array element sized =
    array ++ '<' :: (element ++ '>' :: sizeArgument sized) := by
  simp [interopArray, wrapped]

theorem not_mem_behind (plain : Plain element) : '<' ∉ element ++ '>' :: sizeArgument sized := by
  have size : '<' ∉ sizeArgument sized := by cases sized <;> decide
  simp [plain '<' (by decide), size]

end Texts

section Portions

variable {array : List Char} {reverted : Reverted} {portion : Portion} {portions rest : List Portion}
  {w : List Char}

theorem render_cons : render array reverted (portion :: portions) =
    portion.text array reverted ++ render array reverted portions := rfl

theorem original_cons : original (portion :: portions) = portion.original ++ original portions := rfl

theorem render_chars : render array reverted (w.map .char ++ rest) = w ++ render array reverted rest := by
  rw [render, List.flatMap_append, List.flatMap_map]
  exact congrArg (· ++ _) (List.flatMap_singleton' w)

theorem original_chars : original (w.map .char ++ rest) = w ++ original rest := by
  rw [original, List.flatMap_append, List.flatMap_map]
  exact congrArg (· ++ _) (List.flatMap_singleton' w)

/-- A text that overlaps no array is made of characters that were not touched. -/
theorem exists_chars (clear : ∀ element sized, .array element sized ∈ portions → ∀ k, k <:+ w → k ≠ [] →
      ¬Agree k ((Portion.array element sized).text array reverted))
    (stands : w <+: render array reverted portions) : ∃ rest, portions = w.map .char ++ rest := by
  induction w generalizing portions with
  | nil => exact ⟨portions, rfl⟩
  | cons c w ih =>
    cases portions with
    | nil => cases List.prefix_nil.mp stands
    | cons portion portions =>
      cases portion with
      | char d =>
        obtain ⟨rfl, behind⟩ := List.cons_prefix_cons.mp stands
        obtain ⟨rest, rfl⟩ := ih (fun element sized member k ends => clear element sized
          (List.mem_cons_of_mem _ member) k (ends.trans (List.suffix_cons ..))) behind
        exact ⟨rest, rfl⟩
      | array element sized =>
        obtain ⟨r, split⟩ := stands
        exact absurd (agree_of_append_eq split)
          (clear element sized List.mem_cons_self _ List.suffix_rfl (List.cons_ne_nil c w))

end Portions

/-! ## 3. Wrapping -/

section Wrapping

variable {swap : Swap} {stay : Stay} {before : Option Char} {array element t : List Char} {sized : Bool}
  {names : List (List Char)} {portions : List Portion} {n : Nat}

/-- A native array does not overlap an interop array. -/
theorem not_agree_nativeArray (array_plain : Plain array) {other : List Char} {sized' : Bool}
    (plain : Plain element) (other_plain : Plain other) {k m : List Char}
    (endw : k <:+ nativeArray element sized) (somek : k ≠ []) (endx : m <:+ interopArray array other sized')
    (somem : m ≠ []) : ¬Agree k m := by
  obtain ⟨c, closing, last⟩ := @exists_getLast?_interopArray array other sized'
  have lacks : c ∉ nativeArray element sized :=
    not_mem_nativeArray plain (by rcases List.mem_pair.mp closing with rfl | rfl <;> decide)
  exact not_agree_of_last getLast?_nativeArray last (not_mem_interopArray array_plain other_plain (by decide))
    lacks endw somek endx somem

theorem text_of_nil (element : List Char) (sized : Bool) :
    (Portion.array element sized).text array [] = interopArray array element sized := by
  simp [Portion.text]

/-- A native array between interop arrays is made of characters that were not touched. -/
theorem exists_chars_of_native (array_plain : Plain array) (plain : Plain element)
    (others_plain : ∀ other sized', .array other sized' ∈ portions → Plain other)
    (stands : nativeArray element sized <+: render array [] portions) :
    ∃ rest, portions = (nativeArray element sized).map .char ++ rest := by
  refine exists_chars (fun other sized' inside k ends some => ?_) stands
  rw [text_of_nil]
  exact not_agree_nativeArray array_plain plain (others_plain other sized' inside) ends some List.suffix_rfl
    (by simp [interopArray_eq])

/-- Wrapping the arrays of one kind leaves the text that there is when all arrays are native. -/
theorem exists_portions (array_plain : Plain array) (plain : ∀ name ∈ names, Plain name)
    (member : element ∈ names) (listed : ∀ portion ∈ portions, portion.Listed names)
    (finds : ∀ before old new rest, swap before old new rest →
      old = nativeArray element sized ∧ new = interopArray array element sized)
    (h : Sweep swap stay before (render array [] portions) t n) :
    ∃ portions', t = render array [] portions' ∧ original portions' = original portions ∧
      ∀ portion ∈ portions', portion.Listed names := by
  induction length : portions.length using Nat.strongRecOn generalizing portions before t n with
  | ind length ih =>
    subst length
    cases portions with
    | nil =>
      obtain ⟨rfl, -⟩ := h.eq_nil
      exact ⟨[], rfl, rfl, listed⟩
    | cons portion portions =>
      obtain ⟨here, behind⟩ := List.forall_mem_cons.mp listed
      cases portion with
      | char c =>
        generalize whole : render array [] (.char c :: portions) = s at h
        cases h with
        | done => cases whole
        | keep _ rest =>
          obtain ⟨rfl, rfl⟩ := List.cons.inj whole
          obtain ⟨portions', rfl, same, listed'⟩ := ih _ (by simp) behind rest rfl
          exact ⟨.char c :: portions', rfl, congrArg (c :: ·) same, List.forall_mem_cons.mpr ⟨trivial, listed'⟩⟩
        | @swap _ old new s t n found some rest =>
          obtain ⟨rfl, rfl⟩ := finds _ _ _ _ found
          obtain ⟨portions', split⟩ := exists_chars_of_native array_plain (plain element member)
            (fun other sized' inside => plain other (listed _ inside)) ⟨s, whole.symm⟩
          rw [split] at listed whole
          rw [render_chars] at whole
          obtain rfl := List.append_cancel_left whole
          have shorter : portions'.length < (Portion.char c :: portions).length := by
            have := List.length_pos_of_ne_nil some
            rw [split, List.length_append, List.length_map]
            omega
          obtain ⟨portions'', rfl, same, listed'⟩ :=
            ih _ shorter (fun _ inside => listed _ (List.mem_append_right _ inside)) rest rfl
          refine ⟨.array element sized :: portions'', ?_, ?_, List.forall_mem_cons.mpr ⟨member, listed'⟩⟩
          · rw [render_cons, text_of_nil]
          · rw [split, original_chars, ← same]
            rfl
      | array other sized' =>
        rw [render_cons, text_of_nil] at h
        obtain ⟨u, before', rfl, rest⟩ := h.skip fun x₁ x₂ split some _ old new rest found whole => by
          obtain ⟨rfl, -⟩ := finds _ _ _ _ found
          exact not_agree_nativeArray array_plain (plain element member) (plain other here) List.suffix_rfl
            (by simp [nativeArray]) ⟨x₁, split.symm⟩ some (agree_of_append_eq whole)
        obtain ⟨portions', rfl, same, listed'⟩ := ih _ (by simp) behind rest rfl
        refine ⟨.array other sized' :: portions', ?_, congrArg (nativeArray other sized' ++ ·) same,
          List.forall_mem_cons.mpr ⟨here, listed'⟩⟩
        rw [render_cons, text_of_nil]

end Wrapping

/-! ## 4. Unwrapping -/

/-- A sweep that looks for the interop arrays of one kind, and makes native what it finds. -/
structure Unwraps (array element : List Char) (sized : Bool) (swap : Swap) (stay : Stay) : Prop where
  /-- What is found begins as the array does. -/
  front : ∀ before old new rest, swap before old new rest → wrapped array element <+: old ++ rest
  /-- A sized array is found with its parenthesis. -/
  opens : sized = true → ∀ before old new rest, swap before old new rest →
    wrapped array element ++ ['('] <+: old ++ rest
  /-- Where the array stands, it becomes native. -/
  exact : ∀ before old new rest y, swap before old new rest →
    old ++ rest = interopArray array element sized ++ y → new = nativeArray element sized ∧ rest = y
  /-- Where the array stands, it is found. -/
  found : ∀ before y, ¬stay before (interopArray array element sized ++ y)

section Unwrapping

variable {swap : Swap} {stay : Stay} {before : Option Char} {array element other t : List Char}
  {sized sized' : Bool} {reverted : Reverted} {portions : List Portion} {n : Nat}

section Overlaps

variable (array_plain : Plain array) (plain : Plain element) (other_plain : Plain other)

include array_plain plain other_plain

/-- An interop array does not overlap a native one. -/
theorem not_agree_wrapped {k m : List Char} (endw : k <:+ wrapped array element) (somek : k ≠ [])
    (endx : m <:+ nativeArray other sized') (somem : m ≠ []) : ¬Agree k m := by
  have unsized : wrapped array element = interopArray array element false := (List.append_nil _).symm
  rw [unsized] at endw
  exact fun agree => not_agree_nativeArray array_plain other_plain plain endx somem endw somek (Or.symm agree)

/-- What two interop arrays begin with is different if their elements are. -/
theorem eq_of_agree_wrapped (agree : Agree (wrapped array element) (interopArray array other sized')) :
    element = other := by
  rw [interopArray_eq] at agree
  obtain ⟨-, behind⟩ := agree_of_append_cons agree (array_plain '<' (by decide)) (array_plain '<' (by decide))
  exact (agree_of_append_cons behind (plain '>' (by decide)) (other_plain '>' (by decide))).1

omit plain in
/-- An interop array does not begin inside another one. -/
theorem not_agree_inside {x₁ x₂ : List Char} (split : interopArray array other sized' = x₁ ++ x₂)
    (front : x₁ ≠ []) (some : x₂ ≠ []) : ¬Agree (wrapped array element) x₂ := by
  obtain ⟨c, closing, last⟩ := @exists_getLast?_interopArray array other sized'
  rw [interopArray_eq] at split last
  refine not_agree_of_proper (array_plain '<' (by decide)) (not_mem_behind other_plain) last ?_ split front some
  exact array_plain c (by rcases List.mem_pair.mp closing with rfl | rfl <;> decide)

omit other_plain in
/-- An interop array does not end inside another one. -/
theorem not_agree_end {w k : List Char} (split : wrapped array element = w ++ k) (front : w ≠ []) (some : k ≠ []) :
    ¬Agree k (interopArray array other sized') := by
  rw [interopArray_eq]
  have lacks : '<' ∉ element ++ '>' :: sizeArgument false := not_mem_behind plain
  exact fun agree => not_agree_of_proper (array_plain '<' (by decide)) lacks getLast?_wrapped
    (array_plain '>' (by decide)) split front some (Or.symm agree)

omit plain in
/-- An array does not begin with a parenthesis. -/
theorem not_agree_opening {k : List Char} (ends : k <:+ ['(']) (some : k ≠ []) :
    ¬Agree k ((Portion.array other sized').text array reverted) := by
  obtain rfl : k = ['('] := (List.suffix_cons_iff.mp ends).resolve_right fun none => some (List.suffix_nil.mp none)
  rw [Portion.text]
  split
  · exact not_agree_of_last rfl getLast?_nativeArray (not_mem_nativeArray other_plain (by decide)) (by decide)
      List.suffix_rfl some List.suffix_rfl (by simp [nativeArray])
  · rw [interopArray_eq]
    rintro (front | front)
    · rcases prefix_append_cons_cases front with inside | ⟨q, split, -⟩
      · exact array_plain '(' (by decide) (inside.subset (by simp))
      · have angle : '<' ∈ ['('] := split ▸ by simp
        exact absurd angle (by decide)
    · exact absurd (front.subset (by simp) : '<' ∈ ['(']) (by decide)

end Overlaps

/-- An interop array that begins with a character that was not touched is made of such characters. -/
theorem wrapped_infix_original {c : Char} (array_plain : Plain array) (plain : Plain element)
    (others_plain : ∀ other sized', .array other sized' ∈ portions → Plain other)
    (stands : wrapped array element <+: render array reverted (.char c :: portions)) :
    wrapped array element <:+: original (.char c :: portions) := by
  obtain ⟨d, w, spelled⟩ := List.exists_cons_of_ne_nil (show wrapped array element ≠ [] by simp [wrapped])
  rw [spelled] at stands
  obtain ⟨rfl, later⟩ := List.cons_prefix_cons.mp stands
  obtain ⟨portions', rfl⟩ := exists_chars (fun other sized' inside k ends some => by
    obtain ⟨w', rfl⟩ := ends
    rw [Portion.text]
    split
    · exact not_agree_wrapped array_plain plain (others_plain other sized' inside) ⟨d :: w', spelled.symm⟩ some
        List.suffix_rfl (by simp [nativeArray])
    · exact not_agree_end array_plain plain (w := d :: w') spelled (by simp) some) later
  refine ⟨[], original portions', ?_⟩
  rw [original_cons, original_chars, spelled]
  rfl

theorem Unwraps.agree (h : Unwraps array element sized swap stay) {old new rest x y : List Char}
    (found : swap before old new rest) (whole : old ++ rest = x ++ y) : Agree (wrapped array element) x := by
  obtain ⟨r, stands⟩ := h.front _ _ _ _ found
  exact agree_of_append_eq (stands.trans whole)

/-- What is found at an interop array of its elements is an array of its kind: a sized array is unwrapped
before, and an unsized one is not followed by a parenthesis. -/
theorem Unwraps.kind_eq (h : Unwraps array element sized swap stay) (array_plain : Plain array)
    (others_plain : ∀ other sized', .array other sized' ∈ portions → Plain other)
    (first : sized = false → (element, true) ∈ reverted) (interop : (element, sized') ∉ reverted)
    (unopened : ¬nativeArray element false ++ ['('] <:+: nativeArray element sized' ++ original portions)
    {old new rest : List Char} (found : swap before old new rest)
    (whole : old ++ rest = interopArray array element sized' ++ render array reverted portions) :
    sized' = sized := by
  cases sized with
  | false =>
    cases sized' with
    | false => rfl
    | true => exact absurd (first rfl) interop
  | true =>
    cases sized' with
    | true => rfl
    | false =>
      have opened := h.opens rfl _ _ _ _ found
      rw [whole, interopArray, sizeArgument, List.append_nil, List.prefix_append_right_inj] at opened
      obtain ⟨portions', rfl⟩ := exists_chars (fun other sized' inside k ends some =>
        not_agree_opening array_plain (others_plain other sized' inside) ends some) opened
      refine absurd ⟨[], original portions', ?_⟩ unopened
      rw [original_chars]
      simp

/-- Unwrapping the arrays of one kind makes them native, if sized ones are unwrapped before others. -/
theorem Unwraps.render (h : Unwraps array element sized swap stay) (array_plain : Plain array)
    (plain : Plain element) (others_plain : ∀ other sized', .array other sized' ∈ portions → Plain other)
    (first : sized = false → (element, true) ∈ reverted) (absent : ¬wrapped array element <:+: original portions)
    (unopened : ¬nativeArray element false ++ ['('] <:+: original portions)
    (swept : Sweep swap stay before (render array reverted portions) t n) :
    t = render array ((element, sized) :: reverted) portions := by
  induction portions generalizing before t n with
  | nil => exact swept.eq_nil.1
  | cons portion portions ih =>
    have behind : original portions <:+: original (portion :: portions) :=
      (List.suffix_append portion.original (original portions)).isInfix
    have later_plain : ∀ other sized', .array other sized' ∈ portions → Plain other :=
      fun other sized' inside => others_plain other sized' (List.mem_cons_of_mem _ inside)
    have ih : ∀ {before t n}, Sweep swap stay before (render array reverted portions) t n →
        t = render array ((element, sized) :: reverted) portions :=
      ih later_plain (fun occurs => absent (occurs.trans behind)) fun occurs => unopened (occurs.trans behind)
    cases portion with
    | char c =>
      generalize whole : render array reverted (.char c :: portions) = s at swept
      cases swept with
      | done => cases whole
      | keep _ rest =>
        obtain ⟨rfl, rfl⟩ := List.cons.inj whole
        exact congrArg (c :: ·) (ih rest)
      | swap found _ _ =>
        have stands := h.front _ _ _ _ found
        rw [← whole] at stands
        exact absurd (wrapped_infix_original array_plain plain later_plain stands) absent
    | array other sized' =>
      have other_plain := others_plain other sized' List.mem_cons_self
      rw [render_cons, Portion.text] at swept
      rw [render_cons, Portion.text]
      split at swept
      · rename_i native
        obtain ⟨u, before', rfl, rest⟩ := swept.skip fun x₁ x₂ split some _ _ _ _ found whole =>
          not_agree_wrapped array_plain plain other_plain List.suffix_rfl (by simp [wrapped]) ⟨x₁, split.symm⟩ some
            (h.agree found whole)
        rw [if_pos (List.mem_cons_of_mem _ native), ih rest]
      · rename_i interop
        by_cases same : other = element ∧ sized' = sized
        · -- it is of the kind that becomes native
          obtain ⟨rfl, rfl⟩ := same
          rw [if_pos List.mem_cons_self]
          generalize whole : interopArray array other sized' ++ render array reverted portions = s at swept
          cases swept with
          | done => simp [interopArray_eq] at whole
          | keep here _ => exact absurd (whole ▸ here) (h.found _ _)
          | swap found _ rest =>
            obtain ⟨rfl, rfl⟩ := h.exact _ _ _ _ _ found whole.symm
            rw [ih rest]
        · have fresh : (other, sized') ∉ (element, sized) :: reverted := by
            simpa [interop] using same
          obtain ⟨u, before', rfl, rest⟩ := swept.skip fun x₁ x₂ split some _ _ _ _ found whole => by
            have agree := h.agree found whole
            by_cases begins : x₁ = []
            · obtain rfl : interopArray array other sized' = x₂ := by simpa [begins] using split
              obtain rfl := eq_of_agree_wrapped array_plain plain other_plain agree
              exact same ⟨rfl, h.kind_eq array_plain later_plain first interop unopened found whole⟩
            · exact not_agree_inside array_plain other_plain split begins some agree
          rw [if_neg fresh, ih rest]

end Unwrapping

/-! ## 5. Rules -/

section Rules

variable {v : Vocabulary} {name : String} {names : List String} {reverted : Reverted} {portions : List Portion}
  {s t : List Char}

theorem swap_literalEffect {what replacement : String} {before : Option Char} {old new rest : List Char}
    (h : (literalEffect what replacement).swap before old new rest) :
    old = what.toList ∧ new = replacement.toList := by
  obtain ⟨_, rfl, rfl, rfl⟩ := h
  simp [literalEffect]

theorem toList_wrapped : (v.referenceArrayOf name).toList = wrapped v.referenceArray.toList name.toList :=
  toList_referenceArrayOf name

/-- Each rule for an array of a listed type wraps the arrays of one kind. -/
theorem exists_kind {e : Effect} (none : v.structs = []) (member : e ∈ (domainArrayEffects v).map (·.2)) :
    ∃ name ∈ v.references, ∃ sized, ∀ before old new rest, e.swap before old new rest →
      old = nativeArray name.toList sized ∧ new = interopArray v.referenceArray.toList name.toList sized := by
  obtain ⟨named, made, rfl⟩ := List.mem_map.mp member
  rw [domainArrayEffects, none, List.map_nil, List.append_nil, List.flatMap_map] at made
  obtain ⟨name, listed, inside⟩ := List.mem_flatMap.mp made
  refine ⟨name, listed, ?_⟩
  rcases List.mem_pair.mp inside with rfl | rfl
  · refine ⟨true, fun _ _ _ _ found => ?_⟩
    obtain ⟨rfl, rfl⟩ := swap_literalEffect found
    simp [toString, toList_wrapped, nativeArray, interopArray, sizeText, sizeArgument]
  · refine ⟨false, fun _ _ _ _ found => ?_⟩
    obtain ⟨rfl, rfl⟩ := swap_literalEffect found
    simp [toString, toList_wrapped, nativeArray, interopArray, sizeText, sizeArgument]

/-- The rules for arrays of listed types leave a text that can be unwrapped. -/
theorem exists_portions_of_ran (none : v.structs = []) (array_plain : Unbracketed v.referenceArray)
    (plain : ∀ name ∈ v.references, Unbracketed name) (ran : Ran ((domainArrayEffects v).map (·.2)) s t) :
    ∃ portions, t = render v.referenceArray.toList [] portions ∧ original portions = s ∧
      ∀ portion ∈ portions, portion.Listed (v.references.map String.toList) := by
  refine ran.keeps (P := fun t => ∃ portions, t = render v.referenceArray.toList [] portions ∧
    original portions = s ∧ ∀ portion ∈ portions, portion.Listed (v.references.map String.toList))
    (fun e member u w count swept => ?_) ⟨s.map .char, ?_, ?_, ?_⟩
  · rintro ⟨portions, rfl, original_eq, listed⟩
    obtain ⟨name, inside, sized, finds⟩ := exists_kind none member
    obtain ⟨portions', rfl, same, listed'⟩ := exists_portions array_plain
      (List.forall_mem_map.mpr plain) (List.mem_map_of_mem inside) listed finds swept
    exact ⟨portions', rfl, same.trans original_eq, listed'⟩
  · have chars : render v.referenceArray.toList [] (s.map .char ++ []) = s ++ [] := render_chars
    simpa using chars.symm
  · have chars : original (s.map .char ++ []) = s ++ [] := original_chars
    simpa using chars
  · exact List.forall_mem_map.mpr fun c _ => trivial

theorem unwraps_sized : Unwraps v.referenceArray.toList name.toList true (sizedCallEffect v name).swap
    (sizedCallEffect v name).leaves := by
  have shallow : Shallow (sizeText true) := (Unparenthesized.arguments (by decide)).shallow
  have shape : ∀ before old new rest, (sizedCallEffect v name).swap before old new rest → ∃ text, Shallow text ∧
      old ++ rest = wrapped v.referenceArray.toList name.toList ++ '(' :: (text ++ ')' :: rest) ∧
      new = name.toList ++ '[' :: (text ++ [']']) := by
    rintro _ _ _ rest ⟨text, kept, rfl, rfl⟩
    refine ⟨text, kept, ?_, ?_⟩ <;> simp [sizedCallEffect, exactEffect, aroundEffect, toList_wrapped]
  refine ⟨fun _ _ _ _ found => ?_, fun _ _ _ _ rest found => ?_, fun _ _ _ _ y found whole => ?_, ?_⟩
  · obtain ⟨text, -, split, -⟩ := shape _ _ _ _ found
    exact split ▸ List.prefix_append ..
  · obtain ⟨text, -, split, -⟩ := shape _ _ _ _ found
    exact split ▸ ⟨text ++ ')' :: rest, by simp⟩
  · obtain ⟨text, kept, split, rfl⟩ := shape _ _ _ _ found
    have ends := split.symm.trans whole
    simp only [interopArray, sizeArgument, List.append_assoc, List.cons_append, List.nil_append] at ends
    obtain ⟨rfl, rfl⟩ := kept.eq_of_append shallow (List.cons.inj (List.append_cancel_left ends)).2
    exact ⟨rfl, rfl⟩
  · refine fun _ y left => left (sizeText true) shallow ⟨y, ?_⟩
    simp [interopArray, sizeArgument, toList_wrapped]

theorem unwraps_plain : Unwraps v.referenceArray.toList name.toList false (enumEffect v name).swap
    (enumEffect v name).leaves := by
  refine ⟨fun _ _ _ _ found => ?_, nofun, fun _ _ _ _ y found whole => ?_, fun _ y left => ?_⟩
  · obtain ⟨rfl, -⟩ := swap_literalEffect found
    exact toList_wrapped ▸ List.prefix_append ..
  · obtain ⟨rfl, rfl⟩ := swap_literalEffect found
    rw [toList_wrapped, interopArray, sizeArgument, List.append_nil] at whole
    exact ⟨by simp [nativeArray, sizeText, toString], List.append_cancel_left whole⟩
  · rw [interopArray, sizeArgument, List.append_nil, ← toList_wrapped] at left
    exact left (List.prefix_append ..)

/-- The rules for enum types make the arrays of each of the types native. -/
theorem exists_reverted (array_plain : Unbracketed v.referenceArray)
    (others_plain : ∀ other sized, .array other sized ∈ portions → Plain other)
    (plain : ∀ name ∈ names, Unbracketed name)
    (absent : ∀ name ∈ names, ¬wrapped v.referenceArray.toList name.toList <:+: original portions ∧
      ¬nativeArray name.toList false ++ ['('] <:+: original portions)
    (ran : Ran (names.flatMap fun name => [sizedCallEffect v name, enumEffect v name])
      (render v.referenceArray.toList reverted portions) t) :
    ∃ reverted', t = render v.referenceArray.toList reverted' portions ∧ (∀ kind ∈ reverted, kind ∈ reverted') ∧
      ∀ name ∈ names, ∀ sized, (name.toList, sized) ∈ reverted' := by
  induction names generalizing reverted with
  | nil =>
    cases ran
    exact ⟨reverted, rfl, fun _ => id, by simp⟩
  | cons name names ih =>
    obtain ⟨plain, later⟩ := List.forall_mem_cons.mp plain
    obtain ⟨⟨absent, unopened⟩, behind⟩ := List.forall_mem_cons.mp absent
    cases ran with
    | cons sized ran =>
      cases ran with
      | cons unsized ran =>
        obtain rfl := unwraps_sized.render array_plain plain others_plain nofun absent unopened sized
        obtain rfl := unwraps_plain.render array_plain plain others_plain (fun _ => List.mem_cons_self) absent
          unopened unsized
        obtain ⟨reverted', rfl, more, all⟩ := ih later behind ran
        obtain ⟨unsized, more⟩ := List.forall_mem_cons.mp more
        obtain ⟨sized, more⟩ := List.forall_mem_cons.mp more
        refine ⟨reverted', rfl, more, List.forall_mem_cons.mpr ⟨fun b => ?_, all⟩⟩
        cases b
        · exact unsized
        · exact sized

/-- When all arrays are native again, nothing has changed. -/
theorem render_eq_original {array : List Char}
    (all : ∀ element sized, .array element sized ∈ portions → (element, sized) ∈ reverted) :
    render array reverted portions = original portions := by
  refine List.flatMap_congr fun portion member => ?_
  cases portion with
  | char c => rfl
  | array element sized => exact if_pos (all element sized member)

end Rules

end ModelLoading.Conversion
