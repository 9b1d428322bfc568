import ModelLoading.Proofs.Conversion.Wording
import ModelLoading.Proofs.Edit.Clearing
import ModelLoading.Proofs.Text.Occurrences

/-!
# Headers of generic readers

After a conversion every header of a generic reader is constrained, unless a later rule wrote the name of an
interop array into the header or closed a type in it (`headers_constrained`).
-/

namespace ModelLoading.Conversion

open Edit Text

/-- The header of a generic reader without a constraint. -/
def header₀ (word : List Char) : List Char := readerStart ++ (word ++ readerEnd)

/-- The form of such a header. -/
def headerForm : List Item :=
  exactly readerStart ++ (.one isWord :: .run isWord :: exactly readerEnd)

/-- A header that is left open where its parameters should be. -/
def brokenHeader : List Char := "<T) \x7b".toList

/-- The names of interop arrays that later rules write next to a word. -/
def arrayNames : List (List Char) := ["Il2CppStringArray".toList, "Il2CppReferenceArray".toList]

/-- What the rules write that begin with these names. -/
def arrayTexts : List (List Char) := ["Il2CppStringArray".toList, "Il2CppReferenceArray<T>".toList]

section Headers

variable {word s t : List Char}

theorem last_header (word : List Char) : (header₀ word).getLast? = some '\x7b' := by
  simp [header₀, readerEnd]

/-- A header does not contain the name of an array that is not in its word. -/
theorem not_infix_header {name : List Char} (member : name ∈ arrayNames) (absent : ¬name <:+: word) :
    ¬name <:+: header₀ word := by
  have plain : ∀ name ∈ arrayNames, (' ' ∉ name ∧ '<' ∉ name) ∧ (¬name <:+: "private".toList ∧
      ¬name <:+: "void".toList) ∧ ¬name <:+: "T>() \x7b".toList := by decide
  obtain ⟨⟨space, angle⟩, ⟨first, second⟩, last⟩ := plain name member
  have split : header₀ word =
      "private".toList ++ ' ' :: ("void".toList ++ ' ' :: (word ++ '<' :: "T>() \x7b".toList)) := by
    simp [header₀, readerStart, readerEnd]
  intro occurs
  rw [split] at occurs
  rcases infix_of_infix_append_cons space occurs with here | later
  · exact first here
  · rcases infix_of_infix_append_cons space later with here | later
    · exact second here
    · exact (infix_of_infix_append_cons angle later).elim absent last

variable (isWord_ : IsWord word)

include isWord_

theorem spells_header : Spells headerForm (header₀ word) := by
  obtain ⟨some, all⟩ := isWord_
  obtain ⟨c, rest, rfl⟩ := List.exists_cons_of_ne_nil some
  refine Spells.exactly_append (.one (all c (by simp)) ?_) readerStart
  exact Spells.run (spells_exactly readerEnd) fun c hc => all c (by simp [hc])

theorem not_mem_of_not_word {c : Char} (plain : isWord c = false) : c ∉ word := fun inside => by
  simp [isWord_.2 c inside] at plain

/-- The rule for readers looks for headers at every place, and writes none. -/
theorem reader_clears : (readerEffect {}).Clears free (header₀ word) where
  some := by simp [header₀, readerStart]
  absent := fun _ s leaves ⟨rest, split, _⟩ => leaves word isWord_ ⟨rest, split.symm⟩
  evades := by
    have behind : apart false headerForm (readerEffect {}).newBack = true := by decide
    rintro before old new rest ⟨text, kept, rfl, rfl⟩
    refine ⟨?_, by simp [free], by simp [free]⟩
    rw [← List.append_assoc]
    refine (Apart.of_apart behind (spells_header isWord_)).append (z := '\x7b') (last_header word) ?_
    rw [List.mem_append, not_or]
    exact ⟨by decide, not_mem_of_not_word kept (by decide)⟩

/-- Whether a wording brings forth no header, or puts a text in front that no header can contain. -/
def sparesHeader (w : Wording) : Bool :=
  w.safe free headerForm || (arrayTexts.contains w.newFront && clear false headerForm none w.newFront &&
    !w.newFront.contains '\x7b' && w.back == w.newBack)

theorem keeps_header {e : Effect} (spares : sparesHeader e.toWording = true)
    (unnamed : ∀ name ∈ arrayNames, ¬name <:+: word) : e.Keeps fun s => ¬Occurs free (header₀ word) s := by
  rw [sparesHeader, Bool.or_eq_true] at spares
  rcases spares with safe | array
  · exact Wording.keeps safe (spells_header isWord_)
  · simp only [Bool.and_eq_true, Bool.not_eq_true', List.contains_eq_mem, decide_eq_true_eq, beq_iff_eq,
      decide_eq_false_iff_not] at array
    obtain ⟨⟨⟨member, inside⟩, lacks⟩, back⟩ := array
    have begins : ∀ text ∈ arrayTexts, ∃ name ∈ arrayNames, name <+: text := by decide
    obtain ⟨name, named, begin_⟩ := begins _ member
    have absent : ¬e.newFront <:+: header₀ word := fun occurs =>
      not_infix_header named (unnamed name named) (begin_.isInfix.trans occurs)
    have apart := Apart.of_not_infix inside (spells_header isWord_) (last_header word) lacks absent
    exact Effect.keeps_of_safe (Safe.of_apart apart (by simp [free]) (by simp [free]))
      (back ▸ Safe.refl free _ _)

omit isWord_ in
/-- What ends with a header up to its parameters, behind a closed type, ends the type with it. -/
theorem suffix_of_suffix_typeof {text : List Char}
    (suffix : readerStart ++ (word ++ ['<', 'T', '>']) <:+ "Of<".toList ++ (text ++ ['>'])) :
    ['<', 'T'] <:+ text := by
  have shorter : readerStart ++ (word ++ ['<', 'T']) <:+ "Of<".toList ++ text := by
    obtain ⟨k, split⟩ := suffix
    have closed : (k ++ (readerStart ++ (word ++ ['<', 'T']))) ++ ['>'] =
        ("Of<".toList ++ text) ++ ['>'] := by simpa using split
    exact ⟨k, List.append_cancel_right closed⟩
  obtain ⟨k, split⟩ := shorter
  rcases List.append_eq_append_iff.mp split with ⟨m, front, inside⟩ | ⟨m, -, inside⟩
  · -- a header begins with none of the letters in front
    have start : m = [] := by
      cases m with
      | nil => rfl
      | cons c m =>
        have first : c = 'p' := by simpa [readerStart] using (List.cons.inj inside).1.symm
        have among : c ∈ "Of<".toList := by rw [front]; simp
        exact absurd (first ▸ among) (by decide)
    rw [start, List.nil_append] at inside
    exact ⟨readerStart ++ word, by rw [← inside]; simp⟩
  · exact ⟨m ++ (readerStart ++ word), by rw [inside]; simp⟩

/-- Asking for a type by name makes no header and no broken one, where there was none of both: the type would
be closed where the parameters of the header begin. -/
theorem typeof_keeps : typeofEffect.Keeps fun s =>
    ¬brokenHeader <:+: s ∧ ¬header₀ word <:+: s := by
  refine fun s t count swept => swept.keeps
    (P := fun s => ¬brokenHeader <:+: s ∧ ¬header₀ word <:+: s) (x := []) ?_
  rintro _ _ _ rest x ⟨text, capitalized, rfl, rfl⟩ ⟨unbroken, absent⟩
  have plain := Capitalized.unparenthesized capitalized
  have old : x ++ ((typeofEffect.front ++ (text ++ typeofEffect.back)) ++ rest) =
      x ++ ("typeof(".toList ++ (text ++ ')' :: rest)) := by simp [typeofEffect, exactEffect, aroundEffect]
  have new : x ++ ((typeofEffect.newFront ++ (text ++ typeofEffect.newBack)) ++ rest) =
      (x ++ "Il2CppType".toList) ++ '.' :: ("Of<".toList ++ (text ++ ['>']) ++ '(' :: ')' :: rest) := by
    simp [typeofEffect, exactEffect, aroundEffect]
  rw [old] at unbroken absent
  rw [new]
  have before : x <:+: x ++ ("typeof(".toList ++ (text ++ ')' :: rest)) := (List.prefix_append ..).isInfix
  have behind : ')' :: rest <:+: x ++ ("typeof(".toList ++ (text ++ ')' :: rest)) :=
    ⟨x ++ ("typeof(".toList ++ text), [], by simp⟩
  have word_ : '.' ∉ header₀ word ∧ '(' ∉ readerStart ++ (word ++ ['<', 'T', '>']) := by
    simp only [header₀, List.mem_append, not_or]
    exact ⟨⟨by decide, not_mem_of_not_word isWord_ (by decide), by decide⟩, by decide,
      not_mem_of_not_word isWord_ (by decide), by decide⟩
  have open_ : '(' ∉ "Of<".toList ++ (text ++ ['>']) ∧ ')' ∉ "Of<".toList ++ (text ++ ['>']) := by
    simp only [List.mem_append, not_or]
    exact ⟨⟨by decide, fun inside => (plain _ inside).1 rfl, by decide⟩, by decide,
      fun inside => (plain _ inside).2 rfl, by decide⟩
  constructor
  · intro occurs
    rcases infix_of_infix_append_cons (by decide) occurs with early | late
    · exact unbroken ((infix_of_infix_append (z := '\x7b') (by decide) (by decide) early).trans before)
    · rcases infix_of_infix_append_cons (by decide) late with inside | after
      · exact open_.2 (inside.subset (by decide))
      · exact unbroken (after.trans behind)
  · intro occurs
    rcases infix_of_infix_append_cons word_.1 occurs with early | late
    · exact absent ((infix_of_infix_append (last_header word) (by decide) early).trans before)
    · have split : header₀ word = (readerStart ++ (word ++ ['<', 'T', '>'])) ++ '(' :: [')', ' ', '\x7b'] := by
        simp [header₀, readerEnd]
      rw [split] at late
      rcases infix_append_cons_cases word_.2 open_.1 late with ⟨inside, after⟩ | after
      · obtain ⟨u, closed⟩ := suffix_of_suffix_typeof inside
        obtain ⟨r, rest_⟩ := (List.cons_prefix_cons.mp after).2
        refine unbroken ⟨x ++ ("typeof(".toList ++ u), r, ?_⟩
        simp [brokenHeader, ← closed, ← rest_]
      · exact absent ((split ▸ after).trans behind)

end Headers

/-- No header is unconstrained that has not the name of an interop array in it, if no broken header could be
closed. -/
theorem headers_constrained (h : Ran later s t) (unbroken : ¬brokenHeader <:+: s) {word : List Char}
    (isWord_ : IsWord word) (unnamed : ∀ name ∈ arrayNames, ¬name <:+: word) :
    ¬header₀ word <:+: t := by
  have early : ((later.take 16).map (·.toWording)).all (·.spares [brokenHeader]) = true := by
    rw [List.map_take, later_wordings]
    decide
  have middle : (((later.take 16).drop 4).map (·.toWording)).all sparesHeader = true := by
    rw [List.map_drop, List.map_take, later_wordings]
    decide
  have late : ((later.drop 17).map (·.toWording)).all sparesHeader = true := by
    rw [List.map_drop, later_wordings]
    decide
  have keeps : ∀ {effects : List Effect}, (effects.map (·.toWording)).all sparesHeader = true →
      ∀ e ∈ effects, e.Keeps fun s => ¬Occurs free (header₀ word) s := fun spares _ member =>
    keeps_header isWord_ (List.all_eq_true.mp spares _ (List.mem_map_of_mem member)) unnamed
  -- no header is left by the rule for readers, and none is made before types are asked for by name
  obtain ⟨u, v, count, ran, typeof, rest⟩ := h.at (k := 16) rfl
  obtain ⟨u', v', count', -, reader, between⟩ := ran.at (k := 3) rfl
  have cleared := reader_clears isWord_
  have gone := between.keeps (keeps middle) (reader.not_occurs cleared.some cleared.absent cleared.evades)
  have whole := ran.keeps (keeps_lacks_of_spares early) (fun g member => List.mem_singleton.mp member ▸ unbroken)
  have closed := typeof_keeps isWord_ u v count typeof
    ⟨whole _ (by simp), fun occurs => gone (occurs_free.mpr occurs)⟩
  exact fun occurs => rest.keeps (keeps late) (fun occurs => closed.2 (occurs_free.mp occurs))
    (occurs_free.mpr occurs)

end ModelLoading.Conversion
