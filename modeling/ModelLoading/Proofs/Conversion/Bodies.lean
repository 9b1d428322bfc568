import ModelLoading.Proofs.Conversion.Patterns
import ModelLoading.Proofs.Pattern.Greedy
import ModelLoading.Proofs.Pattern.Words

/-!
# What the patterns of the rules match

Each pattern of a rule is fixed text, or fixed text around one group. The pattern that is read from the
written form of a rule is given here for every rule, those that are made for a name included.
-/

namespace ModelLoading.Conversion

open Pattern

/-! ## 1. Reading -/

/-- What is read from a written pattern is what its items describe. -/
theorem body_of_reads {source : String} {items : List Tree} (reads : Reads source.toList items)
    {regex : Regex} (h : Regex.parse source = .ok regex) :
    regex.body = (Tree.seq items).expr ∧ regex.names = [] := by
  obtain ⟨tokens, read, tree⟩ := reads.ofTokens
  rw [Regex.parse, read] at h
  simp only [bind, Except.bind, tree] at h
  split at h
  · cases h
  · split at h
    · cases h
      exact ⟨rfl, rfl⟩
    · cases h

theorem exprs_chars_append (s : List Char) (items : List Tree) :
    Tree.exprs (s.map Tree.char ++ items) = s.map Expr.char ++ Tree.exprs items := by
  induction s with
  | nil => rfl
  | cons c s ih =>
    rw [List.map_cons, List.cons_append, Tree.exprs, ih]
    rfl

/-- Items of fixed text around a group describe fixed text around a group. -/
theorem expr_enclosing (front back : List Char) (group : Tree) :
    (Tree.seq (front.map Tree.char ++ .group (some 1) group :: back.map Tree.char)).expr =
      .enclosing front group.expr back := by
  have behind := exprs_chars_append back []
  rw [List.append_nil, Tree.exprs, List.append_nil] at behind
  rw [Tree.expr, exprs_chars_append, Tree.exprs, behind, Tree.expr]
  rfl

/-! ## 2. Names and calls -/

section Calls

variable {regex : Regex}

/-- A call by a name, with the arguments as the group. -/
theorem body_call {name : String}
    (h : Regex.parse (escaped name ++ "\\(" ++ callArguments ++ "\\)") = .ok regex) :
    regex.body = .enclosing (name.toList ++ ['(']) argumentsTree.expr [')'] := by
  have source : (escaped name ++ "\\(" ++ callArguments ++ "\\)").toList =
      escape name.toList ++ ("\\(" ++ callArguments ++ "\\)").toList := by
    simp [escaped]
  have reads := reads_arguments.escape_append name.toList
  rw [← source] at reads
  rw [(body_of_reads reads h).1, ← expr_enclosing]
  simp [callItems]

/-- A construction of a type, with the arguments as the group. -/
theorem body_construction {path : String}
    (h : Regex.parse ("new " ++ escaped path ++ "\\((.+)\\)") = .ok regex) :
    regex.body = .enclosing (("new " ++ path).toList ++ ['(']) lineTree.expr [')'] := by
  have source : ("new " ++ escaped path ++ "\\((.+)\\)").toList =
      escape ("new " ++ path).toList ++ "\\((.+)\\)".toList := by
    have new : escape "new ".toList = "new ".toList := by decide +kernel
    have escapes : escape ("new " ++ path).toList = escape "new ".toList ++ escape path.toList := by
      rw [String.toList_append, escape, List.flatMap_append]
      rfl
    rw [escapes, new]
    simp [escaped]
  have reads := reads_line.escape_append ("new " ++ path).toList
  rw [← source] at reads
  rw [(body_of_reads reads h).1, ← expr_enclosing]
  simp [callItems]

/-! ## 3. Fixed patterns -/

def setterStart : List Char := "SetValue(v,br.Read".toList

def setterEnd : List Char := "())".toList

/-- The readers of the values that setters are given. -/
def setterNames : List (List Char) := ["Int32".toList, "Single".toList, "Boolean".toList]

def setterTree : Tree := .alt (setterNames.map fun name => .seq (name.map Tree.char))

theorem reads_setter : Reads "SetValue\\(v,br\\.Read(Int32|Single|Boolean)\\(\\)\\)".toList
    (setterStart.map Tree.char ++ .group (some 1) setterTree :: setterEnd.map Tree.char) where
  tokens := ⟨setterStart.map .char ++ [.opening .numbered] ++ "Int32".toList.map .char ++ [.bar] ++
    "Single".toList.map .char ++ [.bar] ++ "Boolean".toList.map .char ++ [.closing] ++
    setterEnd.map .char, by decide +kernel, fun _ => ⟨2, by rfl⟩⟩
  several := by decide

theorem body_setter
    (h : Regex.parse "SetValue\\(v,br\\.Read(Int32|Single|Boolean)\\(\\)\\)" = .ok regex) :
    regex.body = .enclosing setterStart setterTree.expr setterEnd := by
  rw [(body_of_reads reads_setter h).1, expr_enclosing]

/-- One of several texts. -/
theorem expr_setter :
    setterTree.expr = .firstOf (setterNames.map fun name => .sequence (name.map Expr.char)) := by
  have each : ∀ names : List (List Char), Tree.exprs (names.map fun name => .seq (name.map Tree.char)) =
      names.map fun name => .sequence (name.map Expr.char) := by
    intro names
    induction names with
    | nil => rfl
    | cons name names ih =>
      have chars := exprs_chars_append name []
      rw [List.append_nil, Tree.exprs, List.append_nil] at chars
      rw [List.map_cons, Tree.exprs, ih, Tree.expr, chars]
      rfl
  rw [setterTree, Tree.expr, each]

theorem body_reader (h : Regex.parse "private void (\\w+)<T>\\(\\) \\\x7b" = .ok regex) :
    regex.body = .enclosing readerStart (.repeated 1 none true (.one .word)) readerEnd := by
  rw [(body_of_reads reads_reader h).1, readerItems, expr_enclosing]
  rfl

/-- What the cast sweep keeps. -/
def sweepTree : Tree := .seq [
  .one (.range 'A' 'Z') 1,
  .repeated 0 none true (.one wordOrDot 2),
  .repeated 0 (some 1) true (.group none
    (.seq [.char '<', .repeated 0 none true (.one noParenthesis 2), .char '>'])),
  .repeated 0 none true (.group none (.seq [.char '[', .char ']']))]

theorem body_sweep
    (h : Regex.parse "\\(([A-Z][\\w.]*(?:<[^()]*>)?(?:\\[\\])*)\\[\\]\\)" = .ok regex) :
    regex.body = .enclosing ['('] sweepTree.expr ['[', ']', ')'] := by
  rw [(body_of_reads reads_sweep h).1, ← expr_enclosing]
  rfl

/-- The types that are asked for by name. -/
def typeofTree : Tree := .seq [.one (.range 'A' 'Z') 1, .repeated 0 none true (.one noParenthesis 2)]

theorem body_typeof (h : Regex.parse "typeof\\(([A-Z][^()]*)\\)" = .ok regex) :
    regex.body = .enclosing typeofStart typeofTree.expr [')'] := by
  rw [(body_of_reads reads_typeof h).1, ← expr_enclosing]
  rfl

/-- The place of a word boundary. -/
def boundary : Tree := .assert .wordBoundary

def assetsItems : List Tree := boundary :: ("Assets".toList.map Tree.char ++ [boundary])

theorem reads_assetsRoot : Reads "\\bAssets\\b".toList assetsItems where
  tokens := ⟨.assert .wordBoundary :: ("Assets".toList.map .char ++ [.assert .wordBoundary]),
    by decide +kernel, fun _ => ⟨1, by rfl⟩⟩
  several := by decide

def genericItems : List Tree := boundary :: "T[]".toList.map Tree.char

theorem reads_genericArray : Reads "\\bT\\[\\]".toList genericItems where
  tokens := ⟨.assert .wordBoundary :: "T[]".toList.map .char, by decide +kernel, fun _ => ⟨1, by rfl⟩⟩
  several := by decide

theorem body_assetsRoot (h : Regex.parse "\\bAssets\\b" = .ok regex) :
    regex.body = .word Text.wholeWord "Assets".toList := by
  rw [(body_of_reads reads_assetsRoot h).1, assetsItems, Tree.expr, Tree.exprs, exprs_chars_append]
  rfl

theorem body_genericArray (h : Regex.parse "\\bT\\[\\]" = .ok regex) :
    regex.body = .word Text.fromWord "T[]".toList := by
  have chars := exprs_chars_append "T[]".toList []
  rw [List.append_nil, Tree.exprs, List.append_nil] at chars
  rw [(body_of_reads reads_genericArray h).1, genericItems, Tree.expr, Tree.exprs, chars, Expr.word]
  rfl

end Calls

/-! ## 4. What the groups match -/

/-- A text without parentheses. -/
def Unparenthesized (s : List Char) : Prop := ∀ c ∈ s, c ≠ '(' ∧ c ≠ ')'

instance (s : List Char) : Decidable (Unparenthesized s) := List.decidableBAll _ s

/-- A capital letter, and then characters of a class. -/
def Capitalized (cls : CharClass) (s : List Char) : Prop :=
  ∃ c rest, s = c :: rest ∧ (CharClass.range 'A' 'Z').mem c = true ∧ ∀ d ∈ rest, cls.mem d = true

/-- A capitalized word of letters, digits, underscores and dots. -/
abbrev IsName (s : List Char) : Prop := Capitalized wordOrDot s

/-- Nothing, or a text between two characters. -/
def Between (first last : Char) (s : List Char) : Prop :=
  s = [] ∨ s.head? = some first ∧ s.getLast? = some last

/-- What a cast can name: a name, then type arguments if there are any, and then any number of brackets. -/
structure Castable (s : List Char) : Prop where
  plain : Unparenthesized s
  form : ∃ name arguments brackets, s = name ++ (arguments ++ brackets) ∧ IsName name ∧
    Between '<' '>' arguments ∧ Between '[' ']' brackets

section Ways

variable {s t : Spot} {first last : Char}

theorem mem_noParenthesis (c : Char) : noParenthesis.mem c = true ↔ c ≠ '(' ∧ c ≠ ')' := by
  rw [noParenthesis, CharClass.mem, CharClass.mem, Bool.not_eq_true', Bool.or_eq_false_iff,
    ← Bool.not_eq_true, ← Bool.not_eq_true, mem_single, mem_single]

theorem mem_wordOrDot (c : Char) : wordOrDot.mem c = true ↔ Text.isWord c = true ∨ c = '.' := by
  rw [wordOrDot, CharClass.mem, Bool.or_eq_true, mem_single]
  rfl

theorem passes_of_mem_ways_one {cls : CharClass} (h : t ∈ (Expr.one cls).ways s) :
    ∃ c, cls.mem c = true ∧ s.place.Passes [c] t.place := by
  rw [Expr.ways] at h
  split at h
  · rename_i c next goesOn
    split at h
    · rename_i member
      obtain rfl := List.mem_singleton.mp h
      exact ⟨c, member, .of_next? goesOn⟩
    · simp at h
  · simp at h

theorem Capitalized.unparenthesized {text : List Char} (h : Capitalized noParenthesis text) :
    Unparenthesized text := by
  obtain ⟨c, run, rfl, capital, all⟩ := h
  intro d hd
  rcases List.mem_cons.mp hd with rfl | later
  · constructor <;> rintro rfl <;> exact absurd capital (by decide)
  · exact (mem_noParenthesis d).mp (all d later)

/-- A capital letter and a run are a way of their pattern. -/
theorem mem_ways_capitalized {cls : CharClass} {text : List Char} (capitalized : Capitalized cls text)
    (stands : text <+: s.place.rest) :
    s.after text ∈ (Expr.sequence [.one (.range 'A' 'Z'), .repeated 0 none true (.one cls)]).ways s := by
  obtain ⟨c, run, rfl, capital, all⟩ := capitalized
  obtain ⟨rest, split⟩ := stands
  obtain ⟨d, goesOn, behind⟩ := Cursor.next?_of_cons split.symm
  have first : s.after [c] = { s with place := d } := by
    rw [← Spot.after_cons goesOn, Spot.after, Cursor.after_nil]
  rw [ways_sequence_cons, List.mem_flatMap]
  refine ⟨_, mem_ways_one ⟨run ++ rest, split⟩ capital, ?_⟩
  rw [first, ← Spot.after_cons goesOn]
  change _ ∈ rounds _ true 0 none _
  rw [rounds]
  exact mem_star (fun s c stands => mem_ways_one stands) ⟨rest, behind.symm⟩ all

/-- What the pattern of a capital letter and a run passes. -/
theorem capitalized_of_mem_ways {cls : CharClass} {p : Expr} {text : List Char}
    (h : t ∈ (Expr.sequence [.one (.range 'A' 'Z'), .repeated 0 none true (.one cls)]).ways s)
    (passed : p.Passed s t text) : Capitalized cls text := by
  rw [ways_sequence_cons, List.mem_flatMap] at h
  obtain ⟨u, capital, run⟩ := h
  obtain ⟨c, isCapital, passesC⟩ := passes_of_mem_ways_one capital
  obtain ⟨b, ⟨passesB, onlyB⟩, -⟩ := passes_of_mem_ways run
  have whole : text = c :: b := List.append_cancel_right
    (passed.1.rest.symm.trans (passesC.trans passesB).rest)
  exact ⟨c, b, whole, isCapital, onlyB (cls.mem · = true) fun _ => id⟩

/-- A name is a way of what the cast sweep keeps. -/
theorem mem_ways_sweep {name : List Char} (isName : IsName name) (stands : name <+: s.place.rest) :
    s.after name ∈ sweepTree.expr.ways s := by
  have split : sweepTree.expr = .sequence ([.one (.range 'A' 'Z'), .repeated 0 none true (.one wordOrDot)] ++
      [.repeated 0 (some 1) true
          (.sequence [.char '<', .repeated 0 none true (.one noParenthesis), .char '>']),
        .repeated 0 none true (.sequence [.char '[', .char ']'])]) := rfl
  rw [split, ways_sequence_append, List.mem_flatMap]
  refine ⟨_, mem_ways_capitalized isName stands, ?_⟩
  rw [ways_sequence_cons, List.mem_flatMap]
  exact ⟨_, self_mem_ways _ _ _ _, self_mem_ways _ _ _ _⟩

theorem passes_of_mem_ways_char {c : Char} (h : t ∈ (Expr.char c).ways s) : s.place.Passes [c] t.place := by
  rw [ways_char] at h
  split at h
  · rename_i stands
    obtain rfl := List.mem_singleton.mp h
    exact Cursor.passes_after stands
  · simp at h

/-- A pattern between two characters passes a text between them. -/
theorem passes_between {inner : List Expr}
    (h : t ∈ (Expr.sequence (.char first :: (inner ++ [.char last]))).ways s) :
    ∃ passed, s.place.Passes passed t.place ∧ Between first last passed := by
  rw [ways_sequence_cons, List.mem_flatMap] at h
  obtain ⟨u, opens, h⟩ := h
  rw [ways_sequence_append, List.mem_flatMap] at h
  obtain ⟨v, inside, closes⟩ := h
  obtain ⟨middle, ⟨passes, -⟩, -⟩ := passes_of_mem_ways inside
  refine ⟨[first] ++ (middle ++ [last]), ?_, .inr ⟨by simp, by simp [List.getLast?_cons]⟩⟩
  exact (passes_of_mem_ways_char opens).trans (passes.trans (passes_of_mem_ways_char closes))

theorem Between.append {a b : List Char} (ha : Between first last a) (hb : Between first last b) :
    Between first last (a ++ b) := by
  rcases ha with rfl | ⟨head, ends⟩
  · exact hb
  · rcases hb with rfl | ⟨-, ends'⟩
    · rw [List.append_nil]
      exact .inr ⟨head, ends⟩
    · exact .inr ⟨by simp [head], by simp [ends']⟩

/-- Rounds of a pattern between two characters pass nothing, or a text between them. -/
theorem passes_between_of_repeated {min : Nat} {max : Option Nat} {greedy : Bool} {inner : List Expr}
    (h : t ∈ (Expr.repeated min max greedy
      (.sequence (.char first :: (inner ++ [.char last])))).ways s) :
    ∃ passed, s.place.Passes passed t.place ∧ Between first last passed := by
  rw [Expr.ways] at h
  refine rounds_induction (P := fun u => ∃ passed, s.place.Passes passed u.place ∧
    Between first last passed) ?_ ⟨[], .refl _, .inl rfl⟩ h
  rintro u v ⟨a, passes, between⟩ round
  obtain ⟨b, passes', between'⟩ := passes_between round
  exact ⟨a ++ b, passes.trans passes', between.append between'⟩

/-- What the cast sweep keeps is something that a cast can name. -/
theorem castable_of_mem_ways {text : List Char} (h : t ∈ sweepTree.expr.ways s)
    (passed : sweepTree.expr.Passed s t text) : Castable text := by
  have lacks : ∀ {d : Char}, sweepTree.expr.lacks d = true → ∀ c ∈ text, c ≠ d :=
    fun lacks => passed.2 _ (Expr.only_ne_of_lacks lacks)
  refine ⟨fun c hc => ⟨lacks (by decide) c hc, lacks (by decide) c hc⟩, ?_⟩
  change t ∈ (Expr.sequence [.one (.range 'A' 'Z'), .repeated 0 none true (.one wordOrDot),
    .repeated 0 (some 1) true
      (.sequence (.char '<' :: ([.repeated 0 none true (.one noParenthesis)] ++ [.char '>']))),
    .repeated 0 none true (.sequence (.char '[' :: ([] ++ [.char ']'])))]).ways s at h
  rw [ways_sequence_cons, List.mem_flatMap] at h
  obtain ⟨u, capital, h⟩ := h
  rw [ways_sequence_cons, List.mem_flatMap] at h
  obtain ⟨v, word, h⟩ := h
  rw [ways_sequence_cons, List.mem_flatMap] at h
  obtain ⟨w, generic, arrays⟩ := h
  obtain ⟨a, isCapital, passesA⟩ := passes_of_mem_ways_one capital
  obtain ⟨b, ⟨passesB, onlyB⟩, -⟩ := passes_of_mem_ways word
  obtain ⟨c, passesC, betweenC⟩ := passes_between_of_repeated generic
  obtain ⟨d, passesD, betweenD⟩ := passes_between_of_repeated (t := t) arrays
  have whole : text = (a :: b) ++ (c ++ d) := by
    have split := ((passesA.trans passesB).trans (passesC.trans passesD)).rest
    exact List.append_cancel_right (passed.1.rest.symm.trans split)
  have isName : IsName (a :: b) := ⟨a, b, rfl, isCapital, onlyB (wordOrDot.mem · = true) fun _ => id⟩
  exact ⟨a :: b, c, d, whole, isName, betweenC, betweenD⟩

end Ways

end ModelLoading.Conversion
