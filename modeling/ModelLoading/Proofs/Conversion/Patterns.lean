import ModelLoading.Conversion.Rules
import ModelLoading.Proofs.Pattern.Room

/-!
# The patterns of the rules

The fixed patterns are understood. The two that are made for a name are understood for every name that
is not very long, whatever characters it has.
-/

namespace ModelLoading.Conversion

open Pattern

/-! ## 1. Patterns without classes -/

theorem ok_of_toBool {ε α : Type} {x : Except ε α} (h : x.toBool = true) : ∃ a, x = .ok a := by
  cases x with
  | error e => cases h
  | ok a => exact ⟨a, rfl⟩

theorem parse_assetsRoot : ∃ regex, Regex.parse "\\bAssets\\b" = .ok regex :=
  ok_of_toBool (by decide +kernel)

theorem parse_genericArray : ∃ regex, Regex.parse "\\bT\\[\\]" = .ok regex :=
  ok_of_toBool (by decide +kernel)

theorem parse_setter : ∃ regex,
    Regex.parse "SetValue\\(v,br\\.Read(Int32|Single|Boolean)\\(\\)\\)" = .ok regex :=
  ok_of_toBool (by decide +kernel)

/-! ## 2. Calls -/

/-- Anything but a parenthesis. -/
def noParenthesis : CharClass := .complement (.union (.single '(') (.single ')'))

theorem ranges_noParenthesis : noParenthesis.ranges = [(0, 39), (42, 0x10FFFF)] := by
  have sorted : ([(40, 40), (41, 41)] : Text.Ranges).mergeSort (fun a b => a.1 ≤ b.1) =
      [(40, 40), (41, 41)] := List.mergeSort_of_pairwise (by decide)
  change (Text.Ranges.ofList [(40, 40), (41, 41)]).complement = _
  rw [Text.Ranges.ofList, sorted]
  rfl

/-- Parentheses around a group. -/
def callItems (group : Tree) : List Tree := [.char '(', .group (some 1) group, .char ')']

def argumentsTokens : List Token :=
  [.char '(', .opening .numbered, .opening .plain, .one noParenthesis 2, .bar, .char '(',
    .one noParenthesis 2, .repetition 0 none true, .char ')', .closing, .repetition 0 none true,
    .closing, .char ')']

def argumentsTree : Tree :=
  .repeated 0 none true (.group none (.alt [.one noParenthesis 2,
    .seq [.char '(', .repeated 0 none true (.one noParenthesis 2), .char ')']]))

def argumentsParts : List Part :=
  [.group 1 [.repeated 0 none true false [.alt [[.one [(0, 39), (42, 0x10FFFF)]],
    [.text [40], .repeated 0 none true false [.one [(0, 39), (42, 0x10FFFF)]], .text [41]]]]],
    .text [41]]

theorem reads_arguments : Reads ("\\(" ++ callArguments ++ "\\)").toList (callItems argumentsTree) where
  tokens := ⟨argumentsTokens, by decide +kernel, fun _ => ⟨2, rfl⟩⟩
  several := by decide

theorem parts_arguments : Tree.partsOfAll (callItems argumentsTree) = .text [40] :: argumentsParts := by
  simp [callItems, argumentsTree, argumentsParts, Tree.char, Tree.parts, Tree.partsOfAll,
    Tree.partsOfEach, CharClass.single, CharClass.ranges, ranges_noParenthesis, Part.ofRanges,
    Part.join, Part.times, Part.firstOf, Part.branches, Part.char?, Part.set?, Part.start, Tree.expr,
    Tree.exprs, Expr.sequence, Expr.firstOf, Expr.times, Expr.bounds, Expr.onlyEmpty, Expr.nullable]

/-- A call by an escaped name, whose arguments may hold calls. -/
theorem parse_call (name : String) :
    (∃ regex, Regex.parse (escaped name ++ "\\(" ++ callArguments ++ "\\)") = .ok regex) ∨
      80000 < name.length ∧
        Regex.parse (escaped name ++ "\\(" ++ callArguments ++ "\\)") = .error .tooLarge := by
  have source : escaped name ++ "\\(" ++ callArguments ++ "\\)" =
      .ofList (escape name.toList ++ ("\\(" ++ callArguments ++ "\\)").toList) := by
    rw [String.ofList_append, String.ofList_toList, escaped, String.append_assoc,
      String.append_assoc, String.append_assoc]
  have size : ∀ backward, automatonSize backward (.text [40] :: argumentsParts) ≤ 10000 := by
    decide +kernel
  rw [source]
  refine (Regex.parse_escape_append reads_arguments (by decide) parts_arguments size _).imp_right ?_
  rintro ⟨large, refused⟩
  rw [String.length_toList] at large
  simp only [sizeLimit] at large
  exact ⟨by omega, refused⟩

def lineTokens : List Token :=
  [.char '(', .opening .numbered, .one .dot 0, .repetition 1 none true, .closing, .char ')']

def lineTree : Tree := .repeated 1 none true (.one .dot 0)

def lineParts : List Part :=
  [.group 1 [.repeated 1 none true false [.one [(0, 9), (11, 0x10FFFF)]]], .text [41]]

theorem reads_line : Reads "\\((.+)\\)".toList (callItems lineTree) where
  tokens := ⟨lineTokens, by decide +kernel, fun _ => ⟨2, rfl⟩⟩
  several := by decide

/-- A construction of an escaped type, up to the last parenthesis on the line. -/
theorem parse_construction (path : String) :
    (∃ regex, Regex.parse ("new " ++ escaped path ++ "\\((.+)\\)") = .ok regex) ∨
      80000 < path.length ∧
        Regex.parse ("new " ++ escaped path ++ "\\((.+)\\)") = .error .tooLarge := by
  have source : "new " ++ escaped path ++ "\\((.+)\\)" =
      .ofList (escape ("new " ++ path).toList ++ "\\((.+)\\)".toList) := by
    have new : escape "new ".toList = "new ".toList := by decide +kernel
    rw [String.ofList_append, String.ofList_toList, String.toList_append, escape,
      List.flatMap_append]
    change _ = String.ofList (escape _ ++ escape _) ++ _
    rw [new, String.ofList_append, String.ofList_toList, escaped]
  have size : ∀ backward, automatonSize backward (.text [40] :: lineParts) ≤ 10000 := by
    decide +kernel
  rw [source]
  refine (Regex.parse_escape_append reads_line (by decide) (by rfl) size _).imp_right ?_
  rintro ⟨large, refused⟩
  have length : ("new " ++ path).length = 4 + path.length := by rw [String.length_append]; rfl
  rw [String.length_toList, length] at large
  simp only [sizeLimit] at large
  exact ⟨by omega, refused⟩

/-! ## 3. Patterns with words -/

theorem size_group (backward : Bool) (number : Nat) (body : List Part) :
    (Part.group number body).size backward =
      Part.sizeOfAll backward body + if backward then 0 else 2 * stateSize := by
  rw [Part.size]

/-- A repetition without an upper bound takes the room of one round, if one is enough. -/
theorem size_repeated (backward greedy : Bool) {min : Nat} (least : min ≤ 1) (body : List Part) :
    (Part.repeated min none greedy false body).size backward =
      Part.sizeOfAll backward body + (stateSize + 2 * edgeSize) := by
  have once : Nat.max min 1 = 1 := Nat.max_eq_right least
  simp [Part.size, once]

/-- The words of every script are few ranges. -/
theorem length_word : CharClass.word.ranges.length = 796 := by decide +kernel

def readerStart : List Char := ['p', 'r', 'i', 'v', 'a', 't', 'e', ' ', 'v', 'o', 'i', 'd', ' ']

def readerEnd : List Char := ['<', 'T', '>', '(', ')', ' ', '\x7b']

def readerTokens : List Token :=
  readerStart.map .char ++ [.opening .numbered, .one .word 0, .repetition 1 none true, .closing] ++
    readerEnd.map .char

def readerItems : List Tree :=
  readerStart.map .char ++ .group (some 1) (.repeated 1 none true (.one .word 0)) ::
    readerEnd.map .char

/-- The parts of the pattern, with what is repeated. -/
def readerParts (word : List Part) : List Part :=
  [.text (readerStart.map Char.toNat), .group 1 [.repeated 1 none true false word],
    .text (readerEnd.map Char.toNat)]

theorem reads_reader : Reads "private void (\\w+)<T>\\(\\) \\\x7b".toList readerItems where
  tokens := ⟨readerTokens, by decide +kernel, fun _ => ⟨2, rfl⟩⟩
  several := by decide

theorem parts_reader : Tree.partsOfAll readerItems =
    readerParts (Part.ofRanges CharClass.word.ranges) := by
  rfl

theorem parse_reader : ∃ regex, Regex.parse "private void (\\w+)<T>\\(\\) \\\x7b" = .ok regex := by
  refine Regex.parse_ok reads_reader (by decide) fun backward => ?_
  have word := Part.sizeOfAll_ofRanges_le backward CharClass.word.ranges
  have base : ∀ backward, automatonSize backward (readerParts []) ≤ 10000 := by decide +kernel
  have base := base backward
  rw [length_word] at word
  rw [parts_reader]
  simp only [readerParts, automatonSize, Part.sizeOfAll, size_group,
    size_repeated backward true (Nat.le_refl 1)] at base ⊢
  simp only [sizeLimit]
  omega

/-- A letter or a digit of any script, or a dot. -/
def wordOrDot : CharClass := .union .word (.single '.')

def sweepTokens : List Token :=
  [.char '(', .opening .numbered, .one (.range 'A' 'Z') 1, .one wordOrDot 2, .repetition 0 none true,
    .opening .plain, .char '<', .one noParenthesis 2, .repetition 0 none true, .char '>', .closing,
    .repetition 0 (some 1) true, .opening .plain, .char '[', .char ']', .closing,
    .repetition 0 none true, .closing, .char '[', .char ']', .char ')']

def sweepItems : List Tree :=
  [.char '(',
    .group (some 1) (.seq [
      .one (.range 'A' 'Z') 1,
      .repeated 0 none true (.one wordOrDot 2),
      .repeated 0 (some 1) true (.group none
        (.seq [.char '<', .repeated 0 none true (.one noParenthesis 2), .char '>'])),
      .repeated 0 none true (.group none (.seq [.char '[', .char ']']))]),
    .char '[', .char ']', .char ')']

def sweepParts (word : List Part) : List Part :=
  [.text [40],
    .group 1 [
      .one [(65, 90)],
      .repeated 0 none true false word,
      .repeated 0 (some 1) true false
        [.text [60], .repeated 0 none true false [.one [(0, 39), (42, 0x10FFFF)]], .text [62]],
      .repeated 0 none true false [.text [91, 93]]],
    .text [91, 93, 41]]

theorem reads_sweep :
    Reads "\\(([A-Z][\\w.]*(?:<[^()]*>)?(?:\\[\\])*)\\[\\]\\)".toList sweepItems where
  tokens := ⟨sweepTokens, by decide +kernel, fun _ => ⟨2, rfl⟩⟩
  several := by decide

theorem parts_sweep : Tree.partsOfAll sweepItems = sweepParts (Part.ofRanges wordOrDot.ranges) := by
  simp [sweepItems, sweepParts, Tree.char, Tree.parts, Tree.partsOfAll, CharClass.single,
    CharClass.ranges, ranges_noParenthesis, Part.ofRanges, Part.join, Part.times, Tree.expr,
    Tree.exprs, Expr.sequence, Expr.times, Expr.bounds, Expr.onlyEmpty, Expr.nullable]

theorem parse_sweep : ∃ regex,
    Regex.parse "\\(([A-Z][\\w.]*(?:<[^()]*>)?(?:\\[\\])*)\\[\\]\\)" = .ok regex := by
  refine Regex.parse_ok reads_sweep (by decide) fun backward => ?_
  have word := Part.sizeOfAll_ofRanges_le backward wordOrDot.ranges
  have union : wordOrDot.ranges.length ≤ 797 := by
    have union := Text.Ranges.length_union_le CharClass.word.ranges (CharClass.single '.').ranges
    rw [length_word] at union
    rw [wordOrDot, CharClass.ranges]
    exact union
  have base : ∀ backward, automatonSize backward (sweepParts []) ≤ 10000 := by decide +kernel
  have base := base backward
  rw [parts_sweep]
  simp only [sweepParts, automatonSize, Part.sizeOfAll, size_group,
    size_repeated backward true (Nat.zero_le 1)] at base ⊢
  simp only [sizeLimit]
  omega

def typeofStart : List Char := ['t', 'y', 'p', 'e', 'o', 'f', '(']

def typeofTokens : List Token :=
  typeofStart.map .char ++ [.opening .numbered, .one (.range 'A' 'Z') 1, .one noParenthesis 2,
    .repetition 0 none true, .closing, .char ')']

def typeofItems : List Tree :=
  typeofStart.map .char ++ [.group (some 1) (.seq [.one (.range 'A' 'Z') 1,
    .repeated 0 none true (.one noParenthesis 2)]), .char ')']

def typeofParts : List Part :=
  [.text (typeofStart.map Char.toNat), .group 1 [.one [(65, 90)],
    .repeated 0 none true false [.one [(0, 39), (42, 0x10FFFF)]]], .text [41]]

theorem reads_typeof : Reads "typeof\\(([A-Z][^()]*)\\)".toList typeofItems where
  tokens := ⟨typeofTokens, by decide +kernel, fun _ => ⟨2, rfl⟩⟩
  several := by decide

theorem parts_typeof : Tree.partsOfAll typeofItems = typeofParts := by
  simp [typeofStart, typeofItems, typeofParts, Tree.char, Tree.parts, Tree.partsOfAll,
    CharClass.single, CharClass.ranges, ranges_noParenthesis, Part.ofRanges, Part.join, Part.times,
    Tree.expr, Expr.bounds, Expr.onlyEmpty, Expr.nullable]

theorem parse_typeof : ∃ regex, Regex.parse "typeof\\(([A-Z][^()]*)\\)" = .ok regex := by
  refine Regex.parse_ok reads_typeof (by decide) ?_
  rw [parts_typeof]
  decide +kernel

end ModelLoading.Conversion
