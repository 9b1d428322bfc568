import Mathlib.Data.List.TakeWhile
import ModelLoading.Proofs.Conversion.Names
import ModelLoading.Proofs.Text.WholeWords

/-!
# Array casts of unlisted types

A source that is one cast to an array shows each rule the name in the cast, and nothing else that it could
look for. The first rule moves the segments that are the old root of namespaces. Then the rules for arrays of
a type look at the end of the name (`ArrayRule.Ends`). Each is meant for one type, but it also finds a type
whose name merely ends with that one: what stands in front is looked at by the rule for type parameters only,
and there a dot is as good as nothing. A name that none of them finds gets to the cast sweep, which takes it
as a whole.

So an unlisted type is cast to its own reference array if its name does not go on in front of one that such a
rule is for, and only then (`array_cast_converted_iff`).
-/

namespace ModelLoading.Conversion

open Edit Text

variable {h m s name front out : List Char} {t : Target}

/-! ## 1. Casts and rules -/

/-- A cast of a variable. -/
def castTo (type : List Char) : List Char := parenthesized type ++ [' ', 'x']

/-- The new root of namespaces. -/
def newRoot : List Char := "Il2CppAssets".toList

/-- A name with the new root of namespaces in the place of the old one. -/
def moved (name : List Char) : List Char :=
  ['.'].intercalate ((segments name).map fun part => if part = oldRoot then newRoot else part)

/-- The types that the default names list, and those with primitive elements. -/
def listedTypes : List (List Char) :=
  let v : Vocabulary := {}
  (v.references ++ v.structs ++ v.enums ++ (primitiveArrays v).map (·.1)).map (·.toList) ++
    v.assetRefs.map assetPath

/-- The listed types, spelled out. -/
def listedTexts : { spelled : List (List Char) // listedTypes = spelled } := ⟨_, by
  simp only [listedTypes, primitiveArrays, assetPath, Vocabulary.assetRefPath, toString,
    String.toList_append, List.map_cons, List.map_nil, List.cons_append, List.nil_append]
  repeat rewrite [String.toList_ofList]
  rfl⟩

theorem enum_mem_listedTypes {name : String} (member : name ∈ ({} : Vocabulary).enums) :
    name.toList ∈ listedTypes :=
  List.mem_append_left _
    (List.mem_map_of_mem (List.mem_append_left _ (List.mem_append_right _ member)))

theorem assetPath_mem_listedTypes {name : String} (member : name ∈ ({} : Vocabulary).assetRefs) :
    assetPath name ∈ listedTypes :=
  List.mem_append_right _ (List.mem_map_of_mem member)

/-- A rule that replaces the native arrays of a type. -/
structure ArrayRule where
  /-- The number of rules between the class signature and this one. -/
  place : Nat
  element : String
  interop : String
  bounds : Bounds := free

/-- The rules that replace native arrays. -/
def arrayRules : List ArrayRule :=
  let v : Vocabulary := {}
  [{ place := 7, element := "T", interop := v.referenceArrayOf "T", bounds := fromWord },
    { place := 9, element := "System.String", interop := v.stringArray },
    { place := 11, element := "System.Single", interop := v.structArrayOf "float" },
    { place := 13, element := "System.Int32", interop := v.structArrayOf "int" },
    { place := 18, element := targetType, interop := v.referenceArrayOf targetType },
    { place := 20, element := "Il2CppAssets.Scripts.Simulation.SMath.Vector3",
      interop := v.structArrayOf "Il2CppAssets.Scripts.Simulation.SMath.Vector3" }]

namespace ArrayRule

/-- The place of a rule, and its texts. -/
def texts (r : ArrayRule) : Nat × List Char × List Char := (r.place, r.element.toList, r.interop.toList)

/-- The places and the texts of the rules, spelled out. -/
def spelled : { spelled : List (Nat × List Char × List Char) // arrayRules.map texts = spelled } := ⟨_, by
  simp only [arrayRules, texts, Vocabulary.referenceArrayOf, Vocabulary.structArrayOf, targetType,
    toString, String.toList_append, List.map_cons, List.map_nil]
  repeat rewrite [String.toList_ofList]
  rfl⟩

/-- A question about the texts of the rules is decided where they are spelled out. -/
theorem forall_of_spelled {P : Nat × List Char × List Char → Prop} (h : ∀ x ∈ spelled.val, P x) :
    ∀ r ∈ arrayRules, P r.texts := fun _ member =>
  h _ (spelled.property ▸ List.mem_map_of_mem member)

/-- The end of a name is what a rule looks for, behind a text. -/
def Ends (r : ArrayRule) (name front : List Char) : Prop :=
  name = front ++ r.element.toList ∧ (r.bounds.left → inWord front.getLast? = false)

/-- The native array that a rule looks for. -/
def array (r : ArrayRule) : String := s!"{r.element}[]"

/-- What a rule does. -/
def effect (r : ArrayRule) : Effect :=
  if r.bounds.left then wordEffect r.bounds r.array r.interop else literalEffect r.array r.interop

variable {r r' : ArrayRule}

theorem toList_array (r : ArrayRule) : r.array.toList = nativeOf r.element.toList := toList_native r.element

theorem later_effect : ∀ r ∈ arrayRules, later[r.place]? = some r.effect := by
  intro r member
  simp only [arrayRules, List.mem_cons, List.not_mem_nil, or_false] at member
  rcases member with rfl | rfl | rfl | rfl | rfl | rfl <;> rfl

theorem replaces : ∀ r ∈ arrayRules,
    r.effect.Replaces r.bounds (nativeOf r.element.toList) r.interop.toList := by
  have bounds : ∀ r ∈ arrayRules, r.bounds = fromWord ∨ r.bounds = free := by
    simp [arrayRules]
  intro r member
  rw [← toList_array, effect]
  rcases bounds r member with same | same
  · rw [if_pos (by simp [same, fromWord])]
    exact .of_word
  · rw [if_neg (by simp [same, free]), same]
    exact .of_literal

theorem named_element : ∀ r ∈ arrayRules, r.element.toList ≠ [] ∧ Named r.element.toList :=
  forall_of_spelled (P := fun x => x.2.1 ≠ [] ∧ Named x.2.1) (by decide)

/-- No name ends with what two rules look for. -/
theorem eq_of_ends (member : r ∈ arrayRules) (member' : r' ∈ arrayRules) {front' : List Char}
    (ends : r.Ends m front) (ends' : r'.Ends m front') : r = r' := by
  have apart : ∀ r ∈ arrayRules, ∀ r' ∈ arrayRules, r.element.toList <:+ r'.element.toList →
      r.place = r'.place := fun r member =>
    forall_of_spelled (P := fun y => r.element.toList <:+ y.2.1 → r.place = y.1) <|
      forall_of_spelled (P := fun x => ∀ y ∈ spelled.val, x.2.1 <:+ y.2.1 → x.1 = y.1) (by decide)
        r member
  have places : ∀ r ∈ arrayRules, ∀ r' ∈ arrayRules, r.place = r'.place → r = r' := by
    simp [arrayRules]
  have first : r.element.toList <:+ m := ⟨front, ends.1.symm⟩
  have second : r'.element.toList <:+ m := ⟨front', ends'.1.symm⟩
  rcases List.suffix_or_suffix_of_suffix first second with within | within
  · exact places r member r' member' (apart r member r' member' within)
  · exact (places r' member' r member (apart r' member' r member within)).symm

end ArrayRule

/-! ## 2. Headings -/

/-- The namespace line. -/
def lineFrame : Frame := { front := "\nnamespace".toList, first := ' ', last := ';', back := ['\n'] }

/-- The forms of what can stand between the preamble and the source. -/
def lines : List (List Item) := [[], lineFrame.form]

/-- Whether a wording has a text, in front of what is kept or behind, that is a part of no text of a form. -/
def missesForm (form : List Item) (w : Wording) : Bool :=
  absent form w.front || (!w.back.isEmpty && absent form w.back)

/-- What stands in front of a source that no rule changes. -/
structure Heading (h : List Char) : Prop where
  split : ∃ line, h = preambleText.val ++ line ∧ ∃ form ∈ lines, Spells form line
  root : ¬Occurs wholeWord oldRoot h

/-- A target has no namespace, or a dotted name without the old root. -/
def Target.Settled (t : Target) : Prop :=
  ∀ ns, t.namespaceName = some ns → Named ns.toList ∧ oldRoot ∉ segments ns.toList

set_option maxRecDepth 10000 in
theorem heading_preamble : Heading preambleText.val where
  split := ⟨[], by simp, [], by simp [lines], .nil⟩
  root := not_occurs_of_clear (by decide) (spells_exactly _) (by decide)

/-- No word of the namespace line is the old root. -/
theorem heading_line (named : Named name) (root : oldRoot ∉ segments name) :
    Heading (preambleText.val ++ lineFrame.around name) where
  split := ⟨_, rfl, _, by simp [lines], lineFrame.spells named⟩
  root := by
    intro occurs
    have opening : ¬Occurs wholeWord oldRoot (preambleText.val ++ lineFrame.front) := by
      have split : lineFrame.front = '\n' :: "namespace".toList := by decide
      rw [split]
      exact fun occurs => (occurs.cases (by decide)).elim heading_preamble.root
        (not_occurs_of_clear (by decide) (spells_exactly _) (by decide))
    have closing : ¬Occurs wholeWord oldRoot lineFrame.back := fun occurs => absurd occurs.infix (by decide)
    rw [Frame.around, ← List.append_assoc] at occurs
    exact root ((occurs_root_iff named).mp (occurs.inside (by decide) (by decide) opening closing))

theorem heading_header (settled : t.Settled) : Heading (header t).toList := by
  unfold header
  split
  · rename_i ns within
    split
    · exact preambleText.property ▸ heading_preamble
    · obtain ⟨named, root⟩ := settled ns within
      have line : s!"\nnamespace {ns};\n".toList = lineFrame.around ns.toList :=
        Frame.toList_around (f := lineFrame) (by decide) (by decide) ns
      rw [String.toList_append, line, preambleText.property]
      exact heading_line named root
  · exact preambleText.property ▸ heading_preamble

namespace Heading

variable (heading : Heading h)

include heading

/-- A character that is neither in the preamble nor in a namespace line is not in front of the source. -/
theorem not_mem {c : Char} (first : c ∉ preambleText.val) (second : ∀ line ∈ lines, absent line [c] = true) :
    c ∉ h := by
  obtain ⟨line, rfl, form, member, spells⟩ := heading.split
  intro inside
  rcases List.mem_append.mp inside with before | behind
  · exact first before
  · exact not_infix_of_absent (second form member) spells (by simp) (List.singleton_infix_iff _ _ |>.mpr behind)

/-- No text that a wording needs is in any text of a form behind a heading. -/
theorem misses {w : Wording} (member : w ∈ laterTexts.val.map (·.2)) {form : List Item} (spells : Spells form s)
    (misses : ∀ line ∈ lines, missesForm (line ++ form) w = true) : w.misses (h ++ s) = true := by
  have filled : ∀ w ∈ laterTexts.val.map (·.2), w.front ≠ [] := by decide
  obtain ⟨line, rfl, lineForm, inside, line_⟩ := heading.split
  rw [List.append_assoc]
  refine misses_of_missesBehind member ?_
  have checked := misses lineForm inside
  have whole := line_.append spells
  simp only [missesForm, missesBehind, Bool.or_eq_true, Bool.and_eq_true, decide_eq_true_eq,
    Bool.not_eq_true', List.isEmpty_eq_false_iff] at checked ⊢
  rcases checked with front | ⟨some, back⟩
  · exact .inl (not_infix_of_absent front whole (filled w member))
  · exact .inr ⟨some, not_infix_of_absent back whole some⟩

end Heading

/-! ## 3. Rules that find nothing -/

/-- The form of a cast to a type with a name in front. -/
def castForm (back : List Char) : List Item := exactly ['('] ++ .run wordOrDot.mem :: exactly back

theorem spells_cast (named : Named m) (type : List Char) :
    Spells (castForm (type ++ [')', ' ', 'x'])) (castTo (m ++ type)) := by
  have spelled : castTo (m ++ type) = ['('] ++ (m ++ (type ++ [')', ' ', 'x'])) := by
    simp [castTo, parenthesized]
  rw [spelled]
  exact ((spells_exactly _).run named).exactly_append _

/-- The name and the bracket of an array in a cast are what stands in front of the bracket. -/
theorem castTo_native (h m : List Char) :
    h ++ castTo (nativeOf m) = (h ++ '(' :: m) ++ '[' :: [']', ')', ' ', 'x'] := by
  simp [castTo, parenthesized, nativeOf]

/-- What the rule for the class signature looks for. -/
theorem signature_front (t : Target) : (signatureEffect t).front = t.shortName.toList ++ generatedSignature := by
  unfold signatureEffect literalEffect
  dsimp only
  exact toList_signature t

section Native

variable (heading : Heading h) (named : Named m)

include heading named

/-- A character that is neither in front of the cast nor in names is not there, but for the characters of the
cast itself. -/
theorem not_mem_native {c : Char} (first : c ∉ preambleText.val)
    (second : ∀ line ∈ lines, absent line [c] = true)
    (third : wordOrDot.mem c = false) (fourth : c ∉ castTo ['[', ']']) : c ∉ h ++ castTo (nativeOf m) := by
  have outside : c ∉ h ∧ c ∉ m := ⟨heading.not_mem first second, named.not_mem third⟩
  simp only [castTo, parenthesized, List.mem_cons, List.mem_append, List.not_mem_nil, or_false, not_or] at fourth
  simp [castTo, parenthesized, nativeOf, outside, fourth]

/-- The bracket of the array is the first one. -/
theorem bracket_not_mem : '[' ∉ h ++ '(' :: m := by
  simp [heading.not_mem (c := '[') (by decide) (by decide), named.not_mem (c := '[') (by decide)]

/-- The rules of the class signature find nothing. -/
theorem signed_eq_self (head : (header t).toList = h) :
    signed t (castTo (nativeOf m)) = h ++ castTo (nativeOf m) := by
  have ran : Ran ((classSignatureEffects t {}).map (·.2)) (h ++ castTo (nativeOf m))
      (signed t (castTo (nativeOf m))) := by
    rw [signed_eq, head]
    exact classSignature_have.ran _
  have signature : ¬(signatureEffect t).front <:+: h ++ castTo (nativeOf m) := by
    have colon : ':' ∈ (signatureEffect t).front := by
      rw [signature_front]
      exact List.mem_append_right _ (by decide)
    exact fun occurs =>
      not_mem_native heading named (by decide) (by decide) (by decide) (by decide) (occurs.mem colon)
  have members : ¬membersEffect.front <:+: h ++ castTo (nativeOf m) := fun occurs =>
    not_mem_native heading named (c := '\t') (by decide) (by decide) (by decide) (by decide)
      (occurs.mem (by decide))
  have table : ¬(tableEffect t).front <:+: h ++ castTo (nativeOf m) := by
    have text : (tableEffect t).front = "object[] m;".toList := rfl
    have split : "object[] m;".toList = "object".toList ++ '[' :: "] m;".toList := by decide
    rw [text, split, castTo_native]
    intro occurs
    rcases infix_append_cons_cases (by decide) (bracket_not_mem heading named) occurs with ⟨-, front⟩ | behind
    · exact absurd front (by decide)
    · exact absurd behind (by decide)
  have effects : (classSignatureEffects t {}).map (·.2) =
      [signatureEffect t, membersEffect, tableEffect t] := rfl
  refine ran.eq_of_turns fun e member => Effect.turns_of_misses ?_
  simp only [effects, List.mem_cons, List.not_mem_nil, or_false] at member
  rcases member with rfl | rfl | rfl <;> simp [Wording.misses, signature, members, table]

/-! ## 4. Rules that find an array -/

/-- The first rule moves the segments of the name. -/
theorem turns_moved : (wordEffect wholeWord "Assets" "Il2CppAssets").Turns (h ++ castTo (nativeOf m))
    (h ++ castTo (nativeOf (moved m))) := by
  intro u count swept
  have swept : Sweep (wordSwap oldRoot newRoot) (wordStay oldRoot) none
      (h ++ '(' :: (m ++ '[' :: [']', ')', ' ', 'x'])) u count := by
    rw [castTo_native, List.append_assoc] at swept
    refine swept.mono ?_ fun _ _ => id
    rintro _ _ _ _ ⟨_, ⟨rfl, begins⟩, rfl, rfl⟩
    exact ⟨List.append_nil _, List.append_nil _, begins⟩
  obtain ⟨a, _, _, _, rfl, before, inside⟩ := swept.cut (by decide) (by decide)
  obtain ⟨b, c, _, _, rfl, between, behind⟩ := inside.cut (by decide) (by decide)
  have rest : ¬Occurs wholeWord oldRoot [']', ')', ' ', 'x'] := fun occurs => absurd occurs.infix (by decide)
  have name : b = moved m := by
    rw [← intercalate_pieces (List.cons_ne_nil '.' []) m] at between
    exact between.intercalate_words (by decide) (by decide) (by decide) (by decide)
      fun part member => isWord_of_mem_segments named member
  rw [before.eq_of_not_occurs heading.root, name, behind.eq_of_not_occurs rest, castTo_native]
  simp

/-- What a rule for arrays finds is the end of the name. -/
theorem exists_ends {b : Bounds} {element : List Char} (names : Named element)
    (occurs : Occurs b (nativeOf element) (h ++ castTo (nativeOf m))) :
    ∃ front, m = front ++ element ∧ (b.left → inWord front.getLast? = false) := by
  obtain ⟨l, -, split, r, rfl, left, -⟩ := occurs
  have split : (h ++ '(' :: m) ++ '[' :: [']', ')', ' ', 'x'] = (l ++ element) ++ '[' :: (']' :: r) := by
    rw [castTo_native] at split
    simpa [nativeOf] using split
  have bare := bracket_not_mem heading named
  have early : '[' ∉ l ++ element := by
    have one : List.count '[' ((h ++ '(' :: m) ++ '[' :: [']', ')', ' ', 'x']) = 1 := by
      rw [List.count_append, List.count_eq_zero_of_not_mem bare]
      rfl
    rw [split, List.count_append, List.count_cons_self] at one
    exact List.count_eq_zero.mp (by omega)
  have same : h ++ '(' :: m = l ++ (element ++ []) := by simpa using (eq_of_append_cons bare early split).1
  rcases cases_of_append_cons (names.not_mem (by decide)) same with ⟨k, rfl⟩ | ⟨front, whole⟩
  · have lengths := congrArg List.length same
    simp only [List.length_append, List.length_cons, List.length_nil] at lengths
    omega
  · rw [List.append_nil] at whole
    refine ⟨front, whole, fun isLeft => ?_⟩
    have before : l = h ++ '(' :: front := by
      rw [whole, List.append_nil] at same
      exact (List.append_cancel_right (by simpa using same)).symm
    have bound := left isLeft
    rw [before, List.getLast?_append, List.getLast?_cons] at bound
    cases last : front.getLast? with
    | none => rfl
    | some c => simpa [last] using bound

end Native

/-- An array does not overlap itself. -/
theorem nativeOf_not_infix_tail {element z : List Char} (some : element ≠ []) (names : Named element)
    (plain : '[' ∉ z) : ¬nativeOf element <:+: (nativeOf element ++ z).tail := by
  obtain ⟨c, rest, rfl⟩ := List.exists_cons_of_ne_nil some
  have bare := names.not_mem (c := '[') (by decide)
  have tail : (nativeOf (c :: rest) ++ z).tail = rest ++ '[' :: (']' :: z) := by simp [nativeOf]
  rw [tail]
  intro occurs
  rcases infix_append_cons_cases bare (fun inside => bare (by simp [inside])) occurs with ⟨same, -⟩ | later
  · have lengths := same.length_le
    simp at lengths
  · have bracket := later.mem (by simp : '[' ∈ (c :: rest) ++ '[' :: [']'])
    simp [plain] at bracket

/-- A rule for arrays turns the end of the name into its array. -/
theorem turns_ended {r : ArrayRule} (heading : Heading h) (member : r ∈ arrayRules) (named : Named m)
    (ends : r.Ends m front) :
    r.effect.Turns (h ++ castTo (nativeOf m)) (h ++ castTo (front ++ r.interop.toList)) := by
  obtain ⟨rfl, bound⟩ := ends
  obtain ⟨some, names⟩ := ArrayRule.named_element r member
  have turned := (ArrayRule.replaces r member).turns (x := h ++ '(' :: front) (z := [')', ' ', 'x'])
  generalize r.element.toList = element at *
  have before : ']' ∉ (h ++ '(' :: front) ++ (nativeOf element).dropLast := by
    have outside := heading.not_mem (c := ']') (by decide) (by decide)
    have inside := named.not_mem (c := ']') (by decide)
    rw [List.mem_append, not_or] at inside
    have array : (nativeOf element).dropLast = element ++ ['['] := by simp [nativeOf]
    simp [array, outside, inside]
  have begins : Begins r.bounds (nativeOf element) (h ++ '(' :: front).getLast?
      (nativeOf element ++ [')', ' ', 'x']) := by
    refine ⟨_, rfl, fun isLeft => ?_, fun _ => by decide⟩
    rw [List.getLast?_append, List.getLast?_cons]
    cases last : front.getLast? with
    | none => rfl
    | some c => simpa [last] using bound isLeft
  have spelled : ∀ type, h ++ castTo (front ++ type) = (h ++ '(' :: front) ++ (type ++ [')', ' ', 'x']) := by
    simp [castTo, parenthesized]
  have array : nativeOf (front ++ element) = front ++ nativeOf element := List.append_assoc ..
  rw [array, spelled, spelled]
  exact turned (by simp [nativeOf])
    ⟨fun occurs => before (occurs.mem (by simp [nativeOf])),
      nativeOf_not_infix_tail some names (by decide)⟩ begins

/-- The rules before the cast sweep find nothing but the ends of names. -/
theorem turns_unended (heading : Heading h) (named : Named m) {j : Nat} {e : Effect} (here : later[j]? = some e)
    (first : j ≠ 0) (early : j < 28) (none : ∀ r ∈ arrayRules, r.place = j → ∀ front, ¬r.Ends m front) :
    e.Turns (h ++ castTo (nativeOf m)) (h ++ castTo (nativeOf m)) := by
  have others : ∀ line ∈ lines, ∀ j ∈ List.range 28, j = 0 ∨ j ∈ arrayRules.map (·.place) ∨
      (laterTexts.val.map (·.2))[j]?.all
        (missesForm (line ++ castForm (nativeOf [] ++ [')', ' ', 'x']))) = true := by
    decide +kernel
  by_cases listed : j ∈ arrayRules.map (·.place)
  · obtain ⟨r, member, rfl⟩ := List.mem_map.mp listed
    obtain rfl := Option.some.inj ((ArrayRule.later_effect r member).symm.trans here)
    refine (ArrayRule.replaces r member).turns_self fun occurs => ?_
    obtain ⟨front, ends⟩ := exists_ends heading named (ArrayRule.named_element r member).2 occurs
    exact none r member rfl front ends
  · have wording : (laterTexts.val.map (·.2))[j]? = some e.toWording := by
      rw [← later_wordings, List.getElem?_map, here]
      rfl
    refine Effect.turns_of_misses (heading.misses (List.mem_of_getElem? wording) (spells_cast named _) ?_)
    intro line member
    have checked := ((others line member j (List.mem_range.mpr early)).resolve_left first).resolve_left listed
    rwa [wording] at checked

/-- None of the rules before the cast sweep does anything as long as none of them finds the end of the name. -/
theorem turns_before (heading : Heading h) (named : Named m) {k : Nat} (early : k ≤ 28)
    (none : ∀ r ∈ arrayRules, r.place < k → ∀ front, ¬r.Ends m front) :
    ∀ e ∈ (later.drop 1).take (k - 1), e.Turns (h ++ castTo (nativeOf m)) (h ++ castTo (nativeOf m)) := by
  intro e before
  obtain ⟨i, there⟩ := List.mem_iff_getElem?.mp before
  rw [List.getElem?_take] at there
  split at there
  · rw [List.getElem?_drop] at there
    exact turns_unended heading named there (by omega) (by omega) fun r member place => none r member (by omega)
  · cases there

/-- The cast sweep takes what is left as a whole. -/
theorem turns_swept (heading : Heading h) (isName : IsName m) :
    (sweepEffect {}).Turns (h ++ castTo (nativeOf m)) (h ++ castTo (arrayOf m)) := by
  have named := named_of_isName isName
  obtain ⟨opening, closing⟩ := named.plain_nativeOf
  have outside : '(' ∉ h := heading.not_mem (by decide) (by decide)
  have front : (sweepEffect {}).front = ['('] := by decide
  have back : (sweepEffect {}).back = ['[', ']'] ++ [')'] := by decide
  have spelled : castTo (nativeOf m) = (sweepEffect {}).front ++ (nativeOf m ++ [')', ' ', 'x']) := by
    rw [front]
    simp [castTo, parenthesized]
  rw [spelled]
  refine Effect.turns_of_once (by simp [front]) ⟨?_, ?_⟩ ?_ fun before text rest castable split => ?_
  · rw [front]
    simpa [List.singleton_infix_iff] using outside
  · rw [front]
    simpa [List.singleton_infix_iff] using opening
  · refine fun leaves => leaves m isName ?_
    change (sweepEffect {}).front ++ (m ++ (sweepEffect {}).back) <+: _
    rw [sweep_front, front]
    exact ⟨[' ', 'x'], by simp [parenthesized]⟩
  · have castable : Castable text := castable
    have unclosed : ')' ∉ nativeOf text := by
      simpa [nativeOf] using fun inside => (castable.plain _ inside).2 rfl
    have whole : nativeOf text ++ ')' :: rest = nativeOf m ++ ')' :: [' ', 'x'] := by
      rw [back] at split
      simpa [nativeOf] using split
    obtain ⟨same, rfl⟩ := eq_of_append_cons unclosed closing whole
    obtain rfl : text = m := List.append_cancel_right same
    rw [castTo, ← sweep_newFront]
    simp

/-! ## 5. The cast alone -/

/-- A name that ends with what a rule for arrays looks for gets the array of the rule. -/
theorem eq_of_ended {r : ArrayRule} (heading : Heading h) (member : r ∈ arrayRules) (named : Named m)
    (ends : r.Ends m front) (ran : Ran (later.drop 1) (h ++ castTo (nativeOf m)) out) :
    out = h ++ castTo (front ++ r.interop.toList) := by
  have places : ∀ r ∈ arrayRules, 0 < r.place ∧ r.place ≤ 28 := by decide
  have after : ∀ r ∈ arrayRules, ∀ line ∈ lines, ((laterTexts.val.map (·.2)).drop (r.place + 1)).all
      (missesForm (line ++ castForm (r.interop.toList ++ [')', ' ', 'x']))) = true :=
    ArrayRule.forall_of_spelled (P := fun x => ∀ line ∈ lines,
      ((laterTexts.val.map (·.2)).drop (x.1 + 1)).all
        (missesForm (line ++ castForm (x.2.2 ++ [')', ' ', 'x']))) = true) (by decide +kernel)
  obtain ⟨positive, early⟩ := places r member
  have names : Named front := fun c inside => named c (by simp [ends.1, inside])
  refine ran.eq_of_one (k := r.place - 1) ?_ (turns_before heading named early ?_)
    (turns_ended heading member named ends) ?_
  · rw [List.getElem?_drop, Nat.add_sub_cancel' positive]
    exact ArrayRule.later_effect r member
  · intro r' member' sooner front' ends'
    obtain rfl := ArrayRule.eq_of_ends member member' ends ends'
    omega
  · rw [List.map_drop, later_wordings, List.drop_drop, ← Nat.add_assoc, Nat.add_sub_cancel' positive]
    refine List.all_eq_true.mpr fun w inside => ?_
    refine heading.misses (List.mem_of_mem_drop inside) (spells_cast names _) fun line within => ?_
    exact List.all_eq_true.mp (after r member line within) w inside

/-- A reference array in the cast is that of the type. -/
theorem eq_of_arrayOf_cast {element : List Char} (heading : Heading h) (named : Named m) (names : Named element)
    (occurs : arrayOf element <:+: h ++ castTo (arrayOf m)) : element = m := by
  have before : '<' ∉ h ++ '(' :: arrayStart := by
    have outside := heading.not_mem (c := '<') (by decide) (by decide)
    simpa [outside] using (by decide : '<' ∉ arrayStart)
  have behind : '<' ∉ m ++ ['>', ')', ' ', 'x'] := by
    simp [named.not_mem (c := '<') (by decide)]
  have spelled : h ++ castTo (arrayOf m) = (h ++ '(' :: arrayStart) ++ '<' :: (m ++ ['>', ')', ' ', 'x']) := by
    simp [castTo, parenthesized, arrayOf]
  rw [spelled] at occurs
  rcases infix_append_cons_cases (by decide) before occurs with ⟨-, r, split⟩ | later
  · rw [List.append_assoc] at split
    exact (eq_of_append_cons (names.not_mem (by decide)) (named.not_mem (by decide)) split).1
  · exact absurd (later.mem (angle_mem_arrayOf element)) behind

theorem arrayOf_infix_sizedEnum (name : String) :
    arrayOf name.toList <:+: (sizedEnumEffect {} name).front := by
  have front : (sizedEnumEffect {} name).front = arrayOf name.toList ++ ['('] := by
    rw [← referenceArrayOf_eq]
    exact String.toList_append ..
  exact front ▸ (List.prefix_append ..).isInfix

theorem arrayOf_infix_enum (name : String) : arrayOf name.toList <:+: (enumEffect {} name).front :=
  referenceArrayOf_eq name ▸ List.infix_rfl

theorem arrayOf_infix_assetArray (name : String) :
    arrayOf (assetPath name) <:+: (assetArrayEffect {} name).front := by
  have front : (assetArrayEffect {} name).front = ['('] ++ arrayOf (assetPath name) ++ [')'] := by
    rw [assetPath, ← referenceArrayOf_eq]
    simp [assetArrayEffect, literalEffect, toString]
  exact front ▸ List.infix_append ..

/-- The rules behind the cast sweep find nothing in the cast to an array of an unlisted type. -/
theorem last_misses (heading : Heading h) (named : Named m) (unlisted : m ∉ listedTypes) :
    ∀ e ∈ last, e.toWording.misses (h ++ castTo (arrayOf m)) = true := by
  have factories : ∀ line ∈ lines, ∀ name ∈ ({} : Vocabulary).assetRefs, missesForm
      (line ++ (exactly ('(' :: (arrayStart ++ ['<'])) ++ .run wordOrDot.mem :: exactly ['>', ')', ' ', 'x']))
      (factoryEffect {} name).toWording = true := by decide +kernel
  have spells : Spells
      (exactly ('(' :: (arrayStart ++ ['<'])) ++ .run wordOrDot.mem :: exactly ['>', ')', ' ', 'x'])
      (castTo (arrayOf m)) := by
    have spelled : castTo (arrayOf m) = ('(' :: (arrayStart ++ ['<'])) ++ (m ++ ['>', ')', ' ', 'x']) := by
      simp [castTo, parenthesized, arrayOf]
    exact spelled ▸ ((spells_exactly _).run named).exactly_append _
  have absent : ∀ {element : List Char}, Named element → element ∈ listedTypes → ∀ {e : Effect},
      arrayOf element <:+: e.front → e.toWording.misses (h ++ castTo (arrayOf m)) = true := by
    intro element names listed e inside
    have none : ¬e.front <:+: h ++ castTo (arrayOf m) := fun occurs =>
      unlisted (eq_of_arrayOf_cast heading named names (inside.trans occurs) ▸ listed)
    simp [Wording.misses, none]
  intro e member
  rcases mem_last member with ⟨name, inside, rfl | rfl⟩ | ⟨name, inside, rfl | rfl⟩
  · exact absent (named_enum name inside) (enum_mem_listedTypes inside) (arrayOf_infix_sizedEnum name)
  · exact absent (named_enum name inside) (enum_mem_listedTypes inside) (arrayOf_infix_enum name)
  · have wording : (factoryEffect {} name).toWording ∈ laterTexts.val.map (·.2) := by
      rw [← later_wordings]
      exact List.mem_map_of_mem (List.mem_of_mem_drop member)
    exact heading.misses wording spells fun line within => factories line within name inside
  · exact absent (named_assetPath inside) (assetPath_mem_listedTypes inside)
      (arrayOf_infix_assetArray name)

/-- A name that no rule for arrays finds gets its own reference array. -/
theorem eq_of_unended (heading : Heading h) (isName : IsName m) (unlisted : m ∉ listedTypes)
    (none : ∀ r ∈ arrayRules, ∀ front, ¬r.Ends m front)
    (ran : Ran (later.drop 1) (h ++ castTo (nativeOf m)) out) : out = h ++ castTo (arrayOf m) := by
  have named := named_of_isName isName
  refine ran.eq_of_one (k := 27) (e := sweepEffect {}) rfl ?_ (turns_swept heading isName) ?_
  · exact turns_before heading named (k := 28) (by omega) fun r member _ => none r member
  · rw [← List.map_drop, List.drop_drop, List.all_map]
    exact List.all_eq_true.mpr fun e member => last_misses heading named unlisted e member

/-! ## 6. Conversions -/

theorem named_intercalate {parts : List (List Char)} (each : ∀ part ∈ parts, Named part) :
    Named (['.'].intercalate parts) := by
  induction parts with
  | nil => exact fun c inside => absurd inside (by simp)
  | cons first others ih =>
    obtain ⟨one, each⟩ := List.forall_mem_cons.mp each
    cases others with
    | nil => rwa [List.intercalate_singleton]
    | cons second others =>
      rw [List.intercalate_cons_cons]
      intro c inside
      simp only [List.mem_append, List.mem_singleton] at inside
      rcases inside with (here | rfl) | later
      · exact one c here
      · decide
      · exact ih each c later

theorem head?_intercalate {first : List Char} (some : first ≠ []) (others : List (List Char)) :
    (['.'].intercalate (first :: others)).head? = first.head? := by
  obtain ⟨c, rest, rfl⟩ := List.exists_cons_of_ne_nil some
  cases others <;> simp [List.intercalate_cons_cons]

/-- The first segment of a name begins with its capital letter. -/
theorem exists_first_segment (isName : IsName name) : ∃ first others, segments name = first :: others ∧
    ∃ c, first.head? = some c ∧ (Pattern.CharClass.range 'A' 'Z').mem c = true := by
  obtain ⟨c, rest, rfl, capital, -⟩ := isName
  have whole := intercalate_pieces (List.cons_ne_nil '.' []) (c :: rest)
  change ['.'].intercalate (segments (c :: rest)) = c :: rest at whole
  cases parts : segments (c :: rest) with
  | nil => simp [parts] at whole
  | cons first others =>
    rw [parts] at whole
    have filled : first ≠ [] := by
      rintro rfl
      cases others with
      | nil => simp at whole
      | cons second others =>
        rw [List.intercalate_cons_cons] at whole
        obtain ⟨rfl, -⟩ := List.cons.inj whole
        exact absurd capital (by decide)
    exact ⟨first, others, rfl, c, by rw [← head?_intercalate filled others, whole]; rfl, capital⟩

/-- A name with the new root in the place of the old one is a name. -/
theorem isName_moved (isName : IsName name) : IsName (moved name) := by
  have words : Named (moved name) := by
    refine named_intercalate fun part member => ?_
    obtain ⟨old, inside, rfl⟩ := List.mem_map.mp member
    split
    · decide
    · exact fun c here => named_of_isName isName c ((infix_of_mem_pieces inside).mem here)
  obtain ⟨c, begins, capital⟩ : ∃ c, (moved name).head? = some c ∧
      (Pattern.CharClass.range 'A' 'Z').mem c = true := by
    obtain ⟨first, others, parts, c, head, capital⟩ := exists_first_segment isName
    rw [moved, parts, List.map_cons]
    split
    · exact ⟨'I', by rw [head?_intercalate (by decide)]; decide, by decide⟩
    · have filled : first ≠ [] := by
        rintro rfl
        cases head
      exact ⟨c, by rw [head?_intercalate filled, head], capital⟩
  obtain ⟨rest, split⟩ := List.head?_eq_some_iff.mp begins
  exact ⟨c, rest, split, capital, fun d inside => words d (by simp [split, inside])⟩

/-- Behind the first rule, the cast is that of the name with the new root. -/
theorem exists_moved (valid : t.validate = .ok ()) (settled : t.Settled) (isName : IsName name) :
    ∃ out, convert t {} (castTo (nativeOf name)) = .ok out ∧
      Ran (later.drop 1) ((header t).toList ++ castTo (nativeOf (moved name))) out := by
  have heading := heading_header settled
  have named := named_of_isName isName
  obtain ⟨out, done, ran⟩ := exists_converted valid (castTo (nativeOf name))
  rw [signed_eq_self heading named rfl] at ran
  have split : later = wordEffect wholeWord "Assets" "Il2CppAssets" :: later.drop 1 := rfl
  rw [split] at ran
  rcases ran with _ | ⟨first, rest⟩
  exact ⟨out, done, turns_moved heading named _ _ first ▸ rest⟩

/-- What a rule for arrays makes of a longer name is not the reference array of the type. -/
theorem eq_nil_of_interop_eq {r : ArrayRule} (member : r ∈ arrayRules) (named : Named front)
    (same : front ++ r.interop.toList = arrayOf (front ++ r.element.toList)) : front = [] := by
  have short : ∀ r ∈ arrayRules,
      (r.interop.toList.dropWhile (· ≠ '<')).length ≤ r.element.toList.length + 2 :=
    ArrayRule.forall_of_spelled
      (P := fun x => (x.2.2.dropWhile (· ≠ '<')).length ≤ x.2.1.length + 2) (by decide)
  have whole := List.takeWhile_append_dropWhile (p := (· ≠ '<')) (l := r.interop.toList)
  have length := short r member
  have bare : '<' ∉ front ++ r.interop.toList.takeWhile (· ≠ '<') := by
    rw [List.mem_append, not_or]
    exact ⟨named.not_mem (by decide), fun inside => by simpa using List.mem_takeWhile_imp inside⟩
  rw [← whole, ← List.append_assoc] at same
  cases rest : r.interop.toList.dropWhile (· ≠ '<') with
  | nil =>
    rw [rest, List.append_nil] at same
    exact absurd (same ▸ angle_mem_arrayOf _) bare
  | cons c behind =>
    have angle : c = '<' := by
      have stop := List.head?_dropWhile_not (· ≠ '<') r.interop.toList
      rw [rest] at stop
      simpa using stop
    rw [rest, angle, arrayOf] at same
    have lengths := congrArg List.length (eq_of_append_cons bare (by decide) same).2
    simp only [rest, List.length_append, List.length_cons, List.length_nil] at length lengths
    exact List.eq_nil_of_length_eq_zero (by omega)

theorem castTo_inj {a b : List Char} (same : castTo a = castTo b) : a = b := by
  simpa [castTo, parenthesized] using same

/-- The cast to an array of a type that is not listed becomes one to its reference array if no rule for arrays
takes its name for the end of a longer one, and only then. Where one does, its array takes the place of the end. -/
theorem array_cast_converted_iff (valid : t.validate = .ok ()) (settled : t.Settled) (isName : IsName name)
    (unlisted : moved name ∉ listedTypes) : ∃ out, convert t {} (castTo (nativeOf name)) = .ok out ∧
      (out = (header t).toList ++ castTo (arrayOf (moved name)) ↔
        ∀ r ∈ arrayRules, ∀ front, r.Ends (moved name) front → front = []) ∧
      ∀ r ∈ arrayRules, ∀ front, r.Ends (moved name) front →
        out = (header t).toList ++ castTo (front ++ r.interop.toList) := by
  have whole : ∀ r ∈ arrayRules,
      r.element.toList ∈ listedTypes ∨ r.interop.toList = arrayOf r.element.toList := by
    rw [listedTexts.property]
    exact ArrayRule.forall_of_spelled
      (P := fun x => x.2.1 ∈ listedTexts.val ∨ x.2.2 = arrayOf x.2.1) (by decide +kernel)
  have heading := heading_header settled
  obtain ⟨out, done, ran⟩ := exists_moved valid settled isName
  have isName := isName_moved isName
  have named := named_of_isName isName
  have ended : ∀ r ∈ arrayRules, ∀ front, r.Ends (moved name) front →
      out = (header t).toList ++ castTo (front ++ r.interop.toList) :=
    fun r member front ends => eq_of_ended heading member named ends ran
  refine ⟨out, done, ⟨fun same r member front ends => ?_, fun none => ?_⟩, ended⟩
  · have names : Named front := fun c inside => named c (by simp [ends.1, inside])
    have casts := List.append_cancel_left ((ended r member front ends).symm.trans same)
    rw [ends.1] at casts
    exact eq_nil_of_interop_eq member names (castTo_inj casts)
  · by_cases some : ∃ r ∈ arrayRules, ∃ front, r.Ends (moved name) front
    · obtain ⟨r, member, front, ends⟩ := some
      obtain rfl := none r member front ends
      -- the whole name is that of a type parameter, since it is not listed
      have own : r.interop.toList = arrayOf r.element.toList :=
        (whole r member).resolve_left fun listed => unlisted (by simpa [ends.1] using listed)
      rw [ended r member [] ends, ends.1, List.nil_append, List.nil_append, own]
    · refine eq_of_unended heading isName unlisted (fun r member front ends => ?_) ran
      exact some ⟨r, member, front, ends⟩

set_option maxRecDepth 10000 in
/-- A type whose name ends with the letter of type parameters, but not with that segment. -/
theorem array_cast_converted_iff_of_letter :
    let name := "Assets.MyT".toList
    smallTarget.validate = .ok () ∧ smallTarget.Settled ∧ IsName name ∧ moved name = "Il2CppAssets.MyT".toList ∧
      moved name ∉ listedTypes ∧ ∃ out, convert smallTarget {} "(Assets.MyT[]) x".toList = .ok out ∧
        out = (header smallTarget).toList ++ "(Il2CppReferenceArray<Il2CppAssets.MyT>) x".toList := by
  intro name
  have isName : IsName name := ⟨'A', "ssets.MyT".toList, by decide, by decide, List.all_eq_true.mp (by decide)⟩
  have valid : smallTarget.validate = .ok () := by decide
  have settled : smallTarget.Settled := fun ns within => by cases within
  have place : moved name = "Il2CppAssets.MyT".toList := by decide
  have unlisted : moved name ∉ listedTypes := by
    rw [listedTexts.property]
    decide +kernel
  have others : ∀ r ∈ arrayRules, r.element = "T" ∧ r.bounds.left = true ∨ ¬r.element.toList <:+ moved name := by
    decide +kernel
  obtain ⟨out, done, whole, -⟩ := array_cast_converted_iff valid settled isName unlisted
  refine ⟨valid, settled, isName, place, unlisted, out, done, whole.mpr fun r member front ends => ?_⟩
  rcases others r member with ⟨letter, bounded⟩ | absent
  · have before : front = "Il2CppAssets.My".toList := by
      have split : "Il2CppAssets.My".toList ++ "T".toList = front ++ "T".toList := by
        rw [← letter, ← ends.1, letter, place]
        decide
      exact (List.append_cancel_right split).symm
    have bound := ends.2 bounded
    rw [before] at bound
    exact absurd bound (by decide)
  · exact absurd ⟨front, ends.1.symm⟩ absent

/-- The cast to an array of an unlisted type becomes another one than that to its reference array. -/
def Mistaken (name becomes : String) : Prop :=
  smallTarget.validate = .ok () ∧ IsName name.toList ∧ moved name.toList = name.toList ∧
    name.toList ∉ listedTypes ∧ becomes.toList ≠ castTo (arrayOf name.toList) ∧
    convert smallTarget {} (castTo (nativeOf name.toList)) = .ok ((header smallTarget).toList ++ becomes.toList)

theorem mistaken_of_ends {name becomes : String} {r : ArrayRule} (front : String) (member : r ∈ arrayRules)
    (isName : IsName name.toList) (rooted : moved name.toList = name.toList)
    (unlisted : name.toList ∉ listedTexts.val)
    (ends : r.Ends name.toList front.toList) (spelled : becomes.toList = castTo (front.toList ++ r.interop.toList))
    (other : becomes.toList ≠ castTo (arrayOf name.toList)) : Mistaken name becomes := by
  have valid : smallTarget.validate = .ok () := by decide
  have settled : smallTarget.Settled := fun ns within => by cases within
  obtain ⟨out, done, ran⟩ := exists_moved valid settled isName
  rw [rooted] at ran
  have written := eq_of_ended (heading_header settled) member (named_of_isName isName) ends ran
  refine ⟨valid, isName, rooted, ?_, other, by rw [done, written, spelled]⟩
  rwa [listedTexts.property]

set_option maxRecDepth 10000 in
/-- The segment of type parameters, the name of a primitive type in the middle of a word, and the whole name of
a listed type behind another one are taken for the type that a rule is for. -/
theorem unlisted_types_mistaken : Mistaken "A.T" "(A.Il2CppReferenceArray<T>) x" ∧
    Mistaken "MySystem.String" "(MyIl2CppStringArray) x" ∧
    Mistaken "X.Il2CppAssets.Scripts.Models.Towers.TargetType"
      "(X.Il2CppReferenceArray<Il2CppAssets.Scripts.Models.Towers.TargetType>) x" := by
  refine ⟨?_, ?_, ?_⟩
  · refine mistaken_of_ends "A." (r := arrayRules[0]) (by simp) ⟨'A', ".T".toList, by decide, by decide, ?_⟩
      (by decide) (by decide +kernel) ⟨by decide, by decide⟩ (by decide) (by decide)
    exact List.all_eq_true.mp (by decide)
  · refine mistaken_of_ends "My" (r := arrayRules[1]) (by simp)
      ⟨'M', "ySystem.String".toList, by decide, by decide, ?_⟩
      (by decide) (by decide +kernel) ⟨by decide, by decide⟩ (by decide) (by decide)
    exact List.all_eq_true.mp (by decide)
  · refine mistaken_of_ends "X." (r := arrayRules[4]) (by simp)
      ⟨'X', ".Il2CppAssets.Scripts.Models.Towers.TargetType".toList, by decide, by decide, ?_⟩
      (by decide) (by decide +kernel) ⟨by decide, by decide⟩ (by decide) (by decide)
    exact List.all_eq_true.mp (by decide)

end ModelLoading.Conversion
