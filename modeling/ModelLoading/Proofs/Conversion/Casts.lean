import ModelLoading.Proofs.Conversion.Natives
import ModelLoading.Proofs.Text.Segments

/-!
# Native array casts

The cast sweep takes every array cast that names its element type, so right behind it none is native. What
comes after it writes two kinds of native casts: those of asset references, and those of enum types, which
were reference arrays. A reference array of an enum type is there only as a whole cast, since all of them
were gone before the sweep; so what is written for it is again the cast of an enum type
(`native_casts_listed`).
-/

namespace ModelLoading.Conversion

open Edit Text
open Pattern (Expr CharClass)

variable {s t m text element : List Char} {name : String}

/-! ## 1. Casts -/

/-- The path of an asset reference type. -/
def assetPath (name : String) : List Char := (({} : Vocabulary).assetRefPath name).toList

/-- The element types whose array casts may stay native. -/
def Listed (element : List Char) : Prop :=
  (∃ name ∈ ({} : Vocabulary).enums, element = name.toList) ∨
    ∃ name ∈ ({} : Vocabulary).assetRefs, element = assetPath name

/-- What reference arrays begin with. -/
def arrayStart : List Char := "Il2CppReferenceArray".toList

/-- The reference array of a type. -/
def arrayOf (element : List Char) : List Char := arrayStart ++ '<' :: (element ++ ['>'])

/-- The native array of a type. -/
def nativeOf (element : List Char) : List Char := element ++ ['[', ']']

theorem angle_mem_arrayOf (element : List Char) : '<' ∈ arrayOf element :=
  List.mem_append_right _ List.mem_cons_self

theorem not_mem_arrayOf {c : Char} (other : c ∉ arrayStart) (open_ : c ≠ '<')
    (close : c ≠ '>') (absent : c ∉ element) : c ∉ arrayOf element := by
  simp only [arrayOf, List.mem_append, List.mem_cons, List.not_mem_nil, or_false, not_or]
  exact ⟨other, open_, absent, close⟩

theorem referenceArrayOf_eq (name : String) :
    (({} : Vocabulary).referenceArrayOf name).toList = arrayOf name.toList :=
  toList_referenceArrayOf (v := {}) name

theorem toList_native (name : String) : s!"{name}[]".toList = nativeOf name.toList := by
  simp [nativeOf, toString]

/-- Characters of names. -/
def Named (element : List Char) : Prop := ∀ c ∈ element, wordOrDot.mem c = true

instance (element : List Char) : Decidable (Named element) := List.decidableBAll _ element

theorem Named.not_mem (named : Named element) {c : Char} (other : wordOrDot.mem c = false) :
    c ∉ element := fun inside => by simp [named c inside] at other

theorem named_enum : ∀ name ∈ ({} : Vocabulary).enums, Named name.toList := by decide

theorem named_asset : ∀ name ∈ ({} : Vocabulary).assetRefs, Named name.toList := by decide

theorem named_assetPath (member : name ∈ ({} : Vocabulary).assetRefs) : Named (assetPath name) := by
  have space : Named ({} : Vocabulary).assetRefNamespace.toList := by decide
  rw [assetPath, toList_assetRefPath]
  intro c inside
  rcases List.mem_append.mp inside with before | behind
  · exact space c before
  · rcases List.mem_cons.mp behind with rfl | inside
    · decide
    · exact named_asset name member c inside

/-- A native array of a name has no parentheses. -/
theorem Named.plain_nativeOf (named : Named element) : '(' ∉ nativeOf element ∧ ')' ∉ nativeOf element := by
  simp only [nativeOf, List.mem_append, not_or]
  exact ⟨⟨named.not_mem (by decide), by decide⟩, ⟨named.not_mem (by decide), by decide⟩⟩

/-- A reference array of a name has no parentheses. -/
theorem Named.plain_arrayOf (named : Named element) : '(' ∉ arrayOf element ∧ ')' ∉ arrayOf element :=
  ⟨not_mem_arrayOf (by decide) (by decide) (by decide) (named.not_mem (by decide)),
    not_mem_arrayOf (by decide) (by decide) (by decide) (named.not_mem (by decide))⟩

theorem isWord_of_capital {c : Char} (capital : (CharClass.range 'A' 'Z').mem c = true) :
    Text.isWord c = true := by
  simp only [CharClass.mem, Bool.and_eq_true, decide_eq_true_eq] at capital
  have low : 65 ≤ c.toNat := capital.1
  have high : c.toNat ≤ 90 := capital.2
  have upper : c.isUpper = true := decide_eq_true ⟨capital.1, capital.2⟩
  have alphabetic : c.isAlpha = (c.isUpper || c.isLower) := rfl
  rw [Text.isWord, if_pos (by omega)]
  simp [Char.isAlphanum, alphabetic, upper]

theorem named_of_isName (isName : IsName element) : Named element := by
  obtain ⟨c, rest, rfl, capital, all⟩ := isName
  intro d hd
  rcases List.mem_cons.mp hd with rfl | later
  · exact (mem_wordOrDot d).mpr (.inl (isWord_of_capital capital))
  · exact all d later

/-- What may stand in parentheses: of native arrays of names those of listed types, and of the reference
arrays of enum types no more than one of them alone. -/
structure Admitted (m : List Char) : Prop where
  names : ∀ element, IsName element → m = nativeOf element → Listed element
  arrays : ∀ name ∈ ({} : Vocabulary).enums, arrayOf name.toList <:+: m → m = arrayOf name.toList

/-- Every segment of a text is admitted. -/
def CastsAdmitted (s : List Char) : Prop :=
  ∀ m, '(' ∉ m → ')' ∉ m → parenthesized m <:+: s → Admitted m

/-- The native array of a listed type is admitted. -/
theorem admitted_nativeOf (listed : Listed element) (named : Named element) :
    Admitted (nativeOf element) where
  names := fun _ _ same => List.append_cancel_right same ▸ listed
  arrays := fun name _ occurs => by
    have inside : '<' ∈ nativeOf element := occurs.mem (angle_mem_arrayOf _)
    simp [nativeOf, named.not_mem (c := '<') (by decide)] at inside

/-! ## 2. The cast sweep -/

/-- What follows the name in a cast begins and ends with brackets. -/
theorem Castable.cases (castable : Castable text) : ∃ word tail, text = word ++ tail ∧ Named word ∧
    (tail = [] ∨ ((tail.head? = some '<' ∨ tail.head? = some '[') ∧
      (tail.getLast? = some '>' ∨ tail.getLast? = some ']'))) := by
  obtain ⟨word, arguments, brackets, split, isName, angle, square⟩ := castable.form
  refine ⟨word, arguments ++ brackets, split, named_of_isName isName, ?_⟩
  rcases angle with rfl | ⟨head, last⟩
  · rcases square with rfl | ⟨head, last⟩
    · exact .inl rfl
    · exact .inr ⟨.inr head, .inr last⟩
  · rcases square with rfl | ⟨-, last'⟩
    · exact .inr ⟨.inl (by simp [head]), .inl (by simp [last])⟩
    · exact .inr ⟨.inl (by simp [head]), .inr (by simp [last'])⟩

/-- No name in front of a cast's text goes on with a closing bracket. -/
theorem Castable.not_prefix (castable : Castable text) (named : Named element) :
    ¬element ++ ['>'] <+: text := by
  rintro ⟨r, split⟩
  obtain ⟨word, tail, rfl, names, ends⟩ := castable.cases
  have split : word ++ tail = element ++ '>' :: r := by simpa using split.symm
  have head : tail = [] ∨ tail.head? = some '<' ∨ tail.head? = some '[' := ends.imp_right And.left
  rcases List.append_eq_append_iff.mp split with ⟨k, rfl, rfl⟩ | ⟨k, rfl, behind⟩
  · -- the brackets would begin inside the name
    cases k with
    | nil => simp at head
    | cons c k =>
      have inside : wordOrDot.mem c = true := named c (by simp)
      rcases head with none | head | head
      · simp at none
      all_goals
        obtain rfl : c = _ := by simpa using head
        exact absurd inside (by decide)
  · cases k with
    | nil =>
      obtain rfl : '>' :: r = tail := by simpa using behind
      simp at head
    | cons c k =>
      obtain ⟨rfl, -⟩ := List.cons.inj behind
      exact absurd (names '>' (by simp)) (by decide)

/-- The text of a cast does not end with a name behind an opening bracket. -/
theorem Castable.not_suffix (castable : Castable text) (named : Named element) (some : element ≠ []) :
    ¬('<' :: element) <:+ text := by
  rintro ⟨l, split⟩
  obtain ⟨word, tail, rfl, names, ends⟩ := castable.cases
  obtain ⟨z, last⟩ := Option.ne_none_iff_exists'.mp (mt List.getLast?_eq_none_iff.mp some)
  have member : wordOrDot.mem z = true := named z (List.mem_of_getLast? last)
  rcases ends with rfl | ⟨-, ends⟩
  · have inside : '<' ∈ word := by
      rw [← List.append_nil word, ← split]
      simp
    exact names.not_mem (by decide) inside
  · have same : (word ++ tail).getLast? = Option.some z := by
      rw [← split, List.getLast?_append, List.getLast?_cons, last]
      rfl
    rw [List.getLast?_append] at same
    rcases ends with ends | ends <;>
    · rw [ends] at same
      obtain rfl := Option.some.inj same
      exact absurd member (by decide)

/-- Only the cast of the type itself makes a reference array of a type, if there was none in what was
cast. -/
theorem eq_of_arrayOf_infix (castable : Castable text) (some : element ≠ []) (named : Named element)
    (absent : ¬arrayOf element <:+: text) (occurs : arrayOf element <:+: arrayOf text) :
    text = element := by
  rcases infix_append_cons_cases (by decide) (by decide) occurs with ⟨-, front⟩ | behind
  · rcases List.prefix_concat_iff.mp front with same | early
    · exact (List.append_cancel_right same).symm
    · exact absurd early (castable.not_prefix named)
  · rcases List.infix_concat_iff.mp behind with last | inside
    · have last : '<' :: element ++ ['>'] <:+ text ++ ['>'] :=
        (List.suffix_append arrayStart _).trans last
      exact absurd (List.suffix_append_self_iff.mp last) (castable.not_suffix named some)
    · exact absurd inside absent

/-- The array cast of a type is what the sweep looks for. -/
theorem sweep_front (text : List Char) :
    (sweepEffect {}).front ++ (text ++ (sweepEffect {}).back) = parenthesized (nativeOf text) := by
  have front : "(".toList = ['('] := by decide
  have back : "[])".toList = ['[', ']', ')'] := by decide
  change "(".toList ++ (text ++ "[])".toList) = _
  rw [front, back, parenthesized, nativeOf, List.append_assoc]
  rfl

/-- The cast to the reference array of a type is what the sweep writes. -/
theorem sweep_newFront (text : List Char) :
    (sweepEffect {}).newFront ++ (text ++ (sweepEffect {}).newBack) = parenthesized (arrayOf text) := by
  have front : (sweepEffect {}).newFront = '(' :: (arrayStart ++ ['<']) := by
    decide
  have back : (sweepEffect {}).newBack = ['>', ')'] := by decide
  rw [front, back, parenthesized, arrayOf]
  simp only [List.cons_append, List.append_assoc, List.nil_append]

/-- What the sweep writes are segments. -/
theorem sweep_writes_segments (before : Option Char) (old new rest : List Char)
    (swap : (sweepEffect {}).swap before old new rest) : ∃ text, Castable text ∧
      old = parenthesized (nativeOf text) ∧ new = parenthesized (arrayOf text) ∧
      '(' ∉ arrayOf text ∧ ')' ∉ arrayOf text := by
  obtain ⟨text, castable, rfl, rfl⟩ := swap
  have castable : Castable text := castable
  exact ⟨text, castable, sweep_front text, sweep_newFront text,
    not_mem_arrayOf (by decide) (by decide) (by decide) fun inside => (castable.plain _ inside).1 rfl,
    not_mem_arrayOf (by decide) (by decide) (by decide) fun inside => (castable.plain _ inside).2 rfl⟩

/-- Behind the cast sweep every segment is admitted, if no reference array of an enum type was there. -/
theorem casts_admitted_of_sweep {count : Nat}
    (swept : Sweep (sweepEffect {}).swap (sweepEffect {}).leaves none s t count)
    (absent : ∀ name ∈ ({} : Vocabulary).enums, ¬arrayOf name.toList <:+: s) : CastsAdmitted t := by
  have some : ∀ name ∈ ({} : Vocabulary).enums, name.toList ≠ [] := by decide
  have swaps : ∀ before old new rest, (sweepEffect {}).swap before old new rest →
      ∃ k, new = parenthesized k ∧ '(' ∉ k ∧ ')' ∉ k := fun before old new rest swap =>
    have ⟨text, _, _, written, plain⟩ := sweep_writes_segments before old new rest swap
    ⟨arrayOf text, written, plain⟩
  intro m opening closing occurs
  rcases swept.segment_cases swaps opening closing occurs with
    ⟨_, old, rest, put, inside⟩ | ⟨there, _, rest, stay⟩
  · obtain ⟨text, castable, rfl, same, -⟩ := sweep_writes_segments _ _ _ _ put
    obtain rfl : m = arrayOf text := List.append_cancel_right (List.cons.inj same).2
    have cast : text <:+: s := List.IsInfix.trans ⟨['('], ['[', ']', ')'], by simp [parenthesized, nativeOf]⟩ inside
    refine ⟨fun element isName same => ?_, fun name member within => ?_⟩
    · have angle : '<' ∈ nativeOf element := same ▸ angle_mem_arrayOf text
      simp [nativeOf, (named_of_isName isName).not_mem (c := '<') (by decide)] at angle
    · have whole := eq_of_arrayOf_infix castable (some name member) (named_enum name member)
        (fun occurs => absent name member (occurs.trans cast)) within
      rw [whole]
  · refine ⟨fun element isName same => ?_, fun name member within => ?_⟩
    · -- the sweep would have found the cast of a name
      refine absurd ?_ (stay element isName)
      rw [same]
      exact (sweep_front element).symm ▸ List.prefix_append ..
    · exact absurd (within.trans (List.IsInfix.trans ⟨['('], [')'], rfl⟩ there)) (absent name member)

/-! ## 3. Enum types and asset references -/

/-- A reference array of an enum type that becomes native leaves every segment admitted. -/
theorem enum_keeps (member : name ∈ ({} : Vocabulary).enums) (named : Named name.toList) :
    (enumEffect {} name).Keeps CastsAdmitted := by
  intro s t count swept
  refine swept.keeps (P := CastsAdmitted) (x := []) ?_
  rintro _ _ _ rest x ⟨_, rfl, rfl, rfl⟩ admitted m opening closing occurs
  have new : (enumEffect {} name).newFront ++ ([] ++ (enumEffect {} name).newBack) =
      nativeOf name.toList := by
    rw [List.nil_append, ← toList_native]
    exact List.append_nil _
  have old : (enumEffect {} name).front ++ ([] ++ (enumEffect {} name).back) = arrayOf name.toList := by
    rw [List.nil_append, ← referenceArrayOf_eq]
    exact List.append_nil _
  rw [new] at occurs
  rw [old] at admitted
  obtain ⟨opening', closing'⟩ := named.plain_nativeOf
  rcases segment_cases opening' closing' occurs with before | behind | ⟨a, b, rfl, first, last⟩
  · exact admitted m opening closing (before.trans (List.prefix_append ..).isInfix)
  · exact admitted m opening closing
      (behind.trans ((List.suffix_append ..).trans (List.suffix_append ..)).isInfix)
  · -- the segment was a reference array with something around it, and it can only have been the array
    obtain ⟨l, rfl⟩ := first
    obtain ⟨r, rfl⟩ := last
    have plain : ∀ c ∉ a ++ (nativeOf name.toList ++ b), c ∉ arrayOf name.toList →
        c ∉ a ++ (arrayOf name.toList ++ b) := by
      simp only [List.mem_append, not_or]
      exact fun c outside array => ⟨outside.1, array, outside.2.2⟩
    obtain ⟨opens, closes⟩ := named.plain_arrayOf
    have alone := (admitted _ (plain _ opening opens) (plain _ closing closes)
      ⟨l, r, by simp [parenthesized]⟩).arrays name member ⟨a, b, by simp⟩
    have nothing : a = [] ∧ b = [] := by
      have lengths := congrArg List.length alone
      simp only [List.length_append] at lengths
      exact ⟨List.eq_nil_of_length_eq_zero (by omega), List.eq_nil_of_length_eq_zero (by omega)⟩
    rw [nothing.1, nothing.2, List.nil_append, List.append_nil]
    exact admitted_nativeOf (.inl ⟨name, member, rfl⟩) named

/-- An array of asset references that becomes native leaves every segment admitted. -/
theorem asset_array_keeps (member : name ∈ ({} : Vocabulary).assetRefs) (named : Named (assetPath name)) :
    (assetArrayEffect {} name).Keeps CastsAdmitted := by
  intro s t count swept
  refine swept.keeps (P := CastsAdmitted) (x := []) ?_
  rintro _ _ _ rest x ⟨_, rfl, rfl, rfl⟩ admitted m opening closing occurs
  have new : (assetArrayEffect {} name).newFront ++ ([] ++ (assetArrayEffect {} name).newBack) =
      parenthesized (nativeOf (assetPath name)) := by
    rw [List.nil_append]
    refine (List.append_nil _).trans ?_
    simp [assetArrayEffect, literalEffect, toString, parenthesized, nativeOf, assetPath]
  rw [new] at occurs
  obtain ⟨opening', closing'⟩ := named.plain_nativeOf
  rcases segment_cases_of_segment opening closing closing' opening' occurs with before | rfl | behind
  · exact admitted m opening closing (before.trans (List.prefix_append ..).isInfix)
  · exact admitted_nativeOf (.inr ⟨name, member, rfl⟩) named
  · exact admitted m opening closing
      (behind.trans ((List.suffix_append ..).trans (List.suffix_append ..)).isInfix)

/-- A construction that goes to the factory makes no segment. -/
theorem factory_keeps (named : Named name.toList) : (factoryEffect {} name).Keeps CastsAdmitted := by
  intro s t count swept admitted m opening closing occurs
  refine admitted m opening closing (by_contra fun absent => ?_)
  have front : Safe free (parenthesized m) (factoryEffect {} name).front (factoryEffect {} name).newFront := by
    have factory : '(' ∉ ({} : Vocabulary).assetFactory.toList ∧
        ')' ∉ ({} : Vocabulary).assetFactory.toList := by decide
    have call : ∀ what : String, (what ++ "(").toList = what.toList ++ ['('] := fun _ => by simp
    change Safe free _ ("new " ++ ({} : Vocabulary).assetRefPath name ++ "(").toList
      (({} : Vocabulary).assetFactory ++ name ++ "(").toList
    rw [call, call, String.toList_append]
    have outside : ∀ c, c ∉ ({} : Vocabulary).assetFactory.toList → c ∉ name.toList →
        c ∉ (({} : Vocabulary).assetFactory ++ name).toList := fun c first second inside => by
      rw [String.toList_append] at inside
      exact (List.mem_append.mp inside).elim first second
    exact safe_of_opening opening (outside _ factory.1 (named.not_mem (by decide)))
      (outside _ factory.2 (named.not_mem (by decide))) _
  exact Effect.keeps_of_safe front (Safe.refl _ _ _) s t count swept
    (fun there => absent (occurs_free.mp there)) (occurs_free.mpr occurs)

/-! ## 4. Conversions -/

/-- The effects behind the cast sweep. -/
def last : List Effect := later.drop 29

theorem mem_last {e : Effect} (member : e ∈ last) :
    (∃ name ∈ ({} : Vocabulary).enums, e = sizedEnumEffect {} name ∨ e = enumEffect {} name) ∨
      ∃ name ∈ ({} : Vocabulary).assetRefs, e = factoryEffect {} name ∨ e = assetArrayEffect {} name := by
  have effects : last = ((enumArrayEffects "enum_array_recheck" {} ++ assetReferenceEffects {}).map (·.2)) := rfl
  rw [effects, List.mem_map] at member
  obtain ⟨named, member, rfl⟩ := member
  rcases List.mem_append.mp member with enum | asset
  · obtain ⟨_, made, inside⟩ := List.mem_flatten.mp enum
    obtain ⟨name, listed, rfl⟩ := List.mem_map.mp made
    refine .inl ⟨name, listed, ?_⟩
    rcases List.mem_cons.mp inside with rfl | inside
    · exact .inl rfl
    · obtain rfl := List.mem_singleton.mp inside
      exact .inr rfl
  · obtain ⟨_, made, inside⟩ := List.mem_flatten.mp asset
    obtain ⟨name, listed, rfl⟩ := List.mem_map.mp made
    refine .inr ⟨name, listed, ?_⟩
    rcases List.mem_cons.mp inside with rfl | inside
    · exact .inl rfl
    · obtain rfl := List.mem_singleton.mp inside
      exact .inr rfl

set_option maxRecDepth 10000 in
/-- The effects behind the cast sweep leave every segment admitted, where no sized reference array of an enum
type is. -/
theorem last_keeps : ∀ e ∈ last, e.Keeps fun s => Lacks sizedFronts s ∧ CastsAdmitted s := by
  have idle : ∀ name ∈ ({} : Vocabulary).enums,
      (sizedEnumEffect {} name).toWording.idle sizedFronts = true := by decide
  intro e member
  have both : e.Keeps CastsAdmitted → e.Keeps fun s => Lacks sizedFronts s ∧ CastsAdmitted s :=
    fun casts s t count swept here => ⟨late_keeps e
      (List.mem_of_mem_drop (show e ∈ late.drop 12 from member)) s t count swept here.1,
      casts s t count swept here.2⟩
  rcases mem_last member with ⟨name, listed, rfl | rfl⟩ | ⟨name, listed, rfl | rfl⟩
  · exact Effect.keeps_of_idle (idle name listed) _
  · exact both (enum_keeps listed (named_enum name listed))
  · exact both (factory_keeps (named_asset name listed))
  · exact both (asset_array_keeps listed (named_assetPath listed))

set_option maxRecDepth 10000 in
/-- What sized reference arrays of enum types begin with has the reference array in it. -/
theorem exists_arrayOf_of_sized :
    ∀ front ∈ sizedFronts, ∃ name ∈ ({} : Vocabulary).enums, arrayOf name.toList <:+: front := by
  decide

/-- Before the cast sweep no reference array of an enum type is left. -/
theorem enum_arrays_gone (h : Ran (later.take 28) s t) :
    ∀ name ∈ ({} : Vocabulary).enums, ¬arrayOf name.toList <:+: t := by
  have check : ∀ k ∈ [22, 24, 26],
      clearedAt [] free k ((later.take 28).map (·.toWording)) = true := by
    rw [List.map_take, later_wordings]
    decide
  have gone : ∀ {k : Nat} {name : String}, k ∈ [22, 24, 26] →
      (later.take 28)[k]? = some (enumEffect {} name) → ¬arrayOf name.toList <:+: t := by
    intro k name place here occurs
    have some : (({} : Vocabulary).referenceArrayOf name).toList ≠ [] := by
      rw [referenceArrayOf_eq, arrayOf]
      simp
    refine h.front_cleared here (seeks_literal some) (check k place) (fun e _ => keeps_nothing e)
      (lacks_nil s) (occurs_free.mpr ?_)
    rw [← referenceArrayOf_eq] at occurs
    exact occurs
  intro name member
  change name ∈ [_, _, _] at member
  simp only [List.mem_cons, List.not_mem_nil, or_false] at member
  rcases member with rfl | rfl | rfl
  · exact gone (k := 22) (by decide) rfl
  · exact gone (k := 24) (by decide) rfl
  · exact gone (k := 26) (by decide) rfl

/-- Array casts that stay native after a conversion are those of listed types. -/
theorem native_casts_listed {t : Target} (valid : t.validate = .ok ()) (source : List Char) :
    ∃ out, convert t {} source = .ok out ∧
      ∀ element, IsName element → parenthesized (nativeOf element) <:+: out → Listed element := by
  obtain ⟨out, done, ran⟩ := exists_converted valid source
  refine ⟨out, done, fun element isName occurs => ?_⟩
  obtain ⟨u, v, count, before, swept, after⟩ := ran.at (k := 28) (e := sweepEffect {}) rfl
  have absent := enum_arrays_gone before
  have admitted := casts_admitted_of_sweep swept absent
  have lacks : Lacks sizedFronts v := sweep_keeps u v count swept fun front member occurs =>
    have ⟨name, listed, inside⟩ := exists_arrayOf_of_sized front member
    absent name listed (inside.trans occurs)
  have kept := after.keeps last_keeps ⟨lacks, admitted⟩
  obtain ⟨opening, closing⟩ := (named_of_isName isName).plain_nativeOf
  exact (kept.2 _ opening closing occurs).names element isName rfl

/-- A cast to an array of a type that is not listed does not stay native. -/
theorem native_casts_listed_of_other :
    let t : Target := { payloadType := "Game.Model", className := "Loader", bytesFileName := "m.bytes" }
    let source := "(Other[]) m[0]; (Il2CppAssets.Scripts.Models.Map.AreaType[]) m[1];".toList
    t.validate = .ok () ∧ IsName "Other".toList ∧ ¬Listed "Other".toList ∧
      ∃ out, convert t {} source = .ok out ∧ ¬parenthesized (nativeOf "Other".toList) <:+: out := by
  intro t source
  have valid : t.validate = .ok () := by decide
  have isName : IsName "Other".toList :=
    ⟨'O', "ther".toList, by decide, by decide, List.all_eq_true.mp (by decide)⟩
  have unlisted : ¬Listed "Other".toList := by
    unfold Listed
    decide
  obtain ⟨out, done, listed⟩ := native_casts_listed valid source
  exact ⟨valid, isName, unlisted, out, done, fun occurs => unlisted (listed _ isName occurs)⟩

end ModelLoading.Conversion
