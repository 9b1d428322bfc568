import ModelLoading.Proofs.Conversion.Headers

/-!
# Native constructs

No native construct that the rules look for survives a conversion, as far as no later rule writes one
(`native_constructs_gone`). Each is cleared by one rule; that no rule after it brings it back is a question
about the texts of the rules, whatever text they work on.

Only the rules for sized arrays of enum types could write a native array, with the bracket that they put in
the place of a parenthesis. Where no reference array was written before, they find nothing: the array types
that rules write themselves are none of enum types, and what the cast sweep writes has no arguments.
-/

namespace ModelLoading.Conversion

open Edit Text

variable {s t : List Char}

/-! ## 1. Guards -/

/-- What sized reference arrays of enum types begin with. -/
def sizedFronts : List (List Char) :=
  (laterTexts.val.map (·.2.front)).filter fun front =>
    "Il2CppReferenceArray".toList.isPrefixOf front && front.getLast? == some '('

/-- What reference arrays of enum types begin with. -/
def openFronts : List (List Char) := sizedFronts.map fun front => front.dropLast.dropLast

/-- The rules after the class signature, up to the casts. -/
def early : List Effect := later.take 17

/-- The rules from the domain arrays on. -/
def late : List Effect := later.drop 17

theorem early_wordings : early.map (·.toWording) = (laterTexts.val.map (·.2)).take 17 := by
  rw [early, List.map_take, later_wordings]

theorem late_wordings : late.map (·.toWording) = (laterTexts.val.map (·.2)).drop 17 := by
  rw [late, List.map_drop, later_wordings]

/-- The cast sweep makes no sized reference array of an enum type: what it writes ends with a closing
parenthesis. -/
theorem sweep_keeps : (sweepEffect {}).Keeps (Lacks sizedFronts) := by
  have form : ∀ g ∈ sizedFronts, g.getLast? = some '(' ∧ ')' ∉ g := by decide
  have name : '(' ∉ "Il2CppReferenceArray<".toList := by decide
  refine fun s t count swept => swept.keeps (P := Lacks sizedFronts) (x := []) ?_
  rintro _ _ _ rest x ⟨text, castable, rfl, rfl⟩ lacks g member occurs
  obtain ⟨last, unclosed⟩ := form g member
  have written : x ++ (((sweepEffect {}).newFront ++ (text ++ (sweepEffect {}).newBack)) ++ rest) =
      ((x ++ ['(']) ++ ("Il2CppReferenceArray<".toList ++ (text ++ ['>']))) ++ ')' :: rest := by
    simp [sweepEffect, exactEffect, aroundEffect]
  rw [written] at occurs
  rcases infix_of_infix_append_cons unclosed occurs with before | behind
  · have inside : '(' ∉ "Il2CppReferenceArray<".toList ++ (text ++ ['>']) := by
      simp only [List.mem_append, not_or]
      exact ⟨name, fun within => (castable.plain _ within).1 rfl, by decide⟩
    refine lacks g member ((infix_of_infix_append last inside before).trans ?_)
    exact ⟨[], text ++ "[])".toList ++ rest, by simp [sweepEffect, exactEffect, aroundEffect]⟩
  · exact lacks g member (behind.trans ⟨x ++ ('(' :: text ++ "[])".toList), [], by
      simp [sweepEffect, exactEffect, aroundEffect]⟩)

theorem late_keeps : ∀ e ∈ late, e.Keeps (Lacks sizedFronts) := by
  have before : ((late.take 11).map (·.toWording)).all (·.spares sizedFronts) = true := by
    rw [List.map_take, late_wordings]
    decide
  have after : ((late.drop 12).map (·.toWording)).all (·.spares sizedFronts) = true := by
    rw [List.map_drop, late_wordings]
    decide
  have split : late = late.take 11 ++ sweepEffect {} :: late.drop 12 := rfl
  intro e member
  rw [split, List.mem_append, List.mem_cons] at member
  rcases member with first | rfl | last
  · exact keeps_lacks_of_spares before e first
  · exact sweep_keeps
  · exact keeps_lacks_of_spares after e last

/-- The early rules make no sized reference array of an enum type where there was no reference array. -/
theorem early_lacks (h : Ran early s t) (plain : ¬"Il2CppReferenceArray".toList <:+: s) :
    Lacks sizedFronts t := by
  have first : ((early.take 7).map (·.toWording)).all
      (·.spares ["Il2CppReferenceArray".toList]) = true := by
    rw [List.map_take, early_wordings]
    decide
  have second : ((early.drop 7).map (·.toWording)).all (·.spares openFronts) = true := by
    rw [List.map_drop, early_wordings]
    decide
  have opening : ∀ g ∈ openFronts, "Il2CppReferenceArray".toList <+: g := by decide
  rw [← List.take_append_drop 7 early] at h
  obtain ⟨u, before, after⟩ := Ran.append.mp h
  have none := before.keeps (keeps_lacks_of_spares first) fun g member =>
    List.mem_singleton.mp member ▸ plain
  have opened := after.keeps (keeps_lacks_of_spares second) fun g member occurs =>
    none _ (by simp) ((opening g member).isInfix.trans occurs)
  intro g member occurs
  have shorter : g.dropLast.dropLast <:+: g :=
    ((List.dropLast_prefix _).trans (List.dropLast_prefix _)).isInfix
  exact opened _ (List.mem_map_of_mem member) (shorter.trans occurs)

/-! ## 2. Arrays -/

section Arrays

variable {b : Bounds} {e : Effect} {k : Nat}

/-- What an early rule looks for is gone if no early rule after it brings it back, and no late one that
has anything to do. -/
theorem early_cleared (h : Ran later s t) (plain : ¬"Il2CppReferenceArray".toList <:+: s)
    (here : early[k]? = some e) (seeks : e.Seeks b)
    (first : clearedAt [] b k (early.map (·.toWording)) = true)
    (second : (late.map (·.toWording)).all (fun w => w.idle sizedFronts || w.safe b (exactly e.front)) = true) :
    ¬Occurs b e.front t := by
  rw [← List.take_append_drop 17 later] at h
  obtain ⟨u, before, after⟩ := Ran.append.mp h
  have absent := before.front_cleared here seeks first (fun e _ => keeps_nothing e) (lacks_nil s)
  exact after.not_occurs late_keeps second (spells_exactly _) (early_lacks before plain) absent

/-- What a late rule looks for is gone if no rule after it that has anything to do brings it back. -/
theorem late_cleared (h : Ran later s t) (plain : ¬"Il2CppReferenceArray".toList <:+: s)
    (here : late[k]? = some e) (seeks : e.Seeks b)
    (check : clearedAt sizedFronts b k (late.map (·.toWording)) = true) : ¬Occurs b e.front t := by
  rw [← List.take_append_drop 17 later] at h
  obtain ⟨u, before, after⟩ := Ran.append.mp h
  exact after.front_cleared here seeks check late_keeps (early_lacks before plain)

/-- The arrays that a generated loader makes and asks for, apart from those of enum types. -/
def nativeArrays : List String :=
  ["System.String[]", "System.Single[]", "System.Int32[]"] ++
    (({} : Vocabulary).references ++ ({} : Vocabulary).structs).flatMap fun name =>
      [s!"{name}[arrCount]", s!"{name}[]"]

set_option maxRecDepth 10000 in
theorem generic_arrays_gone (h : Ran later s t) (plain : ¬"Il2CppReferenceArray".toList <:+: s) :
    ¬Occurs fromWord "T[]".toList t := by
  refine early_cleared (k := 7) h plain rfl (seeks_word (by decide)) ?_ ?_
  · rw [early_wordings]
    decide
  · rw [late_wordings]
    decide

set_option maxRecDepth 10000 in
theorem native_arrays_gone (h : Ran later s t) (plain : ¬"Il2CppReferenceArray".toList <:+: s) :
    ∀ array ∈ nativeArrays, ¬array.toList <:+: t := by
  have first : ∀ k ∈ [9, 11, 13], clearedAt [] free k (early.map (·.toWording)) = true := by
    rw [early_wordings]
    decide
  have second : ∀ what ∈ ["System.String[]", "System.Single[]", "System.Int32[]"],
      (late.map (·.toWording)).all
        (fun w => w.idle sizedFronts || w.safe free (exactly what.toList)) = true := by
    rw [late_wordings]
    decide
  have third : ∀ k ∈ [0, 1, 2, 3], clearedAt sizedFronts free k (late.map (·.toWording)) = true := by
    rw [late_wordings]
    decide
  have primitive : ∀ {k : Nat} {what replacement : String}, k ∈ [9, 11, 13] →
      what ∈ ["System.String[]", "System.Single[]", "System.Int32[]"] →
      early[k]? = some (literalEffect what replacement) → what.toList ≠ [] → ¬what.toList <:+: t :=
    fun place member here some occurs => early_cleared h plain here (seeks_literal some) (first _ place)
      (second _ member) (occurs_free.mpr occurs)
  have domain : ∀ {k : Nat} {what replacement : String}, k ∈ [0, 1, 2, 3] →
      late[k]? = some (literalEffect what replacement) → what.toList ≠ [] → ¬what.toList <:+: t :=
    fun place here some occurs => late_cleared h plain here (seeks_literal some) (third _ place)
      (occurs_free.mpr occurs)
  simp only [nativeArrays, List.flatMap_cons, List.flatMap_nil, List.cons_append, List.nil_append,
    List.append_nil, List.forall_mem_cons]
  refine ⟨primitive (k := 9) (by decide) (by decide) rfl (by simp),
    primitive (k := 11) (by decide) (by decide) rfl (by simp),
    primitive (k := 13) (by decide) (by decide) rfl (by simp),
    domain (k := 0) (by decide) rfl (by simp [toString]),
    domain (k := 1) (by decide) rfl (by simp [toString]),
    domain (k := 2) (by decide) rfl (by simp [toString]),
    domain (k := 3) (by decide) rfl (by simp [toString]), by simp⟩

end Arrays

/-! ## 3. Names, setters and casts -/

/-- Every rule after the first keeps namespaces from beginning with the old root. -/
theorem assets_root_gone (h : Ran later s t) : ¬Occurs wholeWord "Assets".toList t := by
  refine h.front_cleared (k := 0) rfl (seeks_word (by decide)) ?_ (fun e _ => keeps_nothing e)
    (lacks_nil s)
  rw [later_wordings]
  decide

/-- A setter that is given what a reader reads. -/
def setterCall (name : List Char) : List Char := setterStart ++ (name ++ setterEnd)

theorem setter_clears {name : List Char} (member : name ∈ setterNames) :
    setterEffect.Clears free (setterCall name) where
  some := List.append_ne_nil_of_left_ne_nil (by decide) _
  absent := fun _ s leaves ⟨rest, split, _⟩ => leaves name member ⟨rest, split.symm⟩
  evades := by
    have each : ∀ name ∈ setterNames, ∀ text ∈ setterNames, apart false (exactly (setterCall name))
        (setterStart ++ (text ++ "().ToIl2Cpp())".toList)) = true := by decide
    rintro before old new rest ⟨text, kept, rfl, rfl⟩
    exact ⟨Apart.of_exactly (each name member text kept), by simp [free], by simp [free]⟩

theorem setters_gone (h : Ran later s t) : ∀ name ∈ setterNames, ¬setterCall name <:+: t := by
  have safe : ∀ name ∈ setterNames, ((laterTexts.val.map (·.2)).drop 28).all
      (fun w => w.idle [] || w.safe free (exactly (setterCall name))) = true := by decide
  intro name member occurs
  refine h.cleared (k := 27) rfl (setter_clears member) (fun e _ => keeps_nothing e) ?_
    (spells_exactly _) (lacks_nil s) (occurs_free.mpr occurs)
  rw [later_wordings]
  exact safe name member

/-- An object that is made without a constructor. -/
def uninitialized : List Char := "FormatterServices.GetUninitializedObject(t)".toList

/-- A cast of an object that is made without a constructor is gone, unless it was cast twice. -/
theorem uninitialized_casts_gone (h : Ran later s t)
    (once : ¬"(T)".toList ++ ("(T)".toList ++ uninitialized) <:+: s) :
    ¬"(T)".toList ++ uninitialized <:+: t := by
  have before : ((laterTexts.val.map (·.2)).take 15).all
      (·.spares ["(T)".toList ++ ("(T)".toList ++ uninitialized)]) = true := by decide
  have after : ((laterTexts.val.map (·.2)).drop 16).all
      (fun w => w.idle [] || w.safe free (exactly ("(T)".toList ++ uninitialized))) = true := by decide
  have cast : "(T)FormatterServices.GetUninitializedObject(t)".toList = "(T)".toList ++ uninitialized := by
    decide
  have call : "FormatterServices.GetUninitializedObject(t).Cast<T>()".toList =
      uninitialized ++ ".Cast<T>()".toList := by decide
  have apart : Apart false ("(T)".toList ++ uninitialized) ".Cast<T>()".toList :=
    Apart.of_exactly (by decide)
  rw [← later_wordings, ← List.map_take] at before
  rw [← later_wordings, ← List.map_drop] at after
  obtain ⟨u, v, count, ran, swept, rest⟩ := h.at (k := 15) rfl
  have none := ran.keeps (keeps_lacks_of_spares before) fun g member =>
    List.mem_singleton.mp member ▸ once
  have gone : ¬"(T)".toList ++ uninitialized <:+: v := by
    refine swept.not_chain (f := uninitialized) (z := ')') (by decide) (by decide) apart
      ?_ ?_ (k := []) .nil (none _ (by simp))
    · rintro _ old new _ ⟨_, rfl, rfl, rfl⟩
      exact ⟨(List.append_nil _).trans cast, (List.append_nil _).trans call⟩
    · exact fun _ s stay ⟨rest, split, _⟩ => stay ⟨rest, cast ▸ split.symm⟩
  refine fun occurs => rest.not_occurs (fun e _ => keeps_nothing e) after (spells_exactly _)
    (lacks_nil v) (fun occurs => gone (occurs_free.mp occurs)) (occurs_free.mpr occurs)

/-! ## 4. Conversions -/

/-- What a conversion leaves no trace of, given the text with header and signature. -/
theorem native_constructs_gone {t : Target} (valid : t.validate = .ok ()) (source : List Char) :
    ∃ out, convert t {} source = .ok out ∧
      ¬Occurs wholeWord "Assets".toList out ∧
      (∀ name ∈ setterNames, ¬setterCall name <:+: out) ∧
      (¬"Il2CppReferenceArray".toList <:+: signed t source →
        ¬Occurs fromWord "T[]".toList out ∧ ∀ array ∈ nativeArrays, ¬array.toList <:+: out) ∧
      (¬"(T)".toList ++ ("(T)".toList ++ uninitialized) <:+: signed t source →
        ¬"(T)".toList ++ uninitialized <:+: out) ∧
      (¬brokenHeader <:+: signed t source → ∀ word, IsWord word →
        (∀ name ∈ arrayNames, ¬name <:+: word) → ¬header₀ word <:+: out) := by
  obtain ⟨out, done, ran⟩ := exists_converted valid source
  exact ⟨out, done, assets_root_gone ran, setters_gone ran,
    fun plain => ⟨generic_arrays_gone ran plain, native_arrays_gone ran plain⟩,
    uninitialized_casts_gone ran, fun unbroken _ isWord_ => headers_constrained ran unbroken isWord_⟩

set_option maxRecDepth 10000 in
/-- A loader with a native construct of every kind. -/
theorem native_constructs_gone_of_loader :
    let t : Target := { payloadType := "Game.Model", className := "Loader", bytesFileName := "m.bytes" }
    let source := "private void Set<T>() \x7b T[] a; ".toList ++ ("(T)".toList ++ (uninitialized ++
      ("; f.SetValue(v,br.ReadSingle());".toList ++ "(System.Int32[]) m[0]; Assets.Tower b;".toList)))
    t.validate = .ok () ∧ ¬"Il2CppReferenceArray".toList <:+: signed t source ∧
      ¬"(T)".toList ++ ("(T)".toList ++ uninitialized) <:+: signed t source ∧
      ¬brokenHeader <:+: signed t source ∧ ∃ out, convert t {} source = .ok out ∧
      ¬Occurs wholeWord "Assets".toList out ∧
      (∀ name ∈ setterNames, ¬setterCall name <:+: out) ∧
      ¬Occurs fromWord "T[]".toList out ∧ (∀ array ∈ nativeArrays, ¬array.toList <:+: out) ∧
      ¬"(T)".toList ++ uninitialized <:+: out ∧ ∀ word, IsWord word →
        (∀ name ∈ arrayNames, ¬name <:+: word) → ¬header₀ word <:+: out := by
  intro t source
  have valid : t.validate = .ok () := by decide
  have plain : ¬"Il2CppReferenceArray".toList <:+: signed t source ∧
      ¬"(T)".toList ++ ("(T)".toList ++ uninitialized) <:+: signed t source ∧
      ¬brokenHeader <:+: signed t source := by
    rw [signed_of_no_namespace rfl]
    decide
  obtain ⟨arrays, cast, header⟩ := plain
  obtain ⟨out, done, root, setters, native, casts, headers⟩ := native_constructs_gone valid source
  exact ⟨valid, arrays, cast, header, out, done, root, setters, (native arrays).1, (native arrays).2,
    casts cast, headers header⟩

/-! ## 5. Constructs that survive -/

/-- A native construct is in the output for a valid target and a source that have no reference arrays. -/
def Survives (t : Target) (source construct : List Char) : Prop :=
  t.validate = .ok () ∧
    (∀ text ∈ [source, t.payloadType.toList, t.className.toList, t.bytesFileName.toList],
      ¬"Il2CppReferenceArray".toList <:+: text) ∧
    ∃ out, convert t {} source = .ok out ∧ construct <:+: out

/-- The first rules do nothing to a text that they miss behind the preamble. -/
theorem take_turns {k : Nat} (misses : ((laterTexts.val.map (·.2)).take k).all (missesBehind s) = true) :
    ∀ e ∈ later.take k, e.Turns (preambleText.val ++ s) (preambleText.val ++ s) := by
  refine turns_of_misses (List.all_eq_true.mpr fun w member => ?_)
  rw [List.map_take, later_wordings] at member
  exact misses_of_missesBehind (List.mem_of_mem_take member) (List.all_eq_true.mp misses w member)

/-- The same with one of the rules among them, which does nothing either. -/
theorem take_turns_but {j k : Nat} {e : Effect} (here : later[j]? = some e)
    (turns : e.Turns (preambleText.val ++ s) (preambleText.val ++ s))
    (misses : (((laterTexts.val.map (·.2)).take k).eraseIdx j).all (missesBehind s) = true) :
    ∀ e ∈ later.take k, e.Turns (preambleText.val ++ s) (preambleText.val ++ s) := by
  have others : ∀ e ∈ (later.take k).eraseIdx j, e.Turns (preambleText.val ++ s) (preambleText.val ++ s) := by
    refine turns_of_misses (List.all_eq_true.mpr fun w member => ?_)
    rw [← List.eraseIdx_map, List.map_take, later_wordings] at member
    exact misses_of_missesBehind (List.mem_of_mem_take (List.mem_of_mem_eraseIdx member))
      (List.all_eq_true.mp misses w member)
  intro e' member
  obtain ⟨i, there⟩ := List.mem_iff_getElem?.mp member
  by_cases same : i = j
  · subst same
    have found : later[i]? = some e' := by
      rw [List.getElem?_take] at there
      split at there
      · exact there
      · simp at there
    obtain rfl := Option.some.inj (here.symm.trans found)
    exact turns
  · exact others e' (List.mem_eraseIdx_iff_getElem?.mpr ⟨i, same, there⟩)

/-- What survives if one rule changes the text behind the preamble, and the others do nothing. -/
theorem survives_of_one {t : Target} {source construct u : List Char} {k : Nat} {e : Effect}
    (valid : t.validate = .ok ()) (plain : ∀ text ∈ [source, t.payloadType.toList, t.className.toList,
      t.bytesFileName.toList], ¬"Il2CppReferenceArray".toList <:+: text)
    (begins : signed t source = preambleText.val ++ s) (here : later[k]? = some e)
    (before : ∀ e ∈ later.take k, e.Turns (preambleText.val ++ s) (preambleText.val ++ s))
    (turns : e.Turns (preambleText.val ++ s) (preambleText.val ++ u))
    (after : ((laterTexts.val.map (·.2)).drop (k + 1)).all (missesBehind u) = true)
    (there : construct <:+: u) : Survives t source construct := by
  obtain ⟨out, done, ran⟩ := exists_converted valid source
  rw [begins] at ran
  have rest : ((later.map (·.toWording)).drop (k + 1)).all (·.misses (preambleText.val ++ u)) = true := by
    rw [later_wordings]
    refine List.all_eq_true.mpr fun w member => ?_
    exact misses_of_missesBehind (List.mem_of_mem_drop member) (List.all_eq_true.mp after w member)
  have written := ran.eq_of_one here before turns rest
  exact ⟨valid, plain, out, done, written ▸ there.trans (List.suffix_append ..).isInfix⟩

theorem turns_behind {e : Effect} {x z result : List Char} (some : e.front ≠ [])
    (once : ¬e.front <:+: (preambleText.val ++ x) ++ e.front.dropLast ∧ ¬e.front <:+: (e.front ++ z).tail)
    (leaves : ¬e.leaves (preambleText.val ++ x).getLast? (e.front ++ z))
    (changes : ∀ before text rest, e.finds before text rest → text ++ (e.back ++ rest) = z →
      e.newFront ++ (text ++ (e.newBack ++ rest)) = result) :
    e.Turns (preambleText.val ++ (x ++ (e.front ++ z))) (preambleText.val ++ (x ++ result)) := by
  have behind : ∀ y, preambleText.val ++ (x ++ y) = (preambleText.val ++ x) ++ y :=
    fun y => (List.append_assoc ..).symm
  rw [behind, behind]
  exact Effect.turns_of_once some once leaves changes

/-- A rule that replaces a text that stands at one place behind the preamble. -/
theorem literal_turns_behind {what replacement : String} {x z : List Char} (some : what.toList ≠ [])
    (once : ¬what.toList <:+: (preambleText.val ++ x) ++ what.toList.dropLast ∧
      ¬what.toList <:+: (what.toList ++ z).tail) :
    (literalEffect what replacement).Turns (preambleText.val ++ (x ++ (what.toList ++ z)))
      (preambleText.val ++ (x ++ (replacement.toList ++ z))) := by
  refine turns_behind some once (fun stay => stay (List.prefix_append ..)) ?_
  rintro _ _ rest rfl behind
  exact congrArg (replacement.toList ++ ·) behind

/-- A target without a namespace. -/
def smallTarget : Target := { payloadType := "Game.Model", className := "Loader", bytesFileName := "m.bytes" }

set_option maxRecDepth 10000 in
/-- An object that is made without a constructor and cast twice keeps one of the casts. -/
theorem double_cast_survives : Survives smallTarget ("(T)".toList ++ ("(T)".toList ++ uninitialized))
    ("(T)".toList ++ uninitialized) := by
  refine survives_of_one (k := 15) (by decide) (by decide) ?_ rfl (take_turns ?_)
    (literal_turns_behind (x := "(T)".toList) (z := []) (by decide) (by decide))
    (by decide) (by decide)
  · rw [signed_of_no_namespace rfl]
    decide
  · decide

set_option maxRecDepth 10000 in
/-- A header with an array in the place of its name is left. -/
theorem string_header_survives : Survives smallTarget "private void System.String[]<T>() \x7b".toList
    (header₀ "Il2CppStringArray".toList) := by
  refine survives_of_one (k := 9) (by decide) (by decide) ?_ rfl
    (take_turns_but (j := 3) rfl ?_ ?_)
    (literal_turns_behind (x := "private void ".toList) (z := "<T>() \x7b".toList) (by decide)
      (by decide))
    (by decide) (by decide)
  · rw [signed_of_no_namespace rfl]
    decide
  · have none : clear false headerForm none (preambleText.val ++ ("private void ".toList ++
        ("System.String[]".toList ++ "<T>() \x7b".toList))) = true := by decide
    exact Effect.turns_of_clear none (fun _ _ _ isWord_ => spells_header isWord_) (by decide)
  · decide

set_option maxRecDepth 10000 in
/-- A generic array that becomes the name of a header makes one. -/
theorem generic_header_survives : Survives smallTarget "private void T[]() \x7b".toList
    (header₀ "Il2CppReferenceArray".toList) := by
  let e : Effect := wordEffect fromWord "T[]" (({} : Vocabulary).referenceArrayOf "T")
  have turns : e.Turns (preambleText.val ++ ("private void ".toList ++ (e.front ++ "() \x7b".toList)))
      (preambleText.val ++ ("private void ".toList ++ "Il2CppReferenceArray<T>() \x7b".toList)) := by
    refine turns_behind (by decide) (by decide) (not_not_intro ?_) ?_
    · exact ⟨"() \x7b".toList, rfl, fun _ => by decide, by simp [fromWord]⟩
    · intro _ text rest found split
      obtain ⟨rfl, -⟩ := found
      obtain rfl : rest = "() \x7b".toList := split
      decide
  refine survives_of_one (k := 7) (by decide) (by decide) ?_ rfl (take_turns (by decide))
    turns (by decide) (by decide)
  rw [signed_of_no_namespace rfl]
  decide

set_option maxRecDepth 10000 in
/-- A type that is asked for by name can close a header with its parameters. -/
theorem broken_header_survives : Survives smallTarget "typeof(A private void Foo<T) \x7b".toList
    (header₀ "Foo".toList) := by
  have turns : typeofEffect.Turns
      (preambleText.val ++ ([] ++ (typeofEffect.front ++ "A private void Foo<T) \x7b".toList)))
      (preambleText.val ++ ([] ++ "Il2CppType.Of<A private void Foo<T>() \x7b".toList)) := by
    refine turns_behind (by decide) (by decide) ?_ ?_
    · exact fun leaves => leaves "A private void Foo<T".toList
        ⟨'A', " private void Foo<T".toList, by decide, by decide, List.all_eq_true.mp (by decide)⟩
        ⟨" \x7b".toList, by decide⟩
    · intro _ text rest found split
      have unclosed : ')' ∉ text := fun inside => ((Capitalized.unparenthesized found) _ inside).2 rfl
      have parts : text ++ ')' :: rest = "A private void Foo<T".toList ++ ')' :: " \x7b".toList := split
      obtain ⟨rfl, rfl⟩ := eq_of_append_cons unclosed (by decide) parts
      decide
  refine survives_of_one (k := 16) (by decide) (by decide) ?_ rfl (take_turns (by decide))
    turns (by decide) (by decide)
  rw [signed_of_no_namespace rfl]
  decide

/-- A target whose class name goes on with what is left of a reference array. -/
def splitTarget : Target :=
  { payloadType := "M", className := "ay<Il2CppAssets.Scripts.Models.Map.AreaType>(System.String[)",
    bytesFileName := "m.bytes" }

set_option maxRecDepth 10000 in
/-- A reference array that the class name completes is made native, with an array in it. -/
theorem split_array_survives : Survives splitTarget "Il2CppReferenceArrMLoader : IGameModelLoader".toList
    "System.String[]".toList := by
  let e : Effect := sizedEnumEffect {} "Il2CppAssets.Scripts.Models.Map.AreaType"
  have turns : e.Turns (preambleText.val ++ ([] ++ (e.front ++ "System.String[) : ModByteLoader<M>".toList)))
      (preambleText.val ++ ([] ++
        "Il2CppAssets.Scripts.Models.Map.AreaType[System.String[] : ModByteLoader<M>".toList)) := by
    refine turns_behind (by decide) (by decide) ?_ ?_
    · exact fun leaves => leaves "System.String[".toList (by decide)
        ⟨" : ModByteLoader<M>".toList, by decide⟩
    · intro _ text rest _ split
      have parts : text ++ ')' :: rest = "System.String[".toList ++ ')' :: " : ModByteLoader<M>".toList := split
      have unclosed : ')' ∉ text := by
        intro inside
        have count := congrArg (List.count ')') parts
        have one : List.count ')' ("System.String[".toList ++ ')' :: " : ModByteLoader<M>".toList) = 1 := by
          decide
        rw [one, List.count_append, List.count_cons_self] at count
        have some := List.count_pos_iff.mpr inside
        omega
      obtain ⟨rfl, rfl⟩ := eq_of_append_cons unclosed (by decide) parts
      decide
  refine survives_of_one (k := 23) (by decide) (by decide) ?_ rfl
    (take_turns_but (j := 0) rfl (word_turns ?_) (by decide)) turns (by decide) (by decide)
  · rw [signed_of_no_namespace rfl]
    decide
  · exact not_occurs_of_clear (by decide) (spells_exactly _) (by decide)

/-- What the conditions are for: a cast that was cast again, headers that later rules finish, and a reference
array that the class name completes. -/
theorem native_constructs_survive :
    Survives smallTarget ("(T)".toList ++ ("(T)".toList ++ uninitialized)) ("(T)".toList ++ uninitialized) ∧
      Survives smallTarget "private void System.String[]<T>() \x7b".toList
        (header₀ "Il2CppStringArray".toList) ∧
      Survives smallTarget "private void T[]() \x7b".toList (header₀ "Il2CppReferenceArray".toList) ∧
      Survives smallTarget "typeof(A private void Foo<T) \x7b".toList (header₀ "Foo".toList) ∧
      Survives splitTarget "Il2CppReferenceArrMLoader : IGameModelLoader".toList "System.String[]".toList :=
  ⟨double_cast_survives, string_header_survives, generic_header_survives, broken_header_survives,
    split_array_survives⟩

end ModelLoading.Conversion
