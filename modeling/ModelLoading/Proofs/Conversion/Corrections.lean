import ModelLoading.Proofs.Conversion.Wrapping
import ModelLoading.Proofs.Text.Reverting

/-!
# Rules that are taken back

Some rules are broader than what they are for, and later ones take back what was too much. The imports of
input and output stay as they are (`system_imports_converted`), and arrays of enum types become native again:
each sized one as a whole (`sized_enum_array_reverted`), and all of them where every array of a listed type was
wrapped before (`enum_arrays_unwrapped`).
-/

namespace ModelLoading.Conversion

open Edit Text

/-! ## 1. Imports of the system -/

/-- The rule for the imports of the system also catches those of input and output, and the rule behind it
puts these back: together they convert each import that is not of input and output, and leave everything
else. -/
theorem system_imports_converted {s : List Char} (absent : ¬"using Il2CppSystem.IO".toList <:+: s) :
    ∃ assets usings io, namespaceRules = .ok [assets, usings, io] ∧
      usings.name = "system_usings" ∧ io.name = "system_io" ∧
      Pipeline.run ⟨[usings, io]⟩ s =
        replaceUnless "using System".toList ".IO".toList "using Il2CppSystem".toList s ∧
      ∀ x y, Pipeline.run ⟨[usings, io]⟩ s = x ++ ("using System".toList ++ y) → ".IO".toList <+: y := by
  obtain ⟨regex, read⟩ := parse_assetsRoot
  refine ⟨_, _, _, by rw [namespaceRules, Rule.pattern, read]; rfl, rfl, rfl, ?_⟩
  -- the texts begin with a letter that they have nowhere else
  have same : replaceAll "using Il2CppSystem.IO".toList "using System.IO".toList
      (replaceAll "using System".toList "using Il2CppSystem".toList s) =
        replaceUnless "using System".toList ".IO".toList "using Il2CppSystem".toList s :=
    replaceAll_replaceAll (z := 'u') (a := "sing System".toList) (b := "sing Il2CppSystem".toList)
      (by decide) (by decide) (by decide) absent
  refine ⟨same, fun x y split => ?_⟩
  exact follow_of_replaceUnless (z := 'u') (a := "sing System".toList) (b := "sing Il2CppSystem".toList)
    (by decide) (by decide) (by decide) (by unfold Agree; decide) (same.symm.trans split)

/-- Imports side by side, one of them of input and output, and one inside a longer word. -/
theorem system_imports_converted_of_source :
    let s := "using System.IO;using System;\nreusing System.IOusing System.Text;".toList
    ¬"using Il2CppSystem.IO".toList <:+: s ∧
    ∃ assets usings io, namespaceRules = .ok [assets, usings, io] ∧
      usings.name = "system_usings" ∧ io.name = "system_io" ∧
      Pipeline.run ⟨[usings, io]⟩ s =
        replaceUnless "using System".toList ".IO".toList "using Il2CppSystem".toList s ∧
      ∀ x y, Pipeline.run ⟨[usings, io]⟩ s = x ++ ("using System".toList ++ y) → ".IO".toList <+: y := by
  intro s
  have absent : ¬"using Il2CppSystem.IO".toList <:+: s := by decide +kernel
  exact ⟨absent, system_imports_converted absent⟩

/-! ## 2. Sized arrays of enum types -/

/-- The rules of a pipeline for the arrays of listed types and of enum types. -/
theorem Groups.Of.arrays {t : Target} {v : Vocabulary} {g : Groups} (h : g.Of v) :
    (⟨(g.all t v).flatten⟩ : Pipeline).ofStage .domainArrays = domainArrayRules v ∧
      (⟨(g.all t v).flatten⟩ : Pipeline).ofStage .enumArrays = g.enumArrays :=
  ⟨h.ofStage (by simp [Stage.all, Groups.all]), h.ofStage (by simp [Stage.all, Groups.all])⟩

section Sized

variable {t : Target} {v : Vocabulary} {name : String} {change : Change} {a s : List Char}

theorem apply_of_absent (h : change.Has (sizedCallEffect v name))
    (absent : ¬(v.referenceArrayOf name ++ "(").toList <:+: s) : change.apply s = (s, 0) := by
  have nowhere := (h s).eq_of_nowhere fun l old new rest split found => by
    obtain ⟨text, -, rfl, -⟩ := found
    exact absent ⟨l, text ++ (")".toList ++ rest), by simp [split, sizedCallEffect, exactEffect, aroundEffect]⟩
  exact Prod.ext nowhere.1 nowhere.2

/-- A call is reverted as a whole, whatever its arguments are. -/
theorem apply_of_call (h : change.Has (sizedCallEffect v name)) (shallow : Shallow a) :
    change.apply ((v.referenceArrayOf name ++ "(").toList ++ (a ++ ")".toList)) =
      ((name ++ "[").toList ++ (a ++ "]".toList), 1) := by
  have swept := h ((v.referenceArrayOf name ++ "(").toList ++ (a ++ ")".toList))
  generalize whole : (v.referenceArrayOf name ++ "(").toList ++ (a ++ ")".toList) = s at swept
  generalize change.apply s = result at swept
  obtain ⟨t, n⟩ := result
  cases swept with
  | done => simp at whole
  | keep here => exact absurd ⟨[], by simpa using whole⟩ (here a shallow)
  | @swap _ old new s t n here _ rest =>
    obtain ⟨text, kept, rfl, rfl⟩ := here
    have ends : a ++ ')' :: [] = text ++ ')' :: s := by
      refine List.append_cancel_left (whole.trans ?_)
      simp [sizedCallEffect, exactEffect, aroundEffect]
    obtain ⟨rfl, rfl⟩ := shallow.eq_of_append kept ends
    obtain ⟨rfl, rfl⟩ := rest.eq_nil
    simp [sizedCallEffect, exactEffect, aroundEffect]

/-- Names with different beginnings differ, and those with one beginning only if their ends do. -/
theorem eq_of_sized_name {e : Effect} {effect : String → Effect}
    (member : (s!"enum_array_new:{name}", e) ∈ (v.enums.map fun name =>
      [(s!"enum_array_new:{name}", effect name), (s!"enum_array:{name}", enumEffect v name)]).flatten) :
    e = effect name := by
  obtain ⟨_, made, inside⟩ := List.mem_flatten.mp member
  obtain ⟨other, -, rfl⟩ := List.mem_map.mp made
  rcases List.mem_cons.mp inside with same | inside
  · obtain ⟨names, rfl⟩ := Prod.mk.inj same
    obtain rfl : name = other := by simpa [toString] using names
    rfl
  · obtain ⟨names, -⟩ := Prod.mk.inj (List.mem_singleton.mp inside)
    have names := congrArg String.toList names
    simp [toString] at names

/-- The rule for sized arrays of an enum type leaves a text without such an array, and reverts an array as a
whole, whatever the names are and whatever calls without calls in them its size is made of. The rules can be
built, unless a name is so long that a pattern for it is too large. -/
theorem sized_enum_array_reverted (valid : t.validate = .ok ()) (listed : name ∈ v.enums) :
    (∃ p, pipeline t v = .ok p ∧
      (∃ r ∈ p.ofStage .enumArrays, r.name = s!"enum_array_new:{name}") ∧
      ∀ r ∈ p.ofStage .enumArrays, r.name = s!"enum_array_new:{name}" →
        (∀ s, ¬(v.referenceArrayOf name ++ "(").toList <:+: s → r.change.apply s = (s, 0)) ∧
        ∀ a, Shallow a → r.change.apply ((v.referenceArrayOf name ++ "(").toList ++ (a ++ ")".toList)) =
          ((name ++ "[").toList ++ (a ++ "]".toList), 1)) ∨
    (v.HasLongName ∧ ∃ rule, pipeline t v = .error (.rule (.pattern rule .tooLarge))) := by
  refine (pipeline_built (v := v) valid).imp_left fun ⟨g, of, built⟩ => ?_
  have has := enumArrays_have_of has_sizedCall of.enumArrays
  refine ⟨_, built, ?_, ?_⟩ <;> rw [of.arrays.2]
  · obtain ⟨r, member, named, -⟩ := has.exists_rule (List.mem_flatten.mpr
      ⟨_, List.mem_map_of_mem listed, List.mem_cons_self⟩)
    exact ⟨r, member, named⟩
  · intro r member named
    obtain ⟨e, inside, has⟩ := has.exists_effect member
    rw [named] at inside
    rw [eq_of_sized_name inside] at has
    exact ⟨fun s => apply_of_absent has, fun a => apply_of_call has⟩

/-- Names that mean something in patterns and templates, and a name that is not ASCII. -/
theorem sized_enum_array_reverted_of_metacharacters :
    let t : Target := { payloadType := "Game.Model", className := "Loader", bytesFileName := "m.bytes" }
    let v : Vocabulary := { referenceArray := "R(.*)$0", enums := ["", "$1\\(é|E", "$\x7b1\x7d[^)]+"] }
    let name := "$1\\(é|E"
    t.validate = .ok () ∧ name ∈ v.enums ∧ ∃ p, pipeline t v = .ok p ∧
      (∃ r ∈ p.ofStage .enumArrays, r.name = s!"enum_array_new:{name}") ∧
      ∀ r ∈ p.ofStage .enumArrays, r.name = s!"enum_array_new:{name}" →
        (∀ s, ¬(v.referenceArrayOf name ++ "(").toList <:+: s → r.change.apply s = (s, 0)) ∧
        ∀ a, Shallow a → r.change.apply ((v.referenceArrayOf name ++ "(").toList ++ (a ++ ")".toList)) =
          ((name ++ "[").toList ++ (a ++ "]".toList), 1) := by
  intro t v name
  have valid : t.validate = .ok () := by decide
  have listed : name ∈ v.enums := by decide
  have short : ¬v.HasLongName := by decide +kernel
  exact ⟨valid, listed, (sized_enum_array_reverted valid listed).resolve_right fun h => short h.1⟩

end Sized

/-! ## 3. Arrays of enum types -/

section Enums

variable {t : Target} {v : Vocabulary}

/-- Where every listed type is an enum type, the rules for arrays and then those for enum types leave a text
as it was, even if some names end in others, unless the text has an interop array of such a type or a native
one that a parenthesis follows. The rules can be built, unless a name is so long that a pattern for it is too
large. -/
theorem enum_arrays_unwrapped (valid : t.validate = .ok ()) (same : v.enums = v.references)
    (none : v.structs = []) (array_plain : Unbracketed v.referenceArray)
    (plain : ∀ name ∈ v.references, Unbracketed name) :
    (∃ p, pipeline t v = .ok p ∧ ∀ s, (∀ name ∈ v.references,
        ¬(v.referenceArrayOf name).toList <:+: s ∧ ¬(name ++ "[](").toList <:+: s) →
      Pipeline.run ⟨p.ofStage .domainArrays ++ p.ofStage .enumArrays⟩ s = s) ∨
    (v.HasLongName ∧ ∃ rule, pipeline t v = .error (.rule (.pattern rule .tooLarge))) := by
  refine (pipeline_built (v := v) valid).imp_left fun ⟨g, of, built⟩ => ⟨_, built, fun s absent => ?_⟩
  rw [of.arrays.1, of.arrays.2, Pipeline.run_append]
  obtain ⟨portions, wraps, rfl, listed⟩ := exists_portions_of_ran none array_plain plain (domainArrays_have.ran s)
  rw [wraps]
  have ran := (enumArrays_have_of has_sizedCall of.enumArrays).ran (render v.referenceArray.toList [] portions)
  rw [List.map_flatten, List.map_map, ← List.flatMap_def] at ran
  have names : ∀ {element sized}, .array element sized ∈ portions → ∃ name ∈ v.references, name.toList = element :=
    fun inside => List.mem_map.mp (listed _ inside)
  obtain ⟨reverted, unwraps, -, all⟩ := exists_reverted array_plain (fun other sized inside => by
      obtain ⟨name, member, rfl⟩ := names inside
      exact plain name member)
    (fun name member => plain name (same ▸ member)) (fun name member => by
      obtain ⟨array, opened⟩ := absent name (same ▸ member)
      exact ⟨toList_wrapped ▸ array, by simpa [nativeArray, sizeText] using opened⟩) ran
  rw [unwraps]
  refine render_eq_original fun element sized inside => ?_
  obtain ⟨name, member, rfl⟩ := names inside
  exact all name (same ▸ member) sized

/-- Names that end in others, and arrays of them side by side. -/
theorem enum_arrays_unwrapped_of_suffixes :
    let t : Target := { payloadType := "Game.Model", className := "Loader", bytesFileName := "m.bytes" }
    let names := ["Map.AreaType", "AreaType", "Type", "AreaType"]
    let v : Vocabulary := { references := names, enums := names, structs := [] }
    t.validate = .ok () ∧ v.enums = v.references ∧ v.structs = [] ∧ Unbracketed v.referenceArray ∧
      (∀ name ∈ v.references, Unbracketed name) ∧ ∃ p, pipeline t v = .ok p ∧ ∀ s, (∀ name ∈ v.references,
        ¬(v.referenceArrayOf name).toList <:+: s ∧ ¬(name ++ "[](").toList <:+: s) →
      Pipeline.run ⟨p.ofStage .domainArrays ++ p.ofStage .enumArrays⟩ s = s := by
  intro t names v
  have valid : t.validate = .ok () := by decide
  have array_plain : Unbracketed v.referenceArray := by decide
  have plain : ∀ name ∈ v.references, Unbracketed name := by decide
  have short : ¬v.HasLongName := by decide +kernel
  exact ⟨valid, rfl, rfl, array_plain, plain,
    (enum_arrays_unwrapped valid rfl rfl array_plain plain).resolve_right fun h => short h.1⟩

end Enums

end ModelLoading.Conversion
