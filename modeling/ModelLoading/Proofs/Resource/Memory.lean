import Mathlib.Data.List.Induction
import Mathlib.Data.List.Nodup
import ModelLoading.Resource.Memory

/-!
# Resources in memory and lookups in them

Resources are inserted one after another, under repeated names too (`Memory.ofList`). An insertion puts a new
name at the end, and otherwise only changes a content (`names_put`, `get?_insert`). So the names are listed in
the order of their first insertion, each once, and each has the content of its last one.

That no name is listed twice is all that a lookup needs to be exact; the lemmas on lookups hold for every
source with that property.
-/

namespace ModelLoading.Resource

open Loading (Error)

variable {name other file owner : String} {data : Bytes} {m : Matching}

/-! ## 1. Lookups among distinct names -/

theorem selects_suffix_iff : Matching.suffix.selects name file = true ↔ file.toList <:+ name.toList :=
  List.isSuffixOf_iff_suffix

theorem selects_exact_iff : Matching.exact.selects name file = true ↔ name = file := beq_iff_eq

namespace Source

variable {s : Source}

theorem mem_candidates_iff :
    name ∈ s.candidates file m ↔ name ∈ s.names ∧ m.selects name file = true := List.mem_filter

/-- A lookup returns a name if it is the only one that is selected. -/
theorem find_eq_ok_iff (distinct : s.names.Nodup) : s.find file m = .ok name ↔
    name ∈ s.names ∧ m.selects name file ∧ ∀ other ∈ s.names, m.selects other file → other = name := by
  have several : (s.candidates file m).Nodup := distinct.filter _
  have selected : (name ∈ s.names ∧ m.selects name file ∧
      ∀ other ∈ s.names, m.selects other file → other = name) ↔
      name ∈ s.candidates file m ∧ ∀ other ∈ s.candidates file m, other = name := by
    simp only [mem_candidates_iff, and_assoc, and_imp]
  rw [selected]
  unfold find
  cases candidates : s.candidates file m with
  | nil => simp
  | cons first rest =>
    cases rest with
    | nil => simp [eq_comm]
    | cons second rest =>
      refine iff_of_false (by simp) fun ⟨_, only⟩ => ?_
      have same : first = second := (only first (by simp)).trans (only second (by simp)).symm
      simp [candidates, same] at several

theorem find_eq_notFound_iff : s.find file m = .error (.notFound s.owner file) ↔
    ∀ name ∈ s.names, ¬m.selects name file := by
  have selected : (∀ name ∈ s.names, ¬m.selects name file) ↔ s.candidates file m = [] := by
    simp only [candidates, List.filter_eq_nil_iff]
  rw [selected]
  unfold find
  split <;> simp_all

theorem find_eq_ambiguous_iff {names : List String} :
    s.find file m = .error (.ambiguous s.owner file names) ↔
      names = s.candidates file m ∧ 2 ≤ names.length := by
  unfold find
  split
  · rename_i none
    refine iff_of_false (by simp) ?_
    rintro ⟨rfl, two⟩
    simp [none] at two
  · rename_i one
    refine iff_of_false (by simp) ?_
    rintro ⟨rfl, two⟩
    simp [one] at two
  · rename_i notNone notOne
    constructor
    · intro same
      obtain ⟨-, -, rfl⟩ := Error.ambiguous.inj (Except.error.inj same)
      refine ⟨rfl, ?_⟩
      match candidates : s.candidates file m with
      | [] => exact absurd candidates notNone
      | [name] => exact absurd candidates (notOne name)
      | _ :: _ :: _ => simp
    · rintro ⟨rfl, -⟩
      rfl

/-- Among distinct names at most one is the name of the file. -/
theorem find_exact (distinct : s.names.Nodup) : s.find file .exact =
    if file ∈ s.names then .ok file else .error (.notFound s.owner file) := by
  split
  · rename_i inside
    exact (find_eq_ok_iff distinct).mpr
      ⟨inside, selects_exact_iff.mpr rfl, fun _ _ same => selects_exact_iff.mp same⟩
  · rename_i outside
    exact find_eq_notFound_iff.mpr fun name inside same => outside (selects_exact_iff.mp same ▸ inside)

end Source

/-! ## 2. Insertions -/

namespace Memory

variable {l : List (String × Bytes)}

/-- The names of entries. -/
def namesOf (l : List (String × Bytes)) : List String := l.map (·.1)

@[simp] theorem namesOf_cons : namesOf ((name, data) :: l) = name :: namesOf l := rfl

theorem namesOf_concat : namesOf (l ++ [(name, data)]) = namesOf l ++ [name] := List.map_append

/-- A new name goes to the end, and a name that is there stays where it is. -/
theorem names_put : namesOf (put name data l) =
    if name ∈ namesOf l then namesOf l else namesOf l ++ [name] := by
  induction l with
  | nil => rfl
  | cons entry l ih =>
    obtain ⟨first, old⟩ := entry
    rw [put]
    by_cases same : first = name
    · simp [same]
    · rw [if_neg same, namesOf_cons, namesOf_cons, ih]
      by_cases inside : name ∈ namesOf l
      · simp [inside]
      · simp [inside, Ne.symm same]

/-- An insertion gives a name its content and leaves those of the other names. -/
theorem get?_insert (m : Memory) :
    (m.insert name data).get? other = if other = name then some data else m.get? other := by
  obtain ⟨owner, l⟩ := m
  unfold get? insert
  induction l with
  | nil =>
    by_cases same : name = other
    · simp [put, same]
    · simp [put, same, Ne.symm same]
  | cons entry l ih =>
    obtain ⟨first, old⟩ := entry
    simp only [put] at ih ⊢
    by_cases here : first = name
    · subst here
      by_cases same : first = other
      · simp [same]
      · simp [same, Ne.symm same]
    · by_cases same : first = other
      · subst same
        simp [here]
      · simpa [here, same] using ih

theorem ofList_concat (owner : String) (l : List (String × Bytes)) (name : String) (data : Bytes) :
    ofList owner (l ++ [(name, data)]) = (ofList owner l).insert name data := by
  simp [ofList]

theorem owner_ofList (owner : String) (l : List (String × Bytes)) : (ofList owner l).owner = owner := by
  induction l using List.reverseRecOn with
  | nil => rfl
  | append_singleton l entry ih =>
    rw [ofList_concat]
    exact ih

/-- The names of inserted resources are those of the insertions, in the order of their first ones. -/
theorem names_ofList (owner : String) (l : List (String × Bytes)) :
    (∀ name, name ∈ (ofList owner l).source.names ↔ name ∈ namesOf l) ∧
      (ofList owner l).source.names.Pairwise fun a b => (namesOf l).idxOf a < (namesOf l).idxOf b := by
  induction l using List.reverseRecOn with
  | nil => simp [ofList, source, namesOf]
  | append_singleton l entry ih =>
    obtain ⟨name, data⟩ := entry
    obtain ⟨same, ordered⟩ := ih
    have inserted : (ofList owner (l ++ [(name, data)])).source.names =
        if name ∈ namesOf (ofList owner l).entries then namesOf (ofList owner l).entries
        else namesOf (ofList owner l).entries ++ [name] := by
      rw [ofList_concat]
      exact names_put
    have before : namesOf (ofList owner l).entries = (ofList owner l).source.names := rfl
    rw [inserted, namesOf_concat, before]
    -- a name that was inserted before has its first insertion where it had it
    have first : ∀ a ∈ (ofList owner l).source.names,
        (namesOf l ++ [name]).idxOf a = (namesOf l).idxOf a :=
      fun a inside => List.idxOf_append_of_mem ((same a).mp inside)
    have earlier : (ofList owner l).source.names.Pairwise fun a b =>
        (namesOf l ++ [name]).idxOf a < (namesOf l ++ [name]).idxOf b :=
      ordered.imp_of_mem fun {a b} left right less => by rwa [first a left, first b right]
    split
    · rename_i inside
      refine ⟨fun a => ?_, earlier⟩
      have known := (same name).mp inside
      rw [same a, List.mem_append, List.mem_singleton]
      exact ⟨.inl, fun either => either.elim id fun new => new ▸ known⟩
    · rename_i outside
      refine ⟨fun a => by simp [same a], ?_⟩
      rw [List.pairwise_append]
      refine ⟨earlier, List.pairwise_singleton _ _, fun a inside b last => ?_⟩
      obtain rfl := List.mem_singleton.mp last
      have new : b ∉ namesOf l := fun known => outside ((same b).mpr known)
      rw [first a inside, List.idxOf_append_of_notMem new]
      exact Nat.lt_of_lt_of_le (List.idxOf_lt_length_of_mem ((same a).mp inside)) (Nat.le_add_right ..)

theorem nodup_names (owner : String) (l : List (String × Bytes)) :
    (ofList owner l).source.names.Nodup :=
  (names_ofList owner l).2.imp fun {a b} less same => by
    rw [same] at less
    exact Nat.lt_irrefl _ less

/-- The content of a name is that of its last insertion. -/
theorem get?_of_last {front back : List (String × Bytes)} (last : name ∉ namesOf back) :
    (ofList owner (front ++ (name, data) :: back)).get? name = some data := by
  induction back using List.reverseRecOn with
  | nil => rw [ofList_concat, get?_insert, if_pos rfl]
  | append_singleton back entry ih =>
    obtain ⟨other, new⟩ := entry
    rw [namesOf_concat, List.mem_append, List.mem_singleton, not_or] at last
    rw [← List.cons_append, ← List.append_assoc, ofList_concat, get?_insert, if_neg last.2]
    exact ih last.1

/-- A name that was never inserted has no content. -/
theorem get?_of_not_mem (absent : name ∉ namesOf l) : (ofList owner l).get? name = none := by
  induction l using List.reverseRecOn with
  | nil => rfl
  | append_singleton l entry ih =>
    obtain ⟨other, new⟩ := entry
    rw [namesOf_concat, List.mem_append, List.mem_singleton, not_or] at absent
    rw [ofList_concat, get?_insert, if_neg absent.2]
    exact ih absent.1

/-- Insertions of a name have a last one. -/
theorem exists_last (inserted : name ∈ namesOf l) :
    ∃ front data back, l = front ++ (name, data) :: back ∧ name ∉ namesOf back := by
  induction l using List.reverseRecOn with
  | nil => simp [namesOf] at inserted
  | append_singleton l entry ih =>
    obtain ⟨other, data⟩ := entry
    by_cases same : name = other
    · exact ⟨l, data, [], by simp [same], by simp [namesOf]⟩
    · have earlier : name ∈ namesOf l := by simpa [namesOf_concat, same] using inserted
      obtain ⟨front, old, back, rfl, last⟩ := ih earlier
      refine ⟨front, old, back ++ [(other, data)], by simp, ?_⟩
      simpa [namesOf_concat, same] using last

/-! ## 3. Sources -/

theorem openStream_of_last {front back : List (String × Bytes)} (last : name ∉ namesOf back) :
    (ofList owner (front ++ (name, data) :: back)).source.openStream name = .ok (.ok data) := by
  simp only [source, get?_of_last last]

/-- **Resources in memory are an ordered map, and lookups in it are exact.** Whatever was inserted, with
repeated names too: the names are listed once each, in the order of their first insertions; reading a name
returns the content of its last insertion, which must not be empty; an exact lookup finds a name if it was
inserted and is never ambiguous; a lookup by suffix finds the only inserted name that ends with that of the
file, and tells all of them in order if there are several; and what a lookup finds can be opened. -/
theorem memory_is_an_ordered_map (owner : String) (inserts : List (String × Bytes)) :
    let s := (ofList owner inserts).source
    let inserted := namesOf inserts
    let selected := fun file => s.names.filter fun name => file.toList.isSuffixOf name.toList
    (s.names.Nodup ∧ (∀ name, name ∈ s.names ↔ name ∈ inserted) ∧
      s.names.Pairwise fun a b => inserted.idxOf a < inserted.idxOf b) ∧
    (∀ front name data back, inserts = front ++ (name, data) :: back → name ∉ namesOf back →
      s.read name = if data = [] then .error (.empty name) else .ok data) ∧
    (∀ name ∉ inserted, s.read name = .error (.io (.other s!"No resource named {name}"))) ∧
    (∀ file, s.find file .exact = if file ∈ inserted then .ok file else .error (.notFound owner file)) ∧
    (∀ file name, s.find file .suffix = .ok name ↔ name ∈ inserted ∧ file.toList <:+ name.toList ∧
      ∀ other ∈ inserted, file.toList <:+ other.toList → other = name) ∧
    (∀ file names, s.find file .suffix = .error (.ambiguous owner file names) ↔
      names = selected file ∧ 2 ≤ names.length) ∧
    (∀ file, s.find file .suffix = .error (.notFound owner file) ↔
      ∀ name ∈ inserted, ¬file.toList <:+ name.toList) ∧
    ∀ file m name, s.find file m = .ok name → ∃ data, s.openStream name = .ok (.ok data) := by
  intro s inserted selected
  obtain ⟨same, ordered⟩ := names_ofList owner inserts
  have distinct : s.names.Nodup := nodup_names owner inserts
  have owned : s.owner = owner := owner_ofList owner inserts
  refine ⟨⟨distinct, same, ordered⟩, ?_, fun name absent => ?_, fun file => ?_, fun file name => ?_,
    fun file names => ?_, fun file => ?_, fun file m name found => ?_⟩
  · rintro front name data back rfl last
    rw [Source.read, openStream_of_last last]
    cases data <;> rfl
  · have closed : s.openStream name = .error (.other s!"No resource named {name}") := by
      simp only [s, source, get?_of_not_mem absent]
    rw [Source.read, closed]
  · rw [Source.find_exact distinct, owned]
    simp only [same file, s, inserted]
  · rw [Source.find_eq_ok_iff distinct]
    simp only [selects_suffix_iff, s, same, inserted]
  · rw [← owned]
    exact Source.find_eq_ambiguous_iff
  · rw [← owned, Source.find_eq_notFound_iff]
    simp only [selects_suffix_iff, s, same, inserted]
  · obtain ⟨inside, -⟩ := (Source.find_eq_ok_iff distinct).mp found
    obtain ⟨front, data, back, rfl, last⟩ := exists_last ((same name).mp inside)
    exact ⟨data, openStream_of_last last⟩

/-- A name that is inserted again keeps its place and gets the new content; a suffix of both names is
ambiguous. -/
theorem memory_is_an_ordered_map_of_repeated :
    let inserts : List (String × Bytes) := [("b.x", [1]), ("a.x", []), ("b.x", [2])]
    let s := (ofList "Mod" inserts).source
    s.names = ["b.x", "a.x"] ∧ s.read "b.x" = .ok [2] ∧ s.read "a.x" = .error (.empty "a.x") ∧
      s.find "b.x" .exact = .ok "b.x" ∧ s.find "b.x" .suffix = .ok "b.x" ∧
      s.find ".x" .suffix = .error (.ambiguous "Mod" ".x" ["b.x", "a.x"]) := by
  intro inserts s
  obtain ⟨-, read, -, same, one, several, -⟩ := memory_is_an_ordered_map "Mod" inserts
  refine ⟨by decide, ?_, ?_, ?_, ?_, ?_⟩
  · exact read [("b.x", [1]), ("a.x", [])] "b.x" [2] [] rfl (by decide)
  · exact read [("b.x", [1])] "a.x" [] [("b.x", [2])] rfl (by decide)
  · exact same "b.x"
  · exact (one "b.x" "b.x").mpr ⟨by decide, List.suffix_refl _, by decide⟩
  · exact (several ".x" _).mpr ⟨by decide, by decide⟩

end Memory

end ModelLoading.Resource
