import ModelLoading.Proofs.Loading.Moves
import ModelLoading.Proofs.Loading.RegistrationOrder
import Mathlib.Data.List.Infix
import Mathlib.Data.List.Nodup
import Mathlib.Data.List.Pairwise

/-!
# Loaders under suffix matching

Two suffixes of one text are comparable, so some text ends with two given names exactly if one of the
names ends with the other (`exists_text_iff`). What the registry compares is therefore what matters for
resources: loaders that stand beside each other in it never select the same one (`Exclusive`), whatever
was accepted and refused on the way. The names of loaders and of their files never change, so this stays
true over whole histories.
-/

namespace ModelLoading.Loading

variable {ι Model : Type}

/-! ## Names that end alike -/

/-- Some text ends with both of two names exactly if one of the names ends with the other. -/
theorem exists_text_iff {a b : String} :
    (∃ text : String, a.toList <:+ text.toList ∧ b.toList <:+ text.toList) ↔
      a.toList <:+ b.toList ∨ b.toList <:+ a.toList := by
  constructor
  · rintro ⟨text, first, second⟩
    exact List.suffix_or_suffix_of_suffix first second
  · rintro (inside | inside)
    · exact ⟨b, inside, List.suffix_rfl⟩
    · exact ⟨a, List.suffix_rfl, inside⟩

/-- Two loaders cannot stand in one registry: they have the same name, or some text ends with the names
of both bytes files. -/
def Clash (s : System ι Model) (i j : ι) : Prop :=
  (s.loaders i).name = (s.loaders j).name ∨
    ∃ text : String, (s.loaders i).file.toList <:+ text.toList ∧
      (s.loaders j).file.toList <:+ text.toList

/-- The failure that is reported for a loader that clashes with a registered one. -/
def clashError (existing new : Loader Model) : Error :=
  if existing.name = new.name then .duplicate new.name
  else .collision new.name new.file existing.name existing.file

section Clashes

variable {s t : System ι Model} {i j : ι}

theorem Clash.symm (h : Clash s i j) : Clash s j i := by
  rcases h with same | ⟨text, first, second⟩
  · exact .inl same.symm
  · exact .inr ⟨text, second, first⟩

/-- Whether loaders clash depends on their names alone. -/
theorem clash_congr (name : ∀ i, (t.loaders i).name = (s.loaders i).name)
    (file : ∀ i, (t.loaders i).file = (s.loaders i).file) : Clash t i j ↔ Clash s i j := by
  simp only [Clash, name, file]

theorem conflict?_of_clash (h : Clash s i j) :
    Registry.conflict? .suffix (s.loaders i) (s.loaders j) =
      some (clashError (s.loaders i) (s.loaders j)) := by
  unfold Registry.conflict? clashError
  by_cases same : (s.loaders i).name = (s.loaders j).name
  · simp [same]
  · have files := exists_text_iff.mp (h.resolve_left same)
    have selected : Resource.Matching.suffix.selects (s.loaders j).file (s.loaders i).file = true ∨
        Resource.Matching.suffix.selects (s.loaders i).file (s.loaders j).file = true := by
      simpa [Resource.Matching.selects] using files
    simp [same, selected]

/-- Loaders that do not clash can be registered together. -/
theorem compatible_iff_not_clash : Compatible .suffix s i j ↔ ¬Clash s i j := by
  rw [compatible_iff, Clash, not_or, exists_text_iff, not_or]
  refine and_congr_right fun _ => ?_
  simp [Resource.Matching.selects, ← Bool.not_eq_true]

end Clashes

/-! ## The answer of a registration -/

section Registration

variable [DecidableEq ι] {r : Registry ι} {s : System ι Model} {i : ι} {e : Error}

omit [DecidableEq ι] in
/-- A loader is refused for the first entry that it clashes with. -/
theorem register_error_iff (suffix : r.settings.matching = .suffix) :
    r.register s i = .error e ↔ ∃ before j after, r.entries = before ++ j :: after ∧
      (∀ k ∈ before, ¬Clash s k i) ∧ Clash s j i ∧
      e = clashError (s.loaders j) (s.loaders i) := by
  have refused : r.register s i = .error e ↔
      (r.entries.findSome? fun j => Registry.conflict? .suffix (s.loaders j) (s.loaders i)) =
        some e := by
    unfold Registry.register
    rw [suffix]
    split <;> simp [*]
  rw [refused, List.findSome?_eq_some_iff]
  constructor
  · rintro ⟨before, j, after, split, conflict, free⟩
    have clash : Clash s j i := by
      by_contra none
      have compatible := compatible_iff_not_clash.mpr none
      rw [Compatible, conflict] at compatible
      cases compatible
    rw [conflict?_of_clash clash] at conflict
    exact ⟨before, j, after, split, fun k hk => compatible_iff_not_clash.mp (free k hk), clash,
      (Option.some.inj conflict).symm⟩
  · rintro ⟨before, j, after, split, free, clash, rfl⟩
    exact ⟨before, j, after, split, conflict?_of_clash clash,
      fun k hk => compatible_iff_not_clash.mpr (free k hk)⟩

/-- A loader is accepted exactly if it clashes with no entry, and then it stands at the end. -/
theorem register_accepts_iff (suffix : r.settings.matching = .suffix) :
    r.register s i =
        .ok ({ r with entries := r.entries ++ [i] }, s.note .caller (.registered i)) ↔
      ∀ j ∈ r.entries, ¬Clash s j i := by
  have accepts := register_ok_iff (r := r) (s := s) (i := i)
  simp only [suffix, compatible_iff_not_clash] at accepts
  rw [← accepts]
  constructor
  · intro accepted
    exact ⟨_, accepted⟩
  · rintro ⟨x, accepted⟩
    rw [accepted, register_ok accepted]

omit [DecidableEq ι] in
theorem register_refuses_iff (suffix : r.settings.matching = .suffix) :
    (∃ e, r.register s i = .error e) ↔ ∃ j ∈ r.entries, Clash s j i := by
  have accepts := register_ok_iff (r := r) (s := s) (i := i)
  simp only [suffix, compatible_iff_not_clash] at accepts
  cases answer : r.register s i with
  | error e =>
    obtain ⟨before, j, after, split, -, clash, -⟩ := (register_error_iff suffix).mp answer
    exact ⟨fun _ => ⟨j, by simp [split], clash⟩, fun _ => ⟨e, rfl⟩⟩
  | ok x =>
    have free := accepts.mp ⟨x, answer⟩
    constructor
    · rintro ⟨e, refused⟩
      cases refused
    · rintro ⟨j, inside, clash⟩
      exact absurd clash (free j inside)

end Registration

/-! ## Histories -/

/-- The registry matches resources by suffix, and no two of its entries clash. -/
structure Exclusive (w : World ι Model) : Prop where
  suffix : w.registry.settings.matching = .suffix
  apart : w.registry.entries.Pairwise fun i j => ¬Clash w.system i j

section Histories

variable [DecidableEq ι] {w : World ι Model} {i j : ι}

/-- No action renames a loader or its file. -/
theorem Moves.name_file {a : Action ι} {s t : System ι Model} (h : Moves i a s t) :
    (t.loaders i).name = (s.loaders i).name ∧ (t.loaders i).file = (s.loaders i).file := by
  have finished : ∀ (l : Loader Model) outcome,
      (l.finish outcome).name = l.name ∧ (l.finish outcome).file = l.file := by
    intro l outcome
    cases outcome <;> exact ⟨rfl, rfl⟩
  cases h with
  | touches _ _ becomes =>
    generalize t.loaders i = m at becomes
    cases becomes with
    | given data => rw [Loader.giveBytes_eq]; exact ⟨rfl, rfl⟩
    | same | failed _ | assigned _ | unassigned | refused _ _ => exact ⟨rfl, rfl⟩
  | starts r own _ _ _ _ becomes => rw [becomes]; exact ⟨rfl, rfl⟩
  | ends r own _ _ becomes => rw [becomes]; exact finished _ _
  | loads r own _ _ _ _ becomes => rw [becomes]; exact finished _ _

theorem clash_perform (w : World ι Model) (a : Action ι) :
    Clash (w.perform a).system i j ↔ Clash w.system i j :=
  clash_congr (fun k => (w.moves a k).name_file.1) fun k => (w.moves a k).name_file.2

theorem Exclusive.perform (h : Exclusive w) (a : Action ι) : Exclusive (w.perform a) := by
  -- only a registration that is accepted changes the registry
  have unchanged : (w.perform a).registry = w.registry → Exclusive (w.perform a) := by
    intro same
    refine ⟨same ▸ h.suffix, ?_⟩
    rw [same]
    exact h.apart.imp fun apart clash => apart ((clash_perform w a).mp clash)
  cases a with
  | register i =>
    cases answer : w.registry.register w.system i with
    | error e => exact unchanged (by simp only [World.perform, answer])
    | ok x =>
      have free := (register_accepts_iff h.suffix).mp (register_ok answer ▸ answer)
      have registry : (w.perform (.register i)).registry =
          { w.registry with entries := w.registry.entries ++ [i] } := by
        simp only [World.perform, answer, register_ok answer]
      refine ⟨by rw [registry]; exact h.suffix, ?_⟩
      rw [registry, List.pairwise_append]
      simp only [clash_perform]
      refine ⟨h.apart, List.pairwise_singleton _ _, fun j hj k hk => ?_⟩
      obtain rfl := List.mem_singleton.mp hk
      exact free j hj
  | _ => exact unchanged rfl

theorem Exclusive.after (h : Exclusive w) (actions : List (Action ι)) :
    Exclusive (w.after actions) := by
  induction actions generalizing w with
  | nil => exact h
  | cons a actions ih => exact ih (h.perform a)

end Histories

/-! ## Resources -/

section Resources

variable [DecidableEq ι] {w : World ι Model} {source : Resource.Source} {i j : ι} {resource : String}

/-- The acquisition of bytes for all gives a loader the content of a resource, by its own account. -/
def World.Gives (w : World ι Model) (source : Resource.Source) (i : ι) (resource : String) : Prop :=
  ∃ size, ⟨.caller, .acquired i size resource⟩ ∈
    (w.perform (.acquireAll source)).system.log.drop w.system.log.length

omit [DecidableEq ι] in
theorem mem_lookupEntries {m : Resource.Matching} {file : String} {size : Nat} :
    (⟨.caller, .acquired j size resource⟩ : Entry ι) ∈ lookupEntries i source m file ↔
      j = i ∧ source.find file m = .ok resource ∧
        ∃ data, source.read resource = .ok data ∧ size = data.length := by
  unfold lookupEntries
  cases found : source.find file m with
  | error e => simp
  | ok name =>
    dsimp only
    by_cases same : name = resource
    · subst same
      cases source.read name <;> simp
    · cases source.read name <;> simp [same, Ne.symm same]

omit [DecidableEq ι] in
theorem mem_acquisitionEntries {settings : Settings} {l : Loader Model} {size : Nat} :
    (⟨.caller, .acquired j size resource⟩ : Entry ι) ∈ acquisitionEntries i settings source l ↔
      (l.phase = .pending ∧ l.bytes = none) ∧
        j = i ∧ source.find l.file settings.matching = .ok resource ∧
          ∃ data, source.read resource = .ok data ∧ size = data.length := by
  unfold acquisitionEntries
  by_cases free : l.phase = .pending ∧ l.bytes = none
  · have open_ : ¬(l.phase ≠ .pending ∨ l.bytes.isSome) := by simp [free]
    rw [if_neg open_, List.mem_append, mem_lookupEntries]
    cases contentOf source settings.matching l.file <;> simp [free]
  · have barred : l.phase ≠ .pending ∨ l.bytes.isSome := by
      rw [Option.isSome_iff_ne_none]
      exact not_and_or.mp free
    rw [if_pos barred]
    simp [free]

/-- The loaders that are given a resource, by what they and the source were before. -/
theorem gives_iff (distinct : w.registry.entries.Nodup) : w.Gives source i resource ↔
    i ∈ w.registry.entries ∧ (w.system.loaders i).phase = .pending ∧
      (w.system.loaders i).bytes = none ∧
      source.find (w.system.loaders i).file w.registry.settings.matching = .ok resource ∧
      ∃ data, source.read resource = .ok data := by
  have log := w.system.log_acquireEach w.registry.settings source distinct
  unfold World.Gives
  simp only [World.perform, Registry.acquireAll, log, List.drop_left, List.mem_flatMap,
    mem_acquisitionEntries]
  constructor
  · rintro ⟨size, k, inside, ⟨pending, bytes⟩, rfl, found, data, read, -⟩
    exact ⟨inside, pending, bytes, found, data, read⟩
  · rintro ⟨inside, pending, bytes, found, data, read⟩
    exact ⟨data.length, i, inside, ⟨pending, bytes⟩, rfl, found, data, read, rfl⟩

/-- A loader that obtains bytes is given the resource that they come from. -/
theorem gives_of_obtains (distinct : w.registry.entries.Nodup) {data : Bytes}
    (before : (w.system.loaders i).bytes = none)
    (after : ((w.perform (.acquireAll source)).system.loaders i).bytes = some data) :
    ∃ resource, w.Gives source i resource ∧ source.read resource = .ok data := by
  have loaders := (w.system.agrees_acquireAll w.registry source).loaders
  simp only [World.perform, loaders] at after
  split at after
  · rename_i inside
    by_cases barred : (w.system.loaders i).phase ≠ .pending ∨ (w.system.loaders i).bytes.isSome
    · rw [Loader.acquired_of_barred barred, before] at after
      cases after
    · have pending : (w.system.loaders i).phase = .pending := by
        simp only [ne_eq, not_or, Decidable.not_not] at barred; exact barred.1
      cases content : contentOf source w.registry.settings.matching (w.system.loaders i).file with
      | error e =>
        rw [Loader.acquired_of_error barred content] at after
        split at after
        · simp [Loader.fail] at after
        · rw [before] at after
          cases after
      | ok got =>
        rw [Loader.acquired_of_ok barred content, Loader.giveBytes_of_pending _ pending] at after
        obtain rfl := Option.some.inj after
        unfold contentOf at content
        split at content
        · cases content
        · rename_i resource found
          exact ⟨resource, (gives_iff distinct).mpr ⟨inside, pending, before, found, got, content⟩,
            content⟩
  · rw [before] at after
    cases after

/-- A resource that is found ends with the name of the bytes file. -/
theorem suffix_of_find {file : String} (h : source.find file .suffix = .ok resource) :
    file.toList <:+ resource.toList := by
  unfold Resource.Source.find at h
  have inside : resource ∈ source.candidates file .suffix := by
    split at h
    · cases h
    · rename_i name only
      obtain rfl := Except.ok.inj h
      simp [only]
    · cases h
  have selected := (List.mem_filter.mp inside).2
  simpa [Resource.Matching.selects] using selected

end Resources

/-- **Loaders that are registered under suffix matching never compete for a resource.** In whatever way
the registry came about, the registered names differ, and no text ends with the names of the files of two
loaders. So the acquisition of bytes for all never gives one resource to two loaders, whatever the source;
and each loader that obtains bytes is given the resource that they come from. A loader is refused exactly
if it clashes with an entry, for the first one that it clashes with, and nothing changes; otherwise it
stands at the end of the registry. -/
theorem suffix_matching_is_exclusive [DecidableEq ι] {w : World ι Model}
    (empty : w.registry.entries = []) (suffix : w.registry.settings.matching = .suffix)
    (h : List (Action ι)) :
    let v := w.after h
    let name := fun i => (v.system.loaders i).name
    let file := fun i => (v.system.loaders i).file.toList
    ((v.registry.entries.map name).Nodup ∧
      ∀ i ∈ v.registry.entries, ∀ j ∈ v.registry.entries, i ≠ j →
        ¬∃ text : String, file i <:+ text.toList ∧ file j <:+ text.toList) ∧
    (∀ source : Resource.Source,
      (∀ i j resource, v.Gives source i resource → v.Gives source j resource → i = j) ∧
      ∀ i data, (v.system.loaders i).bytes = none →
        ((v.perform (.acquireAll source)).system.loaders i).bytes = some data →
          ∃ resource, v.Gives source i resource ∧ source.read resource = .ok data) ∧
    (∀ i, (∃ e, v.registry.register v.system i = .error e) ↔
      (∃ j ∈ v.registry.entries, name j = name i) ∨
        ∃ j ∈ v.registry.entries, ∃ text : String, file i <:+ text.toList ∧ file j <:+ text.toList) ∧
    (∀ i e, v.registry.register v.system i = .error e ↔
      ∃ before j after, v.registry.entries = before ++ j :: after ∧
        (∀ k ∈ before, ¬Clash v.system k i) ∧ Clash v.system j i ∧
        e = clashError (v.system.loaders j) (v.system.loaders i)) ∧
    (∀ i e, v.registry.register v.system i = .error e → v.perform (.register i) = v) ∧
    ∀ i, (∀ j ∈ v.registry.entries, ¬Clash v.system j i) →
      (v.perform (.register i)).registry.entries = v.registry.entries ++ [i] := by
  intro v name file
  have exclusive : Exclusive v := by
    refine Exclusive.after ⟨suffix, ?_⟩ h
    rw [empty]
    exact List.Pairwise.nil
  have names : (v.registry.entries.map name).Nodup := by
    rw [List.Nodup, List.pairwise_map]
    exact exclusive.apart.imp fun apart same => apart (.inl same)
  have distinct : v.registry.entries.Nodup := names.of_map
  have symm : Std.Symm fun i j => ¬Clash v.system i j := ⟨fun i j apart clash => apart clash.symm⟩
  have apart : ∀ i ∈ v.registry.entries, ∀ j ∈ v.registry.entries, i ≠ j → ¬Clash v.system i j :=
    fun i hi j hj ne => exclusive.apart.forall hi hj ne
  refine ⟨⟨names, fun i hi j hj ne both => apart i hi j hj ne (.inr both)⟩, fun source => ⟨?_, ?_⟩,
    fun i => ?_, fun i e => register_error_iff exclusive.suffix, fun i e refused => ?_,
    fun i free => ?_⟩
  · intro i j resource first second
    obtain ⟨hi, -, -, found, -⟩ := (gives_iff distinct).mp first
    obtain ⟨hj, -, -, found', -⟩ := (gives_iff distinct).mp second
    rw [exclusive.suffix] at found found'
    by_contra ne
    exact apart i hi j hj ne (.inr ⟨resource, suffix_of_find found, suffix_of_find found'⟩)
  · intro i data before after
    exact gives_of_obtains distinct before after
  · rw [register_refuses_iff exclusive.suffix]
    constructor
    · rintro ⟨j, inside, same | ⟨text, ends, ends'⟩⟩
      · exact .inl ⟨j, inside, same⟩
      · exact .inr ⟨j, inside, text, ends', ends⟩
    · rintro (⟨j, inside, same⟩ | ⟨j, inside, text, ends, ends'⟩)
      · exact ⟨j, inside, .inl same⟩
      · exact ⟨j, inside, .inr ⟨text, ends', ends⟩⟩
  · simp only [World.perform, refused]
  · simp only [World.perform, (register_accepts_iff exclusive.suffix).mpr free]

/-- A loader whose file is named by the end of another one's is registered first, and keeps the other
one out; a second registration of its own is refused for the name. -/
theorem suffix_matching_is_exclusive_of_nested :
    let w : World Bool Bytes := World.ofLoaders (fun big =>
      { name := if big then "Big" else "Small"
        file := if big then "GameModel.bytes" else "Model.bytes"
        decode := .ok }) {} {}
    let v := w.after [.register false, .register true, .register false]
    w.registry.entries = [] ∧ w.registry.settings.matching = .suffix ∧
      v.registry.entries = [false] ∧
      v.registry.register v.system true =
        .error (.collision "Big" "GameModel.bytes" "Small" "Model.bytes") ∧
      v.registry.register v.system false = .error (.duplicate "Small") ∧
      v.perform (.register true) = v := by
  intro w v
  have entries : v.registry.entries = [false] := by decide +kernel
  obtain ⟨-, -, -, refused, unchanged, -⟩ := suffix_matching_is_exclusive (w := w) rfl rfl
    [.register false, .register true, .register false]
  have ends : (v.system.loaders false).file.toList <:+ (v.system.loaders true).file.toList := by
    decide +kernel
  have collides : clashError (v.system.loaders false) (v.system.loaders true) =
      .collision "Big" "GameModel.bytes" "Small" "Model.bytes" := by decide +kernel
  have repeats : clashError (v.system.loaders false) (v.system.loaders false) =
      .duplicate "Small" := by decide +kernel
  have clash : Clash v.system false true :=
    .inr ⟨(v.system.loaders true).file, ends, List.suffix_rfl⟩
  have same : Clash v.system false false := .inl rfl
  have collision := (refused true _).mpr
    ⟨[], false, [], entries, List.forall_mem_nil _, clash, collides.symm⟩
  have duplicate := (refused false _).mpr
    ⟨[], false, [], entries, List.forall_mem_nil _, same, repeats.symm⟩
  exact ⟨rfl, rfl, entries, collision, duplicate, unchanged true _ collision⟩

end ModelLoading.Loading
