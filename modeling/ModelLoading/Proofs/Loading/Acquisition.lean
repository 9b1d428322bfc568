import ModelLoading.Proofs.Loading.SuffixMatching

/-!
# The acquisition of bytes

Which bytes a source has for a file is said without the order of the checks: it supplies the content of
the one selected resource (`Supplies`), or it withholds bytes for a reason (`Withholds`). A lookup comes to
the first or the second, and never to any other failure. What the acquisition for all does is then said
loader by loader, since no two entries of a registry are the same loader (`Distinct`).
-/

namespace ModelLoading.Resource.Source

open Loading (Error)

variable (source : Source) (m : Matching) (file : String)

/-! ## What a source has for a file -/

/-- The name of the bytes file selects exactly one resource, which opens with content. -/
def Supplies (data : Bytes) : Prop :=
  data ≠ [] ∧ ∃ name, source.candidates file m = [name] ∧ source.openStream name = .ok (.ok data)

/-- Why a source has no bytes for a file. -/
inductive Withholds : Error → Prop
  | nothing (selected : source.candidates file m = []) : Withholds (.notFound source.owner file)
  | several (selected : 2 ≤ (source.candidates file m).length) :
      Withholds (.ambiguous source.owner file (source.candidates file m))
  | closed {name : String} {cause : Files.IoError} (selected : source.candidates file m = [name])
      (opened : source.openStream name = .error cause) : Withholds (.io cause)
  | broken {name : String} {cause : Files.IoError} (selected : source.candidates file m = [name])
      (opened : source.openStream name = .ok (.error cause)) : Withholds (.io cause)
  | empty {name : String} (selected : source.candidates file m = [name])
      (opened : source.openStream name = .ok (.ok [])) : Withholds (.empty name)

end ModelLoading.Resource.Source

namespace ModelLoading.Loading

variable {ι Model : Type}

section Lookups

variable {source : Resource.Source} {m : Resource.Matching} {file name : String}

theorem contentOf_of_one (selected : source.candidates file m = [name]) :
    contentOf source m file = source.read name := by
  simp only [contentOf, Resource.Source.find, selected]

/-- A lookup comes to bytes or to a reason why there are none. -/
theorem supplies_or_withholds (source : Resource.Source) (m : Resource.Matching) (file : String) :
    (∃ data, source.Supplies m file data ∧ contentOf source m file = .ok data) ∨
      ∃ e, source.Withholds m file e ∧ contentOf source m file = .error e := by
  cases selected : source.candidates file m with
  | nil =>
    refine .inr ⟨_, .nothing selected, ?_⟩
    simp only [contentOf, Resource.Source.find, selected]
  | cons name others =>
    cases others with
    | nil =>
      rw [contentOf_of_one selected, Resource.Source.read]
      cases opened : source.openStream name with
      | error cause => exact .inr ⟨_, .closed selected opened, rfl⟩
      | ok reading =>
        cases reading with
        | error cause => exact .inr ⟨_, .broken selected opened, rfl⟩
        | ok data =>
          cases data with
          | nil => exact .inr ⟨_, .empty selected opened, rfl⟩
          | cons b rest => exact .inl ⟨_, ⟨List.cons_ne_nil _ _, name, selected, opened⟩, rfl⟩
    | cons other more =>
      refine .inr ⟨_, .several (by simp [selected]), ?_⟩
      simp only [contentOf, Resource.Source.find, selected]

theorem contentOf_of_supplies {data : Bytes} (h : source.Supplies m file data) :
    contentOf source m file = .ok data := by
  obtain ⟨content, name, selected, opened⟩ := h
  rw [contentOf_of_one selected]
  cases data with
  | nil => exact absurd rfl content
  | cons b rest => simp only [Resource.Source.read, opened]

theorem withholds_of_not_supplies (h : ¬∃ data, source.Supplies m file data) :
    ∃ e, source.Withholds m file e ∧ contentOf source m file = .error e := by
  rcases supplies_or_withholds source m file with
    ⟨data, supplies, -⟩ | withholds
  · exact absurd ⟨data, supplies⟩ h
  · exact withholds

end Lookups

/-! ## Entries of a registry -/

section Entries

variable [DecidableEq ι] {w : World ι Model}

/-- The names of the registered loaders differ. -/
def World.Distinct (w : World ι Model) : Prop :=
  (w.registry.entries.map fun i => (w.system.loaders i).name).Nodup

omit [DecidableEq ι] in
theorem World.Distinct.entries (h : w.Distinct) : w.registry.entries.Nodup := List.Nodup.of_map _ h

theorem World.Distinct.perform (h : w.Distinct) (a : Action ι) : (w.perform a).Distinct := by
  have name : ∀ i, ((w.perform a).system.loaders i).name = (w.system.loaders i).name :=
    fun i => (w.moves a i).name_file.1
  unfold Distinct
  simp only [name]
  -- only a registration that is accepted changes the registry
  cases a with
  | register i =>
    simp only [World.perform]
    rcases register_cases w.registry w.system i with ⟨e, refused⟩ | ⟨free, accepted⟩
    · rw [refused]; exact h
    · rw [accepted]; exact nodup_names_register free h
  | _ => exact h

theorem World.Distinct.after (h : w.Distinct) (actions : List (Action ι)) :
    (w.after actions).Distinct := by
  induction actions generalizing w with
  | nil => exact h
  | cons a actions ih => exact ih (h.perform a)

end Entries

/-! ## One loader -/

section OneLoader

variable {settings : Settings} {source : Resource.Source} {l : Loader Model}

theorem Loader.acquired_of_supplies (pending : l.phase = .pending) (none : l.bytes = none)
    {data : Bytes} (supplies : source.Supplies settings.matching l.file data) :
    l.acquired settings source = { l with bytes := some data } := by
  have free : ¬(l.phase ≠ .pending ∨ l.bytes.isSome) := by simp [pending, none]
  rw [acquired_of_ok free (contentOf_of_supplies supplies), giveBytes_of_pending l pending]

theorem Loader.acquired_of_withheld (pending : l.phase = .pending) (none : l.bytes = none) {e : Error}
    (found : contentOf source settings.matching l.file = .error e) :
    (settings.missing = .fail →
      l.acquired settings source = { l with phase := .failed, failure := some e.message }) ∧
    (settings.missing = .skip → l.acquired settings source = l) := by
  have free : ¬(l.phase ≠ .pending ∨ l.bytes.isSome) := by simp [pending, none]
  rw [acquired_of_error free found]
  constructor <;> intro policy
  · simp [policy, fail, pending, none]
  · simp [policy]

/-- The loaders that get bytes are those that wait to be run afterwards and did not before. -/
theorem Loader.gains_eq : l.gains settings source =
    ((l.acquired settings source).isEligible && !l.isEligible) := by
  unfold gains
  by_cases free : l.phase = .pending ∧ l.bytes = none
  · obtain ⟨pending, none⟩ := free
    rcases supplies_or_withholds source settings.matching l.file with
      ⟨data, supplies, found⟩ | ⟨e, -, found⟩
    · rw [acquired_of_supplies pending none supplies]
      simp [isEligible, pending, none, found, Except.isOk, Except.toBool]
    · have becomes := acquired_of_withheld pending none found
      cases policy : settings.missing with
      | fail => simp [becomes.1 policy, isEligible, found, Except.isOk, Except.toBool]
      | skip => simp [becomes.2 policy, isEligible, none, found, Except.isOk, Except.toBool]
  · have barred : l.phase ≠ .pending ∨ l.bytes.isSome := by
      rw [Option.isSome_iff_ne_none]
      exact not_and_or.mp free
    rw [acquired_of_barred barred]
    rcases barred with other | held
    · simp [other, isEligible]
    · simp [isEligible, Option.isSome_iff_ne_none.mp held]

theorem Loader.phase_acquired_of_skip (policy : settings.missing = .skip) :
    (l.acquired settings source).phase = l.phase := by
  by_cases barred : l.phase ≠ .pending ∨ l.bytes.isSome
  · rw [acquired_of_barred barred]
  · cases found : contentOf source settings.matching l.file with
    | ok data => rw [acquired_of_ok barred found, giveBytes_eq]
    | error e => rw [acquired_of_error barred found, if_neg (by simp [policy])]

end OneLoader

/-! ## All loaders -/

variable [DecidableEq ι]

theorem loaders_acquireAll (v : World ι Model) (source : Resource.Source) (i : ι) :
    (v.perform (.acquireAll source)).system.loaders i =
      if i ∈ v.registry.entries then
        (v.system.loaders i).acquired v.registry.settings source
      else v.system.loaders i :=
  congrFun (v.system.agrees_acquireAll v.registry source).loaders i

theorem fst_acquireAll {v : World ι Model} (distinct : v.Distinct) (source : Resource.Source) :
    (v.registry.acquireAll source v.system).1 = v.registry.entries.countP fun i =>
      ((v.perform (.acquireAll source)).system.loaders i).isEligible &&
        !(v.system.loaders i).isEligible := by
  rw [Registry.acquireAll, fst_acquireEach _ _ _ distinct.entries]
  refine List.countP_congr fun i inside => ?_
  rw [Loader.gains_eq, loaders_acquireAll, if_pos inside]

theorem loaders_acquireAll_again (v : World ι Model) (source : Resource.Source) :
    ((v.perform (.acquireAll source)).perform (.acquireAll source)).system.loaders =
      (v.perform (.acquireAll source)).system.loaders := by
  funext i
  rw [loaders_acquireAll, loaders_acquireAll]
  by_cases inside : i ∈ v.registry.entries
  · have inside' : i ∈ (v.perform (.acquireAll source)).registry.entries := inside
    rw [if_pos inside', if_pos inside]
    exact Loader.acquired_acquired _ _ _
  · have outside : i ∉ (v.perform (.acquireAll source)).registry.entries := inside
    rw [if_neg outside]

/-- No lookup of bytes fails for any reason but that they could not be acquired. -/
theorem isAcquisition_of_acquire {s : System ι Model} {i : ι} {source : Resource.Source}
    {m : Resource.Matching} {e : Error} (h : (s.acquire i source m).1 = .error e) :
    e.isAcquisition := by
  rcases s.acquire_cases i source m with ⟨data, -, answer, -⟩ | ⟨e', found, answer, -⟩
  · rw [answer] at h
    cases h
  · rw [answer] at h
    obtain rfl := Except.error.inj h
    exact isAcquisition_of_contentOf found

/-- **The acquisition of bytes for all is exact.** In whatever way the registry came about, a loader that
is not registered, not pending or holds bytes is left as it is; a pending one without bytes obtains exactly
what the source supplies; and one for which the source has nothing fails with the words of the reason, or
stays as it is where missing resources are skipped. The answer is the number of loaders that wait to be run
afterwards and did not before, a second acquisition from the same source does nothing, no loader changes
its phase where missing resources are skipped, and the branch for any other failure is never taken. -/
theorem acquisition_is_exact {w : World ι Model} (empty : w.registry.entries = [])
    (h : List (Action ι)) (source : Resource.Source) :
    let v := w.after h
    let u := v.perform (.acquireAll source)
    let settings := v.registry.settings
    let before := v.system.loaders
    let after := u.system.loaders
    let waits := fun i =>
      i ∈ v.registry.entries ∧ (before i).phase = .pending ∧ (before i).bytes = none
    (∀ i, ¬waits i → after i = before i) ∧
    (∀ i, waits i → ∀ data, source.Supplies settings.matching (before i).file data →
      after i = { before i with bytes := some data }) ∧
    (∀ i, waits i → (¬∃ data, source.Supplies settings.matching (before i).file data) →
      ∃ e, source.Withholds settings.matching (before i).file e ∧
        (v.system.acquire i source settings.matching).1 = .error e ∧
        (settings.missing = .fail →
          after i = { before i with phase := .failed, failure := some e.message }) ∧
        (settings.missing = .skip → after i = before i)) ∧
    v.registry.entries.Nodup ∧
    (v.registry.acquireAll source v.system).1 =
      v.registry.entries.countP (fun i => (after i).isEligible && !(before i).isEligible) ∧
    (u.registry.acquireAll source u.system).1 = 0 ∧
    (u.perform (.acquireAll source)).system.loaders = after ∧
    (settings.missing = .skip → ∀ i, (after i).phase = (before i).phase) ∧
    ∀ i m e, (v.system.acquire i source m).1 = .error e → e.isAcquisition := by
  intro v u settings before after waits
  have distinct : v.Distinct := by
    refine World.Distinct.after ?_ h
    simp [World.Distinct, empty]
  have again : (u.perform (.acquireAll source)).system.loaders = after :=
    loaders_acquireAll_again v source
  have becomes : ∀ i, i ∈ v.registry.entries → after i = (before i).acquired settings source :=
    fun i inside => (loaders_acquireAll v source i).trans (if_pos inside)
  refine ⟨fun i idle => ?_, fun i ⟨inside, pending, bare⟩ data supplies => ?_,
    fun i ⟨inside, pending, bare⟩ nothing => ?_, distinct.entries, fst_acquireAll distinct source, ?_,
    again, fun policy i => ?_, fun i m e => isAcquisition_of_acquire⟩
  · by_cases inside : i ∈ v.registry.entries
    · have barred : (before i).phase ≠ .pending ∨ (before i).bytes.isSome := by
        rw [Option.isSome_iff_ne_none]
        exact not_and_or.mp fun free => idle ⟨inside, free⟩
      rw [becomes i inside, Loader.acquired_of_barred barred]
    · exact (loaders_acquireAll v source i).trans (if_neg inside)
  · rw [becomes i inside]
    exact Loader.acquired_of_supplies pending bare supplies
  · obtain ⟨e, withholds, found⟩ := withholds_of_not_supplies nothing
    have answer : (v.system.acquire i source settings.matching).1 = .error e := by
      rcases v.system.acquire_cases i source settings.matching with
        ⟨data, other, -⟩ | ⟨e', same, answer, -⟩
      · rw [found] at other
        cases other
      · rw [found] at same
        obtain rfl := Except.error.inj same
        exact answer
    rw [becomes i inside]
    exact ⟨e, withholds, answer, Loader.acquired_of_withheld pending bare found⟩
  · have count := fst_acquireAll (distinct.perform (.acquireAll source)) source
    rw [again] at count
    rw [count, List.countP_eq_zero]
    simp [after, u]
  · by_cases inside : i ∈ v.registry.entries
    · rw [becomes i inside]
      exact Loader.phase_acquired_of_skip policy
    · exact congrArg Loader.phase ((loaders_acquireAll v source i).trans (if_neg inside))

/-- One of two registered loaders obtains its bytes, and the other one fails. -/
theorem acquisition_is_exact_of_pair :
    let source : Resource.Source :=
      { owner := "Mod", names := ["one.bytes"], openStream := fun _ => .ok (.ok [7]) }
    let v := World.pair.after [.register true, .register false]
    let u := v.perform (.acquireAll source)
    World.pair.registry.entries = [] ∧ v.registry.entries = [true, false] ∧
      (u.system.loaders true).bytes = some [7] ∧ (u.system.loaders true).phase = .pending ∧
      (u.system.loaders false).failure =
        some "Couldn't find bytes file 'two.bytes' in module 'Mod'" ∧
      (v.registry.acquireAll source v.system).1 = 1 ∧
      (u.registry.acquireAll source u.system).1 = 0 := by
  intro source v u
  have entries : v.registry.entries = [true, false] := by decide +kernel
  have pending : (v.system.loaders true).phase = .pending := by decide +kernel
  have bare : (v.system.loaders true).bytes = none := by decide +kernel
  have selected : source.candidates (v.system.loaders true).file v.registry.settings.matching =
      ["one.bytes"] := by decide +kernel
  have failure : (u.system.loaders false).failure =
      some "Couldn't find bytes file 'two.bytes' in module 'Mod'" := by decide +kernel
  have count : (v.registry.acquireAll source v.system).1 = 1 := by decide +kernel
  obtain ⟨-, supplied, -, -, -, again, -⟩ :=
    acquisition_is_exact (w := World.pair) rfl [.register true, .register false] source
  have inside : true ∈ v.registry.entries := entries ▸ List.mem_cons_self
  have first :=
    supplied true ⟨inside, pending, bare⟩ [7] ⟨by decide, "one.bytes", selected, rfl⟩
  refine ⟨rfl, entries, ?_, ?_, failure, count, again⟩
  · simp only [u, v, first]
  · simp only [u, v, first]
    exact pending

end ModelLoading.Loading
