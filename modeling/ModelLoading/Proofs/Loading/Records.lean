import ModelLoading.Proofs.Loading.Operations

/-!
# What each operation logs

The log only grows. One lemma for each operation says by which entries; the entries of an operation
on one loader are a function of that loader and of what it was given.
-/

namespace ModelLoading.Loading

variable {ι Model : Type}

/-- What a lookup of bytes for a loader logs: the notes of the source, and what was found. -/
def lookupEntries (i : ι) (source : Resource.Source) (m : Resource.Matching) (file : String) :
    List (Entry ι) :=
  source.notes.map (fun r => ⟨.caller, .note r⟩) ++
    match source.find file m with
    | .error _ => []
    | .ok name =>
      match source.read name with
      | .error _ => []
      | .ok data => [⟨.caller, .acquired i data.length name⟩]

/-- What the acquisition of bytes for all logs about one loader. -/
def acquisitionEntries (i : ι) (settings : Settings) (source : Resource.Source) (l : Loader Model) :
    List (Entry ι) :=
  if l.phase ≠ .pending ∨ l.bytes.isSome then []
  else lookupEntries i source settings.matching l.file ++
    match contentOf source settings.matching l.file with
    | .ok _ => []
    | .error e => [⟨.caller, .missing i e⟩]

/-- What the end of a run reports about its loader. -/
def outcomeEvent (i : ι) : Except String Model → Event ι
  | .ok _ => .finished i
  | .error reason => .failed i reason

namespace System

@[simp] theorem log_note (s : System ι Model) (party : Party) (event : Event ι) :
    (s.note party event).log = s.log ++ [⟨party, event⟩] := rfl

theorem log_notes (s : System ι Model) (records : List Log.Record) :
    (records.foldl (fun s r => s.note .caller (.note r)) s).log =
      s.log ++ records.map fun r => ⟨.caller, .note r⟩ := by
  induction records generalizing s with
  | nil => simp
  | cons r records ih => simp [ih]

@[simp] theorem log_completeOf [DecidableEq ι] (s : System ι Model) (t : Option TaskId) :
    (s.completeOf t).log = s.log := by
  cases t <;> rfl

variable [DecidableEq ι] (s : System ι Model) (i : ι)

theorem log_giveBytes (data : Bytes) :
    (s.giveBytes i data).log =
      s.log ++ if (s.loaders i).phase = .pending then [] else [⟨.caller, .lateBytes i⟩] := by
  unfold giveBytes
  split
  · simp [update]
  · simp

theorem log_acquire (source : Resource.Source) (m : Resource.Matching) :
    (s.acquire i source m).2.log = s.log ++ lookupEntries i source m (s.loaders i).file ++
      match contentOf source m (s.loaders i).file with
      | .ok _ => if (s.loaders i).phase = .pending then [] else [⟨.caller, .lateBytes i⟩]
      | .error _ => [] := by
  have notes := (agrees_notes s source.notes).loaders
  have log := log_notes s source.notes
  unfold acquire lookupEntries contentOf
  generalize source.notes.foldl (fun s r => s.note .caller (.note r)) s = noted at notes log ⊢
  simp only [notes]
  cases source.find (s.loaders i).file m with
  | error e => simp [log]
  | ok name =>
    dsimp only
    cases source.read name with
    | error e => simp [log]
    | ok data =>
      have loaders : (noted.note .caller (.acquired i data.length name)).loaders i = s.loaders i := by
        rw [(agrees_note noted _ _).loaders, notes]
      simp [log_giveBytes, loaders, log]

theorem log_acquireOne (settings : Settings) (source : Resource.Source) :
    (Registry.acquireOne settings source s i).2.log =
      s.log ++ acquisitionEntries i settings source (s.loaders i) := by
  unfold Registry.acquireOne acquisitionEntries
  by_cases barred : (s.loaders i).phase ≠ .pending ∨ (s.loaders i).bytes.isSome
  · simp [if_pos barred]
  · have pending : (s.loaders i).phase = .pending := by
      simp only [ne_eq, not_or, Decidable.not_not] at barred; exact barred.1
    have acquired := s.acquire_cases i source settings.matching
    have log := s.log_acquire i source settings.matching
    simp only [if_neg barred]
    generalize s.acquire i source settings.matching = x at acquired log ⊢
    obtain ⟨result, t⟩ := x
    rcases acquired with ⟨data, found, rfl, -⟩ | ⟨e, found, rfl, -⟩
    · simpa [found, pending] using log
    · simp only [found] at log ⊢
      simp only [isAcquisition_of_contentOf found, if_true]
      split
      · simp_all [fail, update]
      · simp_all

/-- Acquiring the bytes of one loader leaves every other one. -/
theorem loaders_acquireOne_of_not_mem (settings : Settings) (source : Resource.Source)
    {is : List ι} (new : i ∉ is) {j : ι} (hj : j ∈ is) :
    (Registry.acquireOne settings source s i).2.loaders j = s.loaders j := by
  have other : j ≠ i := by
    rintro rfl
    exact new hj
  rw [(agrees_acquireOne s i settings source).loaders, s.update_of_ne other]

/-- Acquiring the bytes of several loaders logs about each of them on its own. -/
theorem log_acquireEach (settings : Settings) (source : Resource.Source) {is : List ι}
    (distinct : is.Nodup) :
    (Registry.acquireEach settings source is s).2.log =
      s.log ++ is.flatMap fun j => acquisitionEntries j settings source (s.loaders j) := by
  induction is generalizing s with
  | nil => simp [Registry.acquireEach]
  | cons i is ih =>
    obtain ⟨new, distinct⟩ := List.nodup_cons.mp distinct
    have rest : is.flatMap (fun j => acquisitionEntries j settings source
          ((Registry.acquireOne settings source s i).2.loaders j)) =
        is.flatMap fun j => acquisitionEntries j settings source (s.loaders j) := by
      simp only [List.flatMap]
      rw [List.map_congr_left fun j hj => by rw [s.loaders_acquireOne_of_not_mem i settings source new hj]]
    simp only [Registry.acquireEach, ih _ distinct, rest, log_acquireOne, List.flatMap_cons,
      List.append_assoc]

theorem log_start_of_barred (h : (s.loaders i).isLoaded = true ∨ (s.loaders i).started = true)
    (task : Option TaskId) :
    (s.start i task).2.log =
      s.log ++ [⟨Run.party ⟨i, none, task⟩, .notAgain i (s.loaders i).phase⟩] := by
  simp [start, Loader.start_of_barred _ h]

theorem log_start_of_free (loaded : (s.loaders i).isLoaded = false)
    (started : (s.loaders i).started = false) (task : Option TaskId) :
    (s.start i task).2.log = s.log := by
  rw [s.start_of_free i loaded started task]
  rfl

theorem log_finish (r : Run ι) :
    (s.finish r).log =
      s.log ++ [⟨r.party, outcomeEvent r.loader ((s.loaders r.loader).outcome r.taken)⟩] := by
  unfold finish outcomeEvent
  cases (s.loaders r.loader).outcome r.taken <;> simp [update]

theorem log_dispatch : (s.dispatch i).2.log = s.log ++ [⟨.caller, .dispatched i⟩] := rfl

theorem log_refuse (cause : Files.IoError) :
    (s.refuse i cause).log = s.log ++ [⟨.caller, .refused i cause⟩] := rfl

end System

end ModelLoading.Loading
