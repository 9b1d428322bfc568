import ModelLoading.Loading.Scheduler

/-!
# What each operation changes

The parts of a system are its loaders, its tasks, the queue of dispatched loads and the runs in
progress. One lemma for each operation and part says what becomes of the part; proofs about
histories use these and leave the operations closed. The log is left out: systems that are the same
but for the log are said to agree.
-/

namespace ModelLoading.Loading

variable {ι Model : Type}

/-! ## Phases -/

namespace Phase

@[simp] theorem isTerminal_pending : pending.isTerminal = false := rfl
@[simp] theorem isTerminal_loading : loading.isTerminal = false := rfl
@[simp] theorem isTerminal_succeeded : succeeded.isTerminal = true := rfl
@[simp] theorem isTerminal_failed : failed.isTerminal = true := rfl

theorem moveTo_of_terminal {p : Phase} (h : p.isTerminal) (q : Phase) : p.moveTo q = p := by
  simp [moveTo, advance?, h]

theorem moveTo_of_not_terminal {p : Phase} (h : p.isTerminal = false) (q : Phase) :
    p.moveTo q = q := by
  simp [moveTo, advance?, h]

@[simp] theorem pending_moveTo (q : Phase) : pending.moveTo q = q := rfl
@[simp] theorem loading_moveTo (q : Phase) : loading.moveTo q = q := rfl
@[simp] theorem succeeded_moveTo (q : Phase) : succeeded.moveTo q = succeeded := rfl
@[simp] theorem failed_moveTo (q : Phase) : failed.moveTo q = failed := rfl

theorem moveTo_ne_succeeded {p q : Phase} (hp : p ≠ .succeeded) (hq : q ≠ .succeeded) :
    p.moveTo q ≠ .succeeded := by
  cases ended : p.isTerminal with
  | true => rw [moveTo_of_terminal ended]; exact hp
  | false => rw [moveTo_of_not_terminal ended]; exact hq

theorem moveTo_ne_pending {p q : Phase} (h : q ≠ .pending) : p.moveTo q ≠ .pending := by
  cases ended : p.isTerminal with
  | true =>
    rw [moveTo_of_terminal ended]
    rintro rfl
    cases ended
  | false => rw [moveTo_of_not_terminal ended]; exact h

/-- Only a terminal phase ends a load. -/
theorem isTerminal_moveTo {p q : Phase} (goesOn : q.isTerminal = false) :
    (p.moveTo q).isTerminal = p.isTerminal := by
  cases ended : p.isTerminal with
  | true => rw [moveTo_of_terminal ended, ended]
  | false => rw [moveTo_of_not_terminal ended, goesOn]

end Phase

/-! ## Loaders -/

namespace Loader

variable (l : Loader Model)

theorem ne_pending_of_isLoaded (h : l.isLoaded = true) : l.phase ≠ .pending := by
  intro pending
  simp [isLoaded, pending] at h

theorem isEligible_iff : l.isEligible = true ↔ l.phase = .pending ∧ l.bytes.isSome := by
  simp [isEligible]

theorem giveBytes_of_pending (h : l.phase = .pending) (data : Bytes) :
    l.giveBytes data = { l with bytes := some data } := by
  simp [giveBytes, h]

theorem giveBytes_of_not_pending (h : l.phase ≠ .pending) (data : Bytes) : l.giveBytes data = l := by
  simp [giveBytes, h]

/-- Giving bytes changes nothing but the bytes. -/
theorem giveBytes_eq (data : Bytes) : l.giveBytes data = { l with bytes := (l.giveBytes data).bytes } := by
  unfold giveBytes
  split <;> rfl

theorem start_of_barred (h : l.isLoaded = true ∨ l.started = true) : l.start = none := by
  simp only [start, if_pos h]

/-- A loader either may not be run, or it may. -/
theorem barred_or_free :
    (l.isLoaded = true ∨ l.started = true) ∨ l.isLoaded = false ∧ l.started = false := by
  cases l.isLoaded <;> cases l.started <;> simp

theorem start_of_free (loaded : l.isLoaded = false) (started : l.started = false) :
    l.start = some (l.bytes, { l with started := true, phase := .loading, bytes := none }) := by
  have move : l.phase.moveTo .loading = .loading := Phase.moveTo_of_not_terminal loaded _
  simp [start, loaded, started, move]

end Loader

/-! ## Tasks -/

namespace System

/-- Two systems are the same but for their logs. -/
structure Agrees (s t : System ι Model) : Prop where
  loaders : s.loaders = t.loaders
  tasks : s.tasks = t.tasks
  queue : s.queue = t.queue
  runs : s.runs = t.runs

theorem Agrees.refl (s : System ι Model) : Agrees s s := ⟨rfl, rfl, rfl, rfl⟩

theorem Agrees.trans {s t u : System ι Model} (h : Agrees s t) (k : Agrees t u) : Agrees s u :=
  ⟨h.loaders.trans k.loaders, h.tasks.trans k.tasks, h.queue.trans k.queue, h.runs.trans k.runs⟩

theorem agrees_note (s : System ι Model) (party : Party) (event : Event ι) :
    Agrees (s.note party event) s := ⟨rfl, rfl, rfl, rfl⟩

theorem agrees_notes (s : System ι Model) (records : List Log.Record) :
    Agrees (records.foldl (fun s r => s.note .caller (.note r)) s) s := by
  induction records generalizing s with
  | nil => exact Agrees.refl s
  | cons r records ih => exact (ih _).trans (agrees_note s _ _)

theorem isCompleted_congr {s t : System ι Model} (h : s.tasks = t.tasks) (k : TaskId) :
    s.isCompleted k = t.isCompleted k := by
  simp only [isCompleted, h]

theorem isCompleted_lt {s : System ι Model} {k : TaskId} (h : s.isCompleted k = true) :
    k < s.tasks.length := by
  cases found : s.tasks[k]? with
  | none => simp [isCompleted, found] at h
  | some task => exact (List.getElem?_eq_some_iff.mp found).1

/-- A task that was there before is as much completed as it was when others are added. -/
theorem isCompleted_of_append {s t : System ι Model} {more : List Task}
    (h : t.tasks = s.tasks ++ more) {k : TaskId} (old : k < s.tasks.length) :
    t.isCompleted k = s.isCompleted k := by
  simp [isCompleted, h, List.getElem?_append_left old]

/-- A new task is not completed. -/
theorem isCompleted_newTask_self (s : System ι Model) (name : String) :
    (s.newTask name).2.isCompleted s.tasks.length = false := by
  simp [isCompleted, newTask]

theorem isCompleted_complete (s : System ι Model) {t : TaskId} (h : t < s.tasks.length) (k : TaskId) :
    (s.complete t).isCompleted k = (decide (k = t) || s.isCompleted k) := by
  by_cases same : k = t
  · subst same
    simp [isCompleted, complete, Task.complete, List.getElem?_eq_getElem h]
  · have other : ¬t = k := fun eq => same eq.symm
    simp [isCompleted, complete, same, other]

@[simp] theorem length_tasks_complete (s : System ι Model) (t : TaskId) :
    (s.complete t).tasks.length = s.tasks.length := by
  simp [complete]

@[simp] theorem loaders_completeOf (s : System ι Model) (t : Option TaskId) :
    (s.completeOf t).loaders = s.loaders := by
  cases t <;> rfl

@[simp] theorem queue_completeOf (s : System ι Model) (t : Option TaskId) :
    (s.completeOf t).queue = s.queue := by
  cases t <;> rfl

@[simp] theorem runs_completeOf (s : System ι Model) (t : Option TaskId) :
    (s.completeOf t).runs = s.runs := by
  cases t <;> rfl

end System

/-! ## Looking up bytes -/

/-- The content of the one resource that the name of a bytes file selects. -/
def contentOf (source : Resource.Source) (m : Resource.Matching) (file : String) :
    Except Error Bytes :=
  match source.find file m with
  | .error e => .error e
  | .ok name => source.read name

/-- A lookup that fails means that bytes could not be acquired. -/
theorem isAcquisition_of_contentOf {source : Resource.Source} {m : Resource.Matching}
    {file : String} {e : Error} (h : contentOf source m file = .error e) : e.isAcquisition := by
  unfold contentOf Resource.Source.find at h
  split at h
  · rename_i found
    split at found <;> cases found <;> cases h <;> rfl
  · unfold Resource.Source.read at h
    split at h <;> cases h <;> rfl

/-- What becomes of a loader when bytes are acquired for all. -/
def Loader.acquired (settings : Settings) (source : Resource.Source) (l : Loader Model) :
    Loader Model :=
  if l.phase ≠ .pending ∨ l.bytes.isSome then l
  else
    match contentOf source settings.matching l.file with
    | .ok data => l.giveBytes data
    | .error e => if settings.missing = .fail then l.fail e.message else l

theorem Loader.acquired_of_barred {settings : Settings} {source : Resource.Source}
    {l : Loader Model} (h : l.phase ≠ .pending ∨ l.bytes.isSome) :
    l.acquired settings source = l := by
  simp only [acquired, if_pos h]

theorem Loader.acquired_of_ok {settings : Settings} {source : Resource.Source} {l : Loader Model}
    {data : Bytes} (free : ¬(l.phase ≠ .pending ∨ l.bytes.isSome))
    (found : contentOf source settings.matching l.file = .ok data) :
    l.acquired settings source = l.giveBytes data := by
  simp only [acquired, if_neg free, found]

theorem Loader.acquired_of_error {settings : Settings} {source : Resource.Source}
    {l : Loader Model} {e : Error} (free : ¬(l.phase ≠ .pending ∨ l.bytes.isSome))
    (found : contentOf source settings.matching l.file = .error e) :
    l.acquired settings source = if settings.missing = .fail then l.fail e.message else l := by
  simp only [acquired, if_neg free, found]

/-- Acquiring bytes a second time changes nothing. -/
theorem Loader.acquired_acquired (settings : Settings) (source : Resource.Source)
    (l : Loader Model) :
    (l.acquired settings source).acquired settings source = l.acquired settings source := by
  by_cases barred : l.phase ≠ .pending ∨ l.bytes.isSome
  · rw [acquired_of_barred barred, acquired_of_barred barred]
  · have pending : l.phase = .pending := by
      simp only [ne_eq, not_or, Decidable.not_not] at barred; exact barred.1
    cases found : contentOf source settings.matching l.file with
    | ok data =>
      rw [acquired_of_ok barred found, giveBytes_of_pending l pending]
      exact acquired_of_barred (Or.inr rfl)
    | error e =>
      have new := acquired_of_error barred found
      by_cases policy : settings.missing = .fail
      · rw [if_pos policy] at new
        have failed : (l.fail e.message).phase = .failed := by simp [fail, pending]
        rw [new]
        exact acquired_of_barred (Or.inl (by simp [failed]))
      · rw [if_neg policy] at new
        rw [new, new]

/-! ## Systems -/

namespace System

variable [DecidableEq ι] (s : System ι Model) (i : ι)

@[simp] theorem update_self (f : Loader Model → Loader Model) :
    (s.update i f).loaders i = f (s.loaders i) := by
  simp [update]

theorem update_of_ne {i j : ι} (h : j ≠ i) (f : Loader Model → Loader Model) :
    (s.update i f).loaders j = s.loaders j := by
  simp [update, h]

theorem loaders_update (f : Loader Model → Loader Model) (j : ι) :
    (s.update i f).loaders j = if j = i then f (s.loaders j) else s.loaders j := by
  by_cases h : j = i
  · subst h; simp
  · simp [update_of_ne s h, h]

theorem update_congr {f g : Loader Model → Loader Model} (h : f (s.loaders i) = g (s.loaders i)) :
    s.update i f = s.update i g := by
  simp only [update, h]

/-- An update that changes nothing. -/
theorem update_eq_self {f : Loader Model → Loader Model} (h : f (s.loaders i) = s.loaders i) :
    s.update i f = s := by
  have same : (fun j => if j = i then f (s.loaders i) else s.loaders j) = s.loaders := by
    funext j
    split
    · rename_i eq; rw [eq, h]
    · rfl
  simp only [update, same]

theorem Agrees.update {s t : System ι Model} (h : Agrees s t) (i : ι)
    (f : Loader Model → Loader Model) : Agrees (s.update i f) (t.update i f) :=
  ⟨funext fun j => by simp only [System.update, h.loaders], h.tasks, h.queue, h.runs⟩

theorem agrees_giveBytes (data : Bytes) :
    Agrees (s.giveBytes i data) (s.update i (·.giveBytes data)) := by
  unfold giveBytes
  split
  · exact Agrees.refl _
  · rename_i h
    rw [update_eq_self s i (f := (·.giveBytes data)) (Loader.giveBytes_of_not_pending _ h data)]
    exact agrees_note s _ _

/-- Acquiring the bytes of a loader gives it the content of its resource; without a content it
fails, and nothing changes. -/
theorem acquire_cases (source : Resource.Source) (m : Resource.Matching) :
    (∃ data, contentOf source m (s.loaders i).file = .ok data ∧
      (s.acquire i source m).1 = .ok data.length ∧
      Agrees (s.acquire i source m).2 (s.update i (·.giveBytes data))) ∨
    (∃ e, contentOf source m (s.loaders i).file = .error e ∧
      (s.acquire i source m).1 = .error e ∧ Agrees (s.acquire i source m).2 s) := by
  have notes := agrees_notes s source.notes
  simp only [acquire, contentOf, notes.loaders]
  generalize source.notes.foldl (fun s r => s.note .caller (.note r)) s = noted at notes ⊢
  cases found : source.find (s.loaders i).file m with
  | error e => exact Or.inr ⟨e, rfl, rfl, notes⟩
  | ok name =>
    dsimp only
    cases got : source.read name with
    | error e => exact Or.inr ⟨e, rfl, rfl, notes⟩
    | ok data =>
      refine Or.inl ⟨data, rfl, rfl, ?_⟩
      have given := agrees_giveBytes (noted.note .caller (.acquired i data.length name)) i data
      exact given.trans (((agrees_note noted _ _).trans notes).update i _)

theorem agrees_acquireOne (settings : Settings) (source : Resource.Source) :
    Agrees (Registry.acquireOne settings source s i).2
      (s.update i (·.acquired settings source)) := by
  by_cases barred : (s.loaders i).phase ≠ .pending ∨ (s.loaders i).bytes.isSome
  · rw [update_eq_self s i (Loader.acquired_of_barred barred)]
    simp only [Registry.acquireOne, if_pos barred]
    exact Agrees.refl s
  · have acquired := s.acquire_cases i source settings.matching
    simp only [Registry.acquireOne, if_neg barred]
    generalize s.acquire i source settings.matching = x at acquired ⊢
    obtain ⟨result, t⟩ := x
    rcases acquired with ⟨data, found, rfl, agrees⟩ | ⟨e, found, rfl, agrees⟩
    · rw [s.update_congr i (Loader.acquired_of_ok barred found)]
      exact agrees
    · have becomes := Loader.acquired_of_error barred found
      have noted := (agrees_note t .caller (.missing i e)).trans agrees
      simp only [isAcquisition_of_contentOf found, if_true]
      by_cases policy : settings.missing = .fail
      · rw [if_pos policy] at becomes
        rw [s.update_congr i (g := (·.fail e.message)) becomes]
        simp only [policy, if_true]
        exact noted.update i _
      · rw [if_neg policy] at becomes
        rw [update_eq_self s i becomes]
        simp only [if_neg policy]
        exact noted

/-- Acquiring the bytes of loaders one after another changes each of them on its own. -/
theorem agrees_acquireEach (settings : Settings) (source : Resource.Source) (is : List ι) :
    Agrees (Registry.acquireEach settings source is s).2
      { s with
        loaders := fun j =>
          if j ∈ is then (s.loaders j).acquired settings source else s.loaders j } := by
  induction is generalizing s with
  | nil => simpa [Registry.acquireEach] using Agrees.refl s
  | cons i is ih =>
    have one := agrees_acquireOne s i settings source
    have rest := ih (Registry.acquireOne settings source s i).2
    refine rest.trans ⟨funext fun j => ?_, one.tasks, one.queue, one.runs⟩
    simp only [one.loaders, loaders_update]
    by_cases first : j = i
    · subst first
      by_cases again : j ∈ is <;> simp [again, Loader.acquired_acquired]
    · simp [first]

theorem agrees_acquireAll (r : Registry ι) (source : Resource.Source) :
    Agrees (r.acquireAll source s).2
      { s with
        loaders := fun j =>
          if j ∈ r.entries then (s.loaders j).acquired r.settings source else s.loaders j } :=
  agrees_acquireEach s r.settings source r.entries

/-! ### Runs -/

/-- The run that starts on a loader, on the worker of a task or for a caller. -/
def runOf (task : Option TaskId) : Run ι := ⟨i, (s.loaders i).bytes, task⟩

theorem start_of_barred (h : (s.loaders i).isLoaded = true ∨ (s.loaders i).started = true)
    (task : Option TaskId) :
    (s.start i task).1 = none ∧ Agrees (s.start i task).2 (s.completeOf task) := by
  have barred := Loader.start_of_barred _ h
  cases task with
  | none => simp only [start, barred]; exact ⟨trivial, agrees_note s _ _⟩
  | some t => simp only [start, barred]; exact ⟨trivial, ⟨rfl, rfl, rfl, rfl⟩⟩

theorem start_of_free (loaded : (s.loaders i).isLoaded = false)
    (started : (s.loaders i).started = false) (task : Option TaskId) :
    s.start i task = (some (s.runOf i task),
      { s.update i (fun l => { l with started := true, phase := .loading, bytes := none }) with
        runs := s.runs ++ [s.runOf i task] }) := by
  simp only [start, Loader.start_of_free _ loaded started, runOf, update]

/-- A caller's run that does not start ends nothing. -/
theorem load_of_unstarted (h : (s.start i none).1 = none) : s.load i = (s.start i none).2 := by
  unfold load
  generalize s.start i none = x at h ⊢
  obtain ⟨result, t⟩ := x
  subst h
  rfl

/-- A caller's run of a loader that may not be run. -/
theorem load_of_barred (h : (s.loaders i).isLoaded = true ∨ (s.loaders i).started = true) :
    Agrees (s.load i) s := by
  obtain ⟨unstarted, agrees⟩ := s.start_of_barred i h none
  rw [s.load_of_unstarted i unstarted]
  exact agrees

/-- A caller's run of a loader that may be run. -/
theorem load_of_free (loaded : (s.loaders i).isLoaded = false)
    (started : (s.loaders i).started = false) :
    s.load i = finish (s.start i none).2 (s.runOf i none) := by
  simp only [load, s.start_of_free i loaded started none]

/-- A worker finds its load done: its task is completed. -/
theorem work_of_barred (k : Work ι)
    (h : (s.loaders k.loader).isLoaded = true ∨ (s.loaders k.loader).started = true) :
    Agrees (s.work k).2 { s.complete k.task with queue := s.queue.erase k } :=
  (start_of_barred { s with queue := s.queue.erase k } k.loader h (some k.task)).2.trans
    ⟨rfl, rfl, rfl, rfl⟩

/-- A worker starts on its load. -/
theorem work_of_free (k : Work ι) (loaded : (s.loaders k.loader).isLoaded = false)
    (started : (s.loaders k.loader).started = false) :
    Agrees (s.work k).2
      { s.update k.loader (fun l => { l with started := true, phase := .loading, bytes := none }) with
        queue := s.queue.erase k
        runs := s.runs ++ [s.runOf k.loader (some k.task)] } := by
  have free := start_of_free { s with queue := s.queue.erase k } k.loader loaded started (some k.task)
  rw [work, free]
  exact ⟨rfl, rfl, rfl, rfl⟩

/-- A worker that finds its load done has nothing to end. -/
theorem workToEnd_of_barred (k : Work ι)
    (h : (s.loaders k.loader).isLoaded = true ∨ (s.loaders k.loader).started = true) :
    s.workToEnd k = (s.work k).2 := by
  have unstarted : (s.work k).1 = none :=
    (start_of_barred { s with queue := s.queue.erase k } k.loader h (some k.task)).1
  unfold workToEnd
  generalize s.work k = x at unstarted ⊢
  obtain ⟨result, t⟩ := x
  subst unstarted
  rfl

/-- A worker that starts on its load ends the run it started. -/
theorem workToEnd_of_free (k : Work ι) (loaded : (s.loaders k.loader).isLoaded = false)
    (started : (s.loaders k.loader).started = false) :
    s.workToEnd k = (s.work k).2.finish (s.runOf k.loader (some k.task)) := by
  have free := start_of_free { s with queue := s.queue.erase k } k.loader loaded started (some k.task)
  simp only [workToEnd, work, free]
  rfl

theorem tasks_start_none : (s.start i none).2.tasks = s.tasks := by
  rcases (s.loaders i).barred_or_free with barred | ⟨loaded, started⟩
  · exact (s.start_of_barred i barred none).2.tasks
  · rw [s.start_of_free i loaded started none]; rfl

theorem agrees_finish (r : Run ι) :
    Agrees (s.finish r)
      { (s.update r.loader fun l => l.finish (l.outcome r.taken)).completeOf r.task with
        runs := s.runs.erase r } := by
  have same : s.update r.loader (·.finish ((s.loaders r.loader).outcome r.taken)) =
      s.update r.loader fun l => l.finish (l.outcome r.taken) := rfl
  cases task : r.task with
  | none => simp only [finish, task, same]; exact ⟨rfl, rfl, rfl, rfl⟩
  | some t => simp only [finish, task, same]; exact ⟨rfl, rfl, rfl, rfl⟩

theorem loaders_finish (r : Run ι) (j : ι) :
    (s.finish r).loaders j =
      if j = r.loader then (s.loaders j).finish ((s.loaders j).outcome r.taken)
      else s.loaders j := by
  rw [(s.agrees_finish r).loaders]
  simp only [loaders_completeOf, loaders_update]

end System

/-- What becomes of a loader when a caller runs it from start to end. -/
def Loader.ran (l : Loader Model) : Loader Model :=
  if l.isLoaded ∨ l.started then l
  else { l with started := true, phase := .loading, bytes := none }.finish (l.outcome l.bytes)

namespace System

variable [DecidableEq ι] (s : System ι Model) (i : ι)

/-- A caller's own run leaves the runs that were in progress before. -/
theorem agrees_load (h : s.runOf i none ∉ s.runs) :
    Agrees (s.load i) (s.update i Loader.ran) := by
  rcases (s.loaders i).barred_or_free with barred | ⟨loaded, started⟩
  · rw [update_eq_self s i (by simp only [Loader.ran, if_pos barred])]
    exact s.load_of_barred i barred
  · have ran : (s.loaders i).ran = _ := if_neg (by simp [loaded, started])
    rw [s.load_of_free i loaded started, s.start_of_free i loaded started none]
    refine (agrees_finish _ _).trans ⟨funext fun j => ?_, rfl, rfl, ?_⟩
    · simp only [runOf, completeOf, loaders_update]
      split
      · rename_i same; subst same; simp [ran, Loader.outcome]
      · rfl
    · simp only [runOf, update] at h ⊢
      simp [List.erase_append_right _ h]

theorem tasks_load : (s.load i).tasks = s.tasks := by
  rcases (s.loaders i).barred_or_free with barred | ⟨loaded, started⟩
  · exact (s.load_of_barred i barred).tasks
  · rw [s.load_of_free i loaded started, (agrees_finish _ _).tasks]
    exact s.tasks_start_none i

/-! ### Dispatch -/

theorem agrees_dispatch :
    Agrees (s.dispatch i).2
      { s.update i (·.assign s.tasks.length) with
        tasks := s.tasks ++ [{ name := (s.loaders i).name }]
        queue := s.queue ++ [⟨i, s.tasks.length⟩] } := ⟨rfl, rfl, rfl, rfl⟩

/-- A refused dispatch leaves a completed task behind. -/
theorem agrees_refuse (cause : Files.IoError) :
    Agrees (s.refuse i cause)
      { s.update i (fun l => (l.assign s.tasks.length).unassign) with
        tasks := s.tasks ++ [{ name := (s.loaders i).name, completed := true }] } := by
  refine ⟨funext fun j => ?_, ?_, rfl, rfl⟩
  · simp only [refuse, unassign, assign, newTask, loaders_update]
    by_cases same : j = i <;> simp [same, complete, note, update]
  · simp only [refuse, unassign, assign, newTask, complete, note, update]
    rw [List.modify_eq_take_cons_drop (by simp)]
    simp [Task.complete]

end System

/-! ## Registration -/

/-- Registering a loader puts it at the end, if it is in conflict with no loader before it. -/
theorem register_cases [DecidableEq ι] (r : Registry ι) (s : System ι Model) (i : ι) :
    (∃ e, r.register s i = .error e) ∨
    (∀ j ∈ r.entries,
      Registry.conflict? r.settings.matching (s.loaders j) (s.loaders i) = none) ∧
    r.register s i = .ok ({ r with entries := r.entries ++ [i] }, s.note .caller (.registered i)) := by
  unfold Registry.register
  split
  · rename_i e found
    exact Or.inl ⟨e, rfl⟩
  · rename_i found
    exact Or.inr ⟨List.findSome?_eq_none_iff.mp found, rfl⟩

/-! ## Ticks -/

section Ticks

theorem isBusy_eq_false_iff {c : Scheduler} {s : System ι Model} :
    c.isBusy s = false ↔ ∀ t, c.current = some t → s.isCompleted t = true := by
  cases h : c.current <;> simp [Scheduler.isBusy, h]

theorem mem_entries_of_next? {r : Registry ι} {s : System ι Model} {i : ι}
    (h : r.next? s = some i) : i ∈ r.entries := List.mem_of_find?_eq_some h

theorem eligible_of_next? {r : Registry ι} {s : System ι Model} {i : ι}
    (h : r.next? s = some i) : (s.loaders i).phase = .pending ∧ (s.loaders i).bytes.isSome := by
  have eligible := List.find?_some h
  exact (Loader.isEligible_iff _).mp eligible

theorem next?_eq_none_iff {r : Registry ι} {s : System ι Model} : r.next? s = none ↔
    ∀ i ∈ r.entries, (s.loaders i).phase = .pending → (s.loaders i).bytes = none := by
  simp [Registry.next?, Loader.isEligible]

theorem pendingCount_eq_zero_iff {r : Registry ι} {s : System ι Model} :
    r.pendingCount s = 0 ↔ ∀ i ∈ r.entries, (s.loaders i).isLoaded = true := by
  simp [Registry.pendingCount, List.countP_eq_zero]

variable [DecidableEq ι]

/-- What a tick answers and leaves behind, case by case, in the order in which it checks. -/
inductive TickRule (c : Scheduler) (refusal : Option Files.IoError) (r : Registry ι)
    (s : System ι Model) : Tick ι × Scheduler × System ι Model → Prop
  | idle (flag : c.allLoaded = true) (once : c.settings.recheck = false) :
      TickRule c refusal r s (.idle, c, s)
  | busy (looks : c.allLoaded = true → c.settings.recheck = true) (busy : c.isBusy s = true) :
      TickRule c refusal r s (.busy, c, s)
  | dispatched (looks : c.allLoaded = true → c.settings.recheck = true)
      (free : c.isBusy s = false) (i : ι) (next : r.next? s = some i) (starts : refusal = none) :
      TickRule c refusal r s (.dispatched i,
        { c with current := some s.tasks.length, dispatched := c.dispatched + 1 }, (s.dispatch i).2)
  | refused (looks : c.allLoaded = true → c.settings.recheck = true)
      (free : c.isBusy s = false) (i : ι) (next : r.next? s = some i) (cause : Files.IoError)
      (refuses : refusal = some cause) : TickRule c refusal r s (.busy, c, s.refuse i cause)
  | allLoaded (looks : c.allLoaded = true → c.settings.recheck = true)
      (free : c.isBusy s = false) (next : r.next? s = none) (ended : r.pendingCount s = 0)
      (t : System ι Model) (agrees : t.Agrees s) :
      TickRule c refusal r s (.allLoaded, { c with allLoaded := true }, t)
  | stalled (looks : c.allLoaded = true → c.settings.recheck = true)
      (free : c.isBusy s = false) (next : r.next? s = none) (some : r.pendingCount s ≠ 0) :
      TickRule c refusal r s (.stalled (r.pendingCount s), c, s)

theorem tickRule (c : Scheduler) (refusal : Option Files.IoError) (r : Registry ι)
    (s : System ι Model) : TickRule c refusal r s (c.tick refusal r s) := by
  unfold Scheduler.tick
  split
  · rename_i h
    exact .idle h.1 (by simpa using h.2)
  · rename_i notIdle
    have looks : c.allLoaded = true → c.settings.recheck = true := by simpa using notIdle
    split
    · rename_i busy
      exact .busy looks busy
    · rename_i notBusy
      have free : c.isBusy s = false := by simpa using notBusy
      split
      · rename_i i next
        split
        · exact .dispatched looks free i next rfl
        · exact .refused looks free i next _ rfl
      · rename_i next
        split
        · rename_i ended
          refine .allLoaded looks free next ended _ ?_
          split
          · exact System.Agrees.refl s
          · exact System.agrees_note s _ _
        · rename_i n some
          exact .stalled looks free next some

end Ticks

end ModelLoading.Loading
