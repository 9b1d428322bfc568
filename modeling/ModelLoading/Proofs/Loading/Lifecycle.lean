import ModelLoading.Proofs.Loading.Stages

/-!
# The life of a loader

In ordinary use nobody but the scheduler and its workers touches tasks, and no loader fails from
outside. Then the fields of every loader fit together at every moment (`System.Consistent`); wherever
a worker has started, being in flight and loading are the same (`System.InStep`); and the scheduler's
count is the number of loaders that have a task (`Ledger`).
-/

namespace ModelLoading.Loading

variable {ι Model : Type}

/-! ## Ordinary use -/

/-- The actions that leave tasks to the scheduler and to workers, and make no loader fail from
outside. A caller's run is one step. -/
def Action.Ordinary : Action ι → Prop
  | .register _ | .giveBytes .. | .acquire .. | .acquireAll _ | .load _ | .tick _ | .ask _ |
    .work _ | .finish _ => True
  | _ => False

instance Action.decidableOrdinary : ∀ a : Action ι, Decidable a.Ordinary
  | .register _ | .giveBytes .. | .acquire .. | .acquireAll _ | .load _ | .tick _ | .ask _ |
    .work _ | .finish _ => .isTrue trivial
  | .start _ | .fail .. | .newTask _ | .assign .. | .unassign _ | .complete _ => .isFalse id

section Use

variable [DecidableEq ι] {w : World ι Model} {a : Action ι}

/-- What callers and workers do where loaders are only loaded. -/
def OrdinaryUse (w : World ι Model) (a : Action ι) : Prop := a.Possible w ∧ a.Ordinary

instance (w : World ι Model) (a : Action ι) : Decidable (OrdinaryUse w a) :=
  inferInstanceAs (Decidable (_ ∧ _))

/-- In ordinary use nobody completes a task but its worker. -/
theorem OrdinaryUse.unmeddled (may : OrdinaryUse w a) : Unmeddled w a := by
  obtain ⟨possible, ordinary⟩ := may
  refine ⟨possible, fun t _ completes => ?_⟩
  cases a with
  | complete t => exact ordinary
  | _ => exact completes

/-- What callers do besides ticks: workers and tasks are as they were, and loaders are kept. -/
structure Calm (w v : World ι Model) : Prop where
  scheduler : v.scheduler = w.scheduler
  tasks : v.system.tasks = w.system.tasks
  queue : v.system.queue = w.system.queue
  runs : v.system.runs = w.system.runs
  loaders : ∀ i, (w.system.loaders i).Keeps (v.system.loaders i)

omit [DecidableEq ι] in
theorem Calm.of_agrees {s : System ι Model} {r : Registry ι} (agrees : s.Agrees w.system) :
    Calm w { w with system := s, registry := r } :=
  ⟨rfl, agrees.tasks, agrees.queue, agrees.runs, fun i => by
    dsimp only
    rw [agrees.loaders]; exact Loader.Keeps.refl _⟩

theorem Calm.of_update {s : System ι Model} {i : ι} {f : Loader Model → Loader Model}
    (agrees : s.Agrees (w.system.update i f))
    (keeps : (w.system.loaders i).Keeps (f (w.system.loaders i))) : Calm w { w with system := s } := by
  refine ⟨rfl, agrees.tasks, agrees.queue, agrees.runs, fun j => ?_⟩
  dsimp only
  rw [agrees.loaders, w.system.loaders_update]
  split
  · rename_i same; subst same; exact keeps
  · exact Loader.Keeps.refl _

/-- A step of ordinary use is calm, a tick, or a step of a worker. -/
theorem calm_perform (may : OrdinaryUse w a) (stage : Stage w.system) :
    Calm w (w.perform a) ∨ (∃ refusal, a = .tick refusal) ∨ (∃ k ∈ w.system.queue, a = .work k) ∨
      ∃ r ∈ w.system.runs, a = .finish r := by
  obtain ⟨possible, ordinary⟩ := may
  cases a with
  | register i =>
    simp only [World.perform]
    rcases register_cases w.registry w.system i with ⟨e, refused⟩ | ⟨-, accepted⟩
    · rw [refused]; exact Or.inl (.of_agrees (System.Agrees.refl _))
    · rw [accepted]; exact Or.inl (.of_agrees (w.system.agrees_note _ _))
  | giveBytes i data =>
    exact Or.inl (.of_update (w.system.agrees_giveBytes i data) (Loader.keeps_giveBytes _ data))
  | acquire i source m =>
    rcases w.system.acquire_cases i source m with ⟨data, -, -, agrees⟩ | ⟨e, -, -, agrees⟩
    · exact Or.inl (.of_update agrees (Loader.keeps_giveBytes _ data))
    · exact Or.inl (.of_agrees agrees)
  | acquireAll source =>
    have agrees := w.system.agrees_acquireAll w.registry source
    refine Or.inl ⟨rfl, agrees.tasks, agrees.queue, agrees.runs, fun i => ?_⟩
    simp only [World.perform, agrees.loaders]
    split
    · exact Loader.keeps_acquired _ source _
    · exact Loader.Keeps.refl _
  | load i =>
    have other : w.system.runOf i none ∉ w.system.runs := by
      intro inside
      have task := stage.task_of_mem_runs inside
      cases task
    exact Or.inl (.of_update (w.system.agrees_load i other) (Loader.keeps_ran _))
  | ask i => exact Or.inl (.of_agrees (System.Agrees.refl _))
  | tick refusal => exact Or.inr (Or.inl ⟨refusal, rfl⟩)
  | work k => exact Or.inr (Or.inr (Or.inl ⟨k, possible, rfl⟩))
  | finish r => exact Or.inr (Or.inr (Or.inr ⟨r, possible, rfl⟩))
  | _ => exact ordinary.elim

/-- The stages follow one another in ordinary use. -/
theorem Stage.perform (may : OrdinaryUse w a) (tracked : Tracked w) (stage : Stage w.system) :
    Stage (w.perform a).system := by
  rcases calm_perform may stage with calm | ⟨refusal, rfl⟩ | ⟨k, hk, rfl⟩ | ⟨r, hr, rfl⟩
  · refine stage.keep calm.queue calm.runs (fun t ht => ?_) calm.loaders
    rw [System.isCompleted_congr calm.tasks]; exact ht
  · have rule := tickRule w.scheduler refusal w.registry w.system
    simp only [World.perform]
    generalize w.scheduler.tick refusal w.registry w.system = x at rule ⊢
    cases rule with
    | idle flag once => exact stage
    | busy looks busy => exact stage
    | dispatched looks free i next starts =>
      obtain ⟨phase, bytes⟩ := eligible_of_next? next
      exact stage.dispatch (tracked.flights_eq_nil free) phase bytes
    | refused looks free i next cause refuses =>
      have agrees := w.system.agrees_refuse i cause
      have same := stage.loaders_refuse (tracked.flights_eq_nil free) (eligible_of_next? next).1 cause
      refine stage.keep agrees.queue agrees.runs (fun t ht => ?_) fun j => ?_
      · rw [System.isCompleted_of_append agrees.tasks (System.isCompleted_lt ht)]; exact ht
      · rw [same]; exact Loader.Keeps.refl _
    | allLoaded looks free next ended t agrees =>
      refine stage.keep agrees.queue agrees.runs (fun t ht => ?_) fun j => ?_
      · rw [System.isCompleted_congr agrees.tasks]; exact ht
      · rw [agrees.loaders]; exact Loader.Keeps.refl _
    | stalled looks free next some => exact stage
  · refine stage.work hk (tracked.of_mem ?_).1
    exact List.mem_append_left _ (List.mem_map_of_mem hk)
  · refine stage.finish hr fun t ht => (tracked.of_mem ?_).1
    exact List.mem_append_right _ (List.mem_filterMap.mpr ⟨r, hr, ht⟩)

end Use

/-! ## The scheduler's count -/

/-- The registered loaders are distinct, every loader that has a task is one of them, and the
scheduler has counted those that have one. -/
structure Ledger (w : World ι Model) : Prop where
  distinct : w.registry.entries.Nodup
  registered : ∀ i, (w.system.loaders i).task.isSome → i ∈ w.registry.entries
  count : w.scheduler.dispatched =
    w.registry.entries.countP fun i => (w.system.loaders i).task.isSome

/-- A loader with a name that is taken is in conflict with the loader that has it. -/
theorem not_mem_of_no_conflict {m : Resource.Matching} {s : System ι Model} {entries : List ι} {i : ι}
    (free : ∀ j ∈ entries, Registry.conflict? m (s.loaders j) (s.loaders i) = none) : i ∉ entries := by
  intro inside
  have conflict := free i inside
  simp [Registry.conflict?] at conflict

section Count

variable [DecidableEq ι]

/-- One member of a list more has the property. -/
theorem countP_of_one_more {l : List ι} {p q : ι → Bool} {i : ι} (distinct : l.Nodup) (inside : i ∈ l)
    (before : p i = false) (after : q i = true) (others : ∀ j, j ≠ i → q j = p j) :
    l.countP q = l.countP p + 1 := by
  have split := List.perm_cons_erase inside
  have rest : (l.erase i).countP q = (l.erase i).countP p := by
    refine List.countP_congr fun j hj => ?_
    rw [others j fun same => ?_]
    subst same
    exact distinct.not_mem_erase hj
  rw [split.countP_eq q, split.countP_eq p, List.countP_cons_of_pos after,
    List.countP_cons_of_neg (by simp [before]), rest]

variable {w v : World ι Model} {a : Action ι}

theorem task_work (s : System ι Model) (k : Work ι) (i : ι) :
    ((s.work k).2.loaders i).task = (s.loaders i).task := by
  rcases (s.loaders k.loader).barred_or_free with barred | ⟨loaded, started⟩
  · rw [(s.work_of_barred k barred).loaders]; rfl
  · rw [(s.work_of_free k loaded started).loaders]
    simp only [System.loaders_update]
    split <;> rfl

theorem queue_work (s : System ι Model) (k : Work ι) : (s.work k).2.queue = s.queue.erase k := by
  rcases (s.loaders k.loader).barred_or_free with barred | ⟨loaded, started⟩
  · exact (s.work_of_barred k barred).queue
  · exact (s.work_of_free k loaded started).queue

theorem task_finish (s : System ι Model) (r : Run ι) (i : ι) :
    ((s.finish r).loaders i).task = (s.loaders i).task := by
  rw [s.loaders_finish]
  split
  · cases (s.loaders i).outcome r.taken <;> rfl
  · rfl

namespace Ledger

omit [DecidableEq ι] in
theorem keep (ledger : Ledger w) (entries : v.registry.entries = w.registry.entries)
    (dispatched : v.scheduler.dispatched = w.scheduler.dispatched)
    (task : ∀ i, (v.system.loaders i).task = (w.system.loaders i).task) : Ledger v := by
  refine ⟨entries ▸ ledger.distinct, fun i hi => ?_, ?_⟩
  · rw [entries]; rw [task i] at hi; exact ledger.registered i hi
  · simp only [entries, dispatched, task]; exact ledger.count

omit [DecidableEq ι] in
/-- A new entry has no task. -/
theorem register (ledger : Ledger w) {i : ι} (new : i ∉ w.registry.entries)
    (entries : v.registry.entries = w.registry.entries ++ [i])
    (dispatched : v.scheduler.dispatched = w.scheduler.dispatched)
    (loaders : v.system.loaders = w.system.loaders) : Ledger v := by
  have none : (w.system.loaders i).task.isSome = false := by
    cases found : (w.system.loaders i).task.isSome with
    | false => rfl
    | true => exact absurd (ledger.registered i found) new
  refine ⟨?_, fun j hj => ?_, ?_⟩
  · rw [entries]
    refine List.nodup_append.mpr ⟨ledger.distinct, by simp, fun x hx y hy same => ?_⟩
    rw [List.mem_singleton.mp hy] at same
    exact new (same ▸ hx)
  · rw [entries]; rw [loaders] at hj
    exact List.mem_append_left _ (ledger.registered j hj)
  · rw [dispatched, entries, loaders, ledger.count]
    simp [none]

/-- A dispatch gives a task to one entry that had none. -/
theorem dispatch (ledger : Ledger w) {i : ι} (inside : i ∈ w.registry.entries)
    (none : (w.system.loaders i).task = .none) (entries : v.registry.entries = w.registry.entries)
    (dispatched : v.scheduler.dispatched = w.scheduler.dispatched + 1)
    (loaders : v.system.loaders = (w.system.dispatch i).2.loaders) : Ledger v := by
  have agrees := w.system.agrees_dispatch i
  have one : ((v.system.loaders i).task.isSome) = true := by
    rw [loaders, agrees.loaders]
    simp only [System.update_self]; rfl
  have others : ∀ j, j ≠ i → v.system.loaders j = w.system.loaders j := by
    intro j hj
    rw [loaders, agrees.loaders]
    exact w.system.update_of_ne hj (·.assign w.system.tasks.length)
  refine ⟨entries ▸ ledger.distinct, fun j hj => ?_, ?_⟩
  · rw [entries]
    by_cases same : j = i
    · exact same ▸ inside
    · rw [others j same] at hj; exact ledger.registered j hj
  · rw [dispatched, entries, ledger.count]
    refine (countP_of_one_more ledger.distinct inside ?_ one fun j hj => ?_).symm
    · simp [none]
    · rw [others j hj]

/-- The scheduler keeps its count in ordinary use. -/
theorem perform (may : OrdinaryUse w a) (tracked : Tracked w) (stage : Stage w.system)
    (ledger : Ledger w) : Ledger (w.perform a) := by
  by_cases registers : ∃ i, a = .register i
  · obtain ⟨i, rfl⟩ := registers
    simp only [World.perform]
    rcases register_cases w.registry w.system i with ⟨e, refused⟩ | ⟨free, accepted⟩
    · rw [refused]; exact ledger
    · rw [accepted]; exact ledger.register (not_mem_of_no_conflict free) rfl rfl rfl
  have entries : (w.perform a).registry.entries = w.registry.entries := by
    cases a with
    | register i => exact absurd ⟨i, rfl⟩ registers
    | _ => rfl
  rcases calm_perform may stage with calm | ⟨refusal, rfl⟩ | ⟨k, hk, rfl⟩ | ⟨r, hr, rfl⟩
  · exact ledger.keep entries (by rw [calm.scheduler]) fun i => (calm.loaders i).task
  · have rule := tickRule w.scheduler refusal w.registry w.system
    simp only [World.perform]
    generalize w.scheduler.tick refusal w.registry w.system = x at rule ⊢
    cases rule with
    | idle flag once => exact ledger.keep rfl rfl fun i => rfl
    | busy looks busy => exact ledger.keep rfl rfl fun i => rfl
    | dispatched looks free i next starts =>
      obtain ⟨-, -, all⟩ := stage.grounded (tracked.flights_eq_nil free)
      obtain ⟨-, none, -, -⟩ := (all i).1.of_pending (eligible_of_next? next).1
      exact ledger.dispatch (mem_entries_of_next? next) none rfl rfl rfl
    | refused looks free i next cause refuses =>
      have same := stage.loaders_refuse (tracked.flights_eq_nil free) (eligible_of_next? next).1 cause
      exact ledger.keep rfl rfl fun j => by dsimp only; rw [same]
    | allLoaded looks free next ended t agrees =>
      exact ledger.keep rfl rfl fun j => by dsimp only; rw [agrees.loaders]
    | stalled looks free next some => exact ledger.keep rfl rfl fun i => rfl
  · exact ledger.keep rfl rfl fun i => task_work w.system k i
  · exact ledger.keep rfl rfl fun i => task_finish w.system r i

end Ledger

/-- The invariant of ordinary use. -/
structure Orderly (w : World ι Model) : Prop where
  tracked : Tracked w
  stage : Stage w.system
  ledger : Ledger w

theorem Orderly.perform (may : OrdinaryUse w a) (orderly : Orderly w) : Orderly (w.perform a) :=
  ⟨orderly.tracked.perform may.unmeddled, orderly.stage.perform may orderly.tracked,
    orderly.ledger.perform may orderly.tracked orderly.stage⟩

omit [DecidableEq ι] in
theorem orderly_of_fresh (fresh : w.Fresh) : Orderly w := by
  refine ⟨.resting ?_ ?_, .rest fresh.queue fresh.runs fun i => ⟨?_, ?_⟩, ⟨?_, fun i hi => ?_, ?_⟩⟩
  · simp [System.flights, fresh.queue, fresh.runs]
  · rw [fresh.scheduler]; simp
  · rw [fresh.loaders i]; exact .pending rfl rfl rfl rfl rfl
  · rw [fresh.loaders i]; simp
  · rw [fresh.entries]; exact List.nodup_nil
  · rw [fresh.loaders i] at hi; cases hi
  · rw [fresh.entries, fresh.scheduler]; rfl

end Count

/-! ## The facts -/

namespace System

/-- A worker to which the loader was dispatched has not come to its end. -/
def InFlight (s : System ι Model) (i : ι) : Prop :=
  (∃ k ∈ s.queue, k.loader = i) ∨ ∃ r ∈ s.runs, r.loader = i ∧ r.task.isSome

theorem not_inFlight {s : System ι Model} (none : s.flights = []) (i : ι) : ¬s.InFlight i := by
  simp only [flights, List.append_eq_nil_iff, List.map_eq_nil_iff, List.filterMap_eq_nil_iff] at none
  obtain ⟨queue, runs⟩ := none
  rintro (⟨k, hk, -⟩ | ⟨r, hr, -, task⟩)
  · rw [queue] at hk; cases hk
  · rw [runs r hr] at task; cases task

/-- The worker to which the loader was dispatched has not taken its first step. -/
def Unstarted (s : System ι Model) (i : ι) : Prop := ∃ k ∈ s.queue, k.loader = i

/-- The fields of a loader fit together, and they fit its worker and its task. -/
structure Consistent (s : System ι Model) (i : ι) : Prop where
  pending : (s.loaders i).phase = .pending →
    (s.loaders i).task = none ∧ (s.loaders i).result = none ∧ (s.loaders i).failure = none
  /-- A loader under way keeps its bytes up to the first step of its worker. -/
  loading : (s.loaders i).phase = .loading →
    s.InFlight i ∧ (s.loaders i).result = none ∧ (s.loaders i).failure = none ∧
      ((s.loaders i).bytes.isSome ↔ s.Unstarted i)
  succeeded : (s.loaders i).phase = .succeeded →
    (s.loaders i).result.isSome ∧ (s.loaders i).failure = none ∧ (s.loaders i).bytes = none
  failed : (s.loaders i).phase = .failed →
    (s.loaders i).failure.isSome ∧ (s.loaders i).result = none ∧ (s.loaders i).bytes = none
  /-- Only before its first step can a worker find its loader ended. -/
  inFlight : s.InFlight i → (s.loaders i).phase = .loading ∨ s.Unstarted i ∧ (s.loaders i).isLoaded
  task : ∀ t, (s.loaders i).task = some t → (s.isCompleted t = true ↔ ¬s.InFlight i)
  /-- Who asks for the result of a dispatched loader is answered after the outcome was stored. -/
  answer : ∀ m, s.result? i = some m → (s.loaders i).task.isSome →
    (s.loaders i).isLoaded ∧ m = (s.loaders i).result

/-- Being in flight and being under way are the same, and so are a completed task and an outcome. -/
structure InStep (s : System ι Model) (i : ι) : Prop where
  loading : (s.loaders i).phase = .loading ↔ s.InFlight i
  bytes : (s.loaders i).phase = .loading → (s.loaders i).bytes = none
  task : ∀ t, (s.loaders i).task = some t → (s.isCompleted t = true ↔ (s.loaders i).isLoaded = true)

end System

/-- What the answer of a tick says about the world in which the tick was given. -/
def Tick.Tells (w : World ι Model) (refusal : Option Files.IoError) : Tick ι → Prop
  | .idle =>
    w.system.flights = [] ∧ w.scheduler.allLoaded = true ∧ w.scheduler.settings.recheck = false
  | .busy => w.system.flights ≠ [] ∨ refusal ≠ none
  | .dispatched i => w.system.flights = [] ∧ w.registry.next? w.system = some i
  | .stalled n =>
    w.system.flights = [] ∧ n ≠ 0 ∧
      n = w.registry.entries.countP (fun i => (w.system.loaders i).phase = .pending) ∧
      ∀ i ∈ w.registry.entries,
        (w.system.loaders i).phase = .pending → (w.system.loaders i).bytes = none
  | .allLoaded =>
    w.system.flights = [] ∧ ∀ i ∈ w.registry.entries, (w.system.loaders i).isLoaded = true

section Facts

variable {s : System ι Model} {w : World ι Model} {i : ι}

/-- An answer is given where no worker is in flight for the loader; a loader with a task that is
neither pending nor under way has ended. -/
theorem answer_of_task {t : TaskId} {m : Option Model} (task : (s.loaders i).task = some t)
    (ends : s.isCompleted t = true → (s.loaders i).isLoaded = true) (given : s.result? i = some m) :
    (s.loaders i).isLoaded ∧ m = (s.loaders i).result := by
  cases completed : s.isCompleted t with
  | true =>
    simp only [System.result?, System.awaits, task, completed] at given
    exact ⟨ends completed, (Option.some.inj given).symm⟩
  | false => simp [System.result?, System.awaits, task, completed] at given

/-- A loader at rest, whose worker may only be in flight if it is still to find its load done. -/
theorem consistent_of_atRest (rest : (s.loaders i).AtRest)
    (inFlight : s.InFlight i → s.Unstarted i ∧ (s.loaders i).isLoaded)
    (task : ∀ t, (s.loaders i).task = some t → (s.isCompleted t = true ↔ ¬s.InFlight i)) :
    s.Consistent i := by
  have answer : ∀ m, s.result? i = some m → (s.loaders i).task.isSome →
      (s.loaders i).isLoaded ∧ m = (s.loaders i).result := by
    intro m given has
    obtain ⟨t, ht⟩ := Option.isSome_iff_exists.mp has
    refine answer_of_task ht (fun _ => ?_) given
    rcases rest.isLoaded_or with ended | pending
    · exact ended
    · rw [(rest.of_pending pending).2.1] at ht; cases ht
  cases rest with
  | pending phase started none result failure =>
    exact ⟨fun _ => ⟨none, result, failure⟩, by simp [phase], by simp [phase], by simp [phase],
      fun h => Or.inr (inFlight h), task, answer⟩
  | succeeded phase result failure bytes =>
    exact ⟨by simp [phase], by simp [phase], fun _ => ⟨result, failure, bytes⟩, by simp [phase],
      fun h => Or.inr (inFlight h), task, answer⟩
  | failed phase result failure bytes =>
    exact ⟨by simp [phase], by simp [phase], by simp [phase], fun _ => ⟨failure, result, bytes⟩,
      fun h => Or.inr (inFlight h), task, answer⟩

theorem System.Settled.consistent (settled : s.Settled i) (landed : ¬s.InFlight i) :
    s.Consistent i :=
  consistent_of_atRest settled.1 (fun h => absurd h landed) fun t ht => by
    simp [settled.2 t ht, landed]

/-- A loader that is under way, with its worker in flight and its task not completed. -/
theorem consistent_of_loading {t : TaskId} (phase : (s.loaders i).phase = .loading)
    (result : (s.loaders i).result = none) (failure : (s.loaders i).failure = none)
    (task : (s.loaders i).task = some t) (goesOn : s.isCompleted t = false)
    (aloft : s.InFlight i) (bytes : (s.loaders i).bytes.isSome ↔ s.Unstarted i) : s.Consistent i := by
  refine ⟨by simp [phase], fun _ => ⟨aloft, result, failure, bytes⟩, by simp [phase], by simp [phase],
    fun _ => Or.inl phase, fun u hu => ?_, fun m given _ => answer_of_task task (by simp [goesOn]) given⟩
  obtain rfl := Option.some.inj (task.symm.trans hu)
  simp [goesOn, aloft]

/-- A loader that has ended before its worker takes its first step. -/
theorem consistent_of_overtaken {t : TaskId} (overtaken : (s.loaders i).Overtaken t)
    (goesOn : s.isCompleted t = false) (waits : s.Unstarted i) : s.Consistent i := by
  refine consistent_of_atRest overtaken.atRest (fun _ => ⟨waits, overtaken.ended⟩) fun u hu => ?_
  obtain rfl := Option.some.inj (overtaken.task.symm.trans hu)
  have aloft : s.InFlight i := Or.inl waits
  simp [goesOn, aloft]

/-- Once its worker has taken its first step, a loader is in step with it. -/
theorem System.Consistent.inStep (consistent : s.Consistent i) (started : ¬s.Unstarted i) :
    s.InStep i := by
  have loading : (s.loaders i).phase = .loading ↔ s.InFlight i := by
    refine ⟨fun phase => (consistent.loading phase).1, fun aloft => ?_⟩
    rcases consistent.inFlight aloft with phase | ⟨waits, -⟩
    · exact phase
    · exact absurd waits started
  refine ⟨loading, fun phase => ?_, fun t ht => ?_⟩
  · obtain ⟨-, -, -, bytes⟩ := consistent.loading phase
    simpa [started] using bytes
  · rw [consistent.task t ht, ← loading]
    cases phase : (s.loaders i).phase with
    | pending => rw [(consistent.pending phase).1] at ht; cases ht
    | loading => simp [Loader.isLoaded, phase]
    | succeeded => simp [Loader.isLoaded, phase]
    | failed => simp [Loader.isLoaded, phase]

namespace Stage

/-- At every stage the fields of every loader fit together. -/
theorem consistent (stage : Stage w.system) (tracked : Tracked w) (i : ι) :
    w.system.Consistent i := by
  cases stage with
  | rest queue runs all => exact (all i).consistent (by simp [System.InFlight, queue, runs])
  | waiting j t queue runs one others =>
    by_cases same : i = j
    · subst same
      have goesOn := (tracked.of_mem (t := t) (by simp [System.flights, queue])).2
      have waits : w.system.Unstarted i := ⟨⟨i, t⟩, by simp [queue], rfl⟩
      rcases one with ⟨phase, -, bytes, result, failure, task⟩ | overtaken
      · exact consistent_of_loading phase result failure task goesOn (Or.inl waits) (by simp [bytes, waits])
      · exact consistent_of_overtaken overtaken goesOn waits
    · refine (others i same).consistent ?_
      simpa [System.InFlight, queue, runs] using fun other : j = i => same other.symm
  | running r t queue runs task one others =>
    by_cases same : i = r.loader
    · subst same
      have goesOn := (tracked.of_mem (t := t) (by simp [System.flights, runs, task])).2
      have aloft : w.system.InFlight r.loader := Or.inr ⟨r, by simp [runs], rfl, by simp [task]⟩
      exact consistent_of_loading one.phase one.result one.failure one.task goesOn aloft
        (by simp [one.bytes, System.Unstarted, queue])
    · refine (others i same).consistent ?_
      simpa [System.InFlight, queue, runs, task] using fun other : r.loader = i => same other.symm

variable [DecidableEq ι]

/-- The answer of a tick is true. -/
theorem tells (stage : Stage w.system) (tracked : Tracked w) (refusal : Option Files.IoError) :
    (w.scheduler.tick refusal w.registry w.system).1.Tells w refusal := by
  have rule := tickRule w.scheduler refusal w.registry w.system
  generalize w.scheduler.tick refusal w.registry w.system = x at rule ⊢
  cases rule with
  | idle flag once =>
    refine ⟨?_, flag, once⟩
    cases tracked with
    | resting none landed => exact none
    | flying t one current present goesOn looks => rw [looks flag] at once; cases once
  | busy looks busy => exact Or.inl (tracked.isBusy_iff.mp busy)
  | dispatched looks free i next starts => exact ⟨tracked.flights_eq_nil free, next⟩
  | refused looks free i next cause refuses => exact Or.inr (by simp [refuses])
  | allLoaded looks free next ended t agrees =>
    exact ⟨tracked.flights_eq_nil free, pendingCount_eq_zero_iff.mp ended⟩
  | stalled looks free next some =>
    have none := tracked.flights_eq_nil free
    refine ⟨none, some, ?_, next?_eq_none_iff.mp next⟩
    -- with nothing in flight, whatever has not ended is pending
    obtain ⟨-, -, all⟩ := stage.grounded none
    exact List.countP_congr fun i _ => by simp [(all i).1.isLoaded_eq]

end Stage

end Facts

/-- **The life of loaders in ordinary use**, from the beginning and at every moment: their fields fit
together, a loader whose worker has taken its first step is in step with it, the scheduler has
counted the loaders that have a task, and every answer of a tick is true. Where a dispatch and the
first step of its worker are one, no worker is ever unstarted and all loaders are in step
(`Prompt.inStep`). -/
theorem ordinary_use_is_consistent [DecidableEq ι] {w : World ι Model} {h : List (Action ι)}
    (fresh : w.Fresh) (allowed : w.Allows OrdinaryUse h) :
    let v := w.after h
    (∀ i, v.system.Consistent i) ∧
    (∀ i, ¬v.system.Unstarted i → v.system.InStep i) ∧
    Ledger v ∧
    ∀ refusal, (v.scheduler.tick refusal v.registry v.system).1.Tells v refusal := by
  obtain ⟨tracked, stage, ledger⟩ :=
    World.after_induction (fun v a => Orderly.perform) allowed (orderly_of_fresh fresh)
  have consistent := stage.consistent tracked
  exact ⟨consistent, fun i => (consistent i).inStep, ledger, stage.tells tracked⟩

/-- One loader is run by its worker while another, which waits, is run by a caller. -/
theorem ordinary_use_is_consistent_of_pair :
    let h : List (Action Bool) := [.register true, .register false, .giveBytes true [1],
      .giveBytes false [2], .tick none, .work ⟨true, 0⟩, .load false]
    World.pair.Allows OrdinaryUse h ∧
    (((World.pair.after h).system.loaders true).phase = .loading ∧
      (World.pair.after h).system.InFlight true) ∧
    ((World.pair.after h).system.loaders false).result = some [2] ∧
    (∀ i, (World.pair.after h).system.InStep i) ∧
    (World.pair.after h).scheduler.dispatched = 1 := by
  intro h
  have allowed : World.pair.Allows OrdinaryUse h := by decide +kernel
  have phase : ((World.pair.after h).system.loaders true).phase = .loading := by decide +kernel
  have queue : (World.pair.after h).system.queue = [] := by decide +kernel
  obtain ⟨consistent, inStep, -, -⟩ := ordinary_use_is_consistent World.fresh_pair allowed
  refine ⟨allowed, ⟨phase, ((consistent true).loading phase).1⟩, by decide +kernel, fun i => ?_,
    by decide +kernel⟩
  exact inStep i (by simp [System.Unstarted, queue])

/-! ## Workers that start at once -/

section Prompt

variable [DecidableEq ι] {w : World ι Model} {h : List (Action ι)} {a : Action ι}

/-- The histories of ordinary use in which a dispatch and the first step of its worker are one: nothing comes
between them. -/
inductive Prompt (w : World ι Model) : List (Action ι) → Prop
  | nil : Prompt w []
  | snoc {h : List (Action ι)} {a : Action ι} (before : Prompt w h) (may : OrdinaryUse (w.after h) a) :
      Prompt w (h ++ a :: ((w.after h).perform a).system.queue.map .work)

/-- At most one worker has yet to start, and then it does. -/
theorem Orderly.promptly (orderly : Orderly w) :
    let starts := w.system.queue.map .work
    w.Allows OrdinaryUse starts ∧ Orderly (w.after starts) ∧ (w.after starts).system.queue = [] := by
  cases orderly.stage with
  | rest queue runs all =>
    rw [queue]
    exact ⟨trivial, orderly, queue⟩
  | running r t queue runs task one others =>
    rw [queue]
    exact ⟨trivial, orderly, queue⟩
  | waiting i t queue runs one others =>
    have may : OrdinaryUse w (.work ⟨i, t⟩) := ⟨by simp [Action.Possible, queue], trivial⟩
    rw [queue]
    exact ⟨⟨may, trivial⟩, orderly.perform may, (queue_work w.system ⟨i, t⟩).trans (by simp [queue])⟩

theorem Prompt.orderly (prompt : Prompt w h) (fresh : w.Fresh) :
    w.Allows OrdinaryUse h ∧ Orderly (w.after h) ∧ (w.after h).system.queue = [] := by
  induction prompt with
  | nil => exact ⟨trivial, orderly_of_fresh fresh, fresh.queue⟩
  | snoc before may ih =>
    obtain ⟨allowed, orderly, -⟩ := ih
    obtain ⟨starts, next, queue⟩ := (orderly.perform may).promptly
    rw [World.after_append, World.after_cons]
    exact ⟨World.allows_append.mpr ⟨allowed, may, starts⟩, next, queue⟩

/-- **Where workers start at once**, all loaders are in step with them at every moment. -/
theorem Prompt.inStep (prompt : Prompt w h) (fresh : w.Fresh) :
    let v := w.after h
    w.Allows OrdinaryUse h ∧ (∀ i, v.system.Consistent i ∧ v.system.InStep i) ∧ Ledger v ∧
    ∀ refusal, (v.scheduler.tick refusal v.registry v.system).1.Tells v refusal := by
  obtain ⟨allowed, ⟨tracked, stage, ledger⟩, queue⟩ := prompt.orderly fresh
  refine ⟨allowed, fun i => ?_, ledger, stage.tells tracked⟩
  have consistent := stage.consistent tracked i
  exact ⟨consistent, consistent.inStep (by simp [System.Unstarted, queue])⟩

end Prompt

end ModelLoading.Loading
