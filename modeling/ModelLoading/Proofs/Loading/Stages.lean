import ModelLoading.Proofs.Loading.OneInFlight

/-!
# The stages of a system

Where loaders are only registered, given bytes, run by callers and driven by the scheduler, a loader
is at rest, waits for the worker to which it was dispatched, or is run by that worker, and only one
loader at a time is not at rest (`Stage`). What callers do to single loaders keeps the stage; a
dispatch and the steps of workers lead from one stage to the next.

A worker takes the bytes when it starts, and a caller's run may come before that. So a loader that was
dispatched holds its bytes until its worker starts, and it may have ended before.
-/

namespace ModelLoading.Loading

variable {ι Model : Type}

/-! ## One loader -/

namespace Loader

/-- No load of the loader goes on: nothing has happened to it but that it may have got bytes, or it
has ended, with its outcome and without bytes. -/
inductive AtRest (l : Loader Model) : Prop
  | pending (phase : l.phase = .pending) (started : l.started = false) (task : l.task = none)
      (result : l.result = none) (failure : l.failure = none)
  | succeeded (phase : l.phase = .succeeded) (result : l.result.isSome) (failure : l.failure = none)
      (bytes : l.bytes = none)
  | failed (phase : l.phase = .failed) (result : l.result = none) (failure : l.failure.isSome)
      (bytes : l.bytes = none)

/-- The loader was dispatched under a task and has its bytes to be taken. -/
structure Awaits (l : Loader Model) (t : TaskId) : Prop where
  phase : l.phase = .loading
  started : l.started = false
  bytes : l.bytes.isSome
  result : l.result = none
  failure : l.failure = none
  task : l.task = some t

/-- The loader was dispatched under a task, and its bytes were taken. -/
structure Underway (l : Loader Model) (t : TaskId) : Prop where
  phase : l.phase = .loading
  started : l.started = true
  bytes : l.bytes = none
  result : l.result = none
  failure : l.failure = none
  task : l.task = some t

/-- The loader was dispatched under a task and has ended all the same. -/
structure Overtaken (l : Loader Model) (t : TaskId) : Prop where
  atRest : l.AtRest
  ended : l.isLoaded = true
  task : l.task = some t

/-- What callers do to loaders while workers do nothing. -/
structure Keeps (l m : Loader Model) : Prop where
  rest : l.AtRest → m.AtRest
  ended : l.isLoaded = true → m = l
  awaits : ∀ t, l.Awaits t → m.Awaits t ∨ m.Overtaken t
  underway : ∀ t, l.Underway t → m = l
  task : m.task = l.task
  name : m.name = l.name

theorem Keeps.refl (l : Loader Model) : Keeps l l :=
  ⟨id, fun _ => rfl, fun _ => Or.inl, fun _ _ => rfl, rfl, rfl⟩

/-- Of a pending loader only its rest is to be kept. -/
theorem Keeps.of_pending {l m : Loader Model} (phase : l.phase = .pending)
    (rest : l.AtRest → m.AtRest) (task : m.task = l.task) (name : m.name = l.name) : Keeps l m := by
  refine ⟨rest, fun ended => ?_, fun t awaits => ?_, fun t underway => ?_, task, name⟩
  · simp [isLoaded, phase] at ended
  · have other := awaits.phase
    rw [phase] at other; cases other
  · have other := underway.phase
    rw [phase] at other; cases other

/-- A loader at rest has ended, or it is pending. -/
theorem AtRest.isLoaded_or {l : Loader Model} (rest : l.AtRest) :
    l.isLoaded = true ∨ l.phase = .pending := by
  cases rest with
  | pending phase => exact Or.inr phase
  | succeeded phase => simp [isLoaded, phase]
  | failed phase => simp [isLoaded, phase]

theorem AtRest.isLoaded_eq {l : Loader Model} (rest : l.AtRest) :
    l.isLoaded = decide (l.phase ≠ .pending) := by
  rcases rest.isLoaded_or with ended | pending
  · simp [ended, l.ne_pending_of_isLoaded ended]
  · simp [isLoaded, pending]

/-- A pending loader at rest is untouched but for its bytes. -/
theorem AtRest.of_pending {l : Loader Model} (rest : l.AtRest) (phase : l.phase = .pending) :
    l.started = false ∧ l.task = none ∧ l.result = none ∧ l.failure = none := by
  cases rest with
  | pending _ started task result failure => exact ⟨started, task, result, failure⟩
  | succeeded other => rw [phase] at other; cases other
  | failed other => rw [phase] at other; cases other

theorem AtRest.awaits_assign {l : Loader Model} (rest : l.AtRest) (phase : l.phase = .pending)
    (bytes : l.bytes.isSome) (t : TaskId) : (l.assign t).Awaits t := by
  obtain ⟨started, -, result, failure⟩ := rest.of_pending phase
  exact ⟨by simp [assign, phase], started, bytes, result, failure, rfl⟩

theorem AtRest.unassign_assign {l : Loader Model} (rest : l.AtRest) (phase : l.phase = .pending)
    (t : TaskId) : (l.assign t).unassign = l := by
  obtain ⟨-, task, -, -⟩ := rest.of_pending phase
  calc (l.assign t).unassign = { l with task := none, phase := .pending } := by
        simp [assign, unassign, phase]
    _ = l := by rw [← task, ← phase]

/-- The end of its run brings a loader to rest. -/
theorem atRest_finish {l : Loader Model} (phase : l.phase = .loading) (bytes : l.bytes = none)
    (result : l.result = none) (failure : l.failure = none) (outcome : Except String Model) :
    (l.finish outcome).AtRest ∧ (l.finish outcome).isLoaded = true ∧
      (l.finish outcome).task = l.task := by
  cases outcome with
  | ok m =>
    have ended : (l.finish (.ok m)).phase = .succeeded := by simp [finish, phase]
    exact ⟨.succeeded ended rfl failure bytes, by simp [isLoaded, ended], rfl⟩
  | error reason =>
    have ended : (l.finish (.error reason)).phase = .failed := by simp [finish, phase]
    exact ⟨.failed ended result rfl bytes, by simp [isLoaded, ended], rfl⟩

theorem keeps_giveBytes (l : Loader Model) (data : Bytes) : Keeps l (l.giveBytes data) := by
  by_cases pending : l.phase = .pending
  · rw [giveBytes_of_pending l pending]
    refine .of_pending pending (fun rest => ?_) rfl rfl
    obtain ⟨started, task, result, failure⟩ := rest.of_pending pending
    exact .pending pending started task result failure
  · rw [giveBytes_of_not_pending l pending]; exact Keeps.refl l

theorem keeps_acquired (settings : Settings) (source : Resource.Source) (l : Loader Model) :
    Keeps l (l.acquired settings source) := by
  by_cases barred : l.phase ≠ .pending ∨ l.bytes.isSome
  · rw [acquired_of_barred barred]; exact Keeps.refl l
  · have pending : l.phase = .pending := by
      simp only [ne_eq, not_or, Decidable.not_not] at barred; exact barred.1
    cases found : contentOf source settings.matching l.file with
    | ok data => rw [acquired_of_ok barred found]; exact keeps_giveBytes l data
    | error e =>
      rw [acquired_of_error barred found]
      split
      · refine .of_pending pending (fun rest => ?_) rfl rfl
        obtain ⟨-, -, result, -⟩ := rest.of_pending pending
        exact .failed (by simp [fail, pending]) result rfl rfl
      · exact Keeps.refl l

/-- A caller's run ends a loader that waits, also one that waits for its worker. -/
theorem keeps_ran (l : Loader Model) : Keeps l l.ran := by
  rcases l.barred_or_free with barred | ⟨loaded, started⟩
  · rw [ran, if_pos barred]; exact Keeps.refl l
  · have new : l.ran = _ := if_neg (by simp [loaded, started])
    have finished := atRest_finish
      (l := { l with started := true, phase := .loading, bytes := none }) rfl rfl
    rw [new]
    cases phase : l.phase with
    | pending =>
      refine .of_pending phase (fun rest => ?_) ?_ ?_
      · obtain ⟨-, -, result, failure⟩ := rest.of_pending phase
        exact (finished result failure _).1
      · cases l.outcome l.bytes <;> rfl
      · cases l.outcome l.bytes <;> rfl
    | loading =>
      refine ⟨fun rest => ?_, fun ended => ?_, fun t awaits => Or.inr ?_, fun t underway => ?_, ?_, ?_⟩
      · rcases rest.isLoaded_or with ended | pending
        · rw [loaded] at ended; cases ended
        · rw [phase] at pending; cases pending
      · rw [loaded] at ended; cases ended
      · obtain ⟨rest, ended, task⟩ := finished awaits.result awaits.failure (l.outcome l.bytes)
        exact ⟨rest, ended, task.trans awaits.task⟩
      · have other := underway.started
        rw [started] at other; cases other
      · cases l.outcome l.bytes <;> rfl
      · cases l.outcome l.bytes <;> rfl
    | succeeded => simp [isLoaded, phase] at loaded
    | failed => simp [isLoaded, phase] at loaded

end Loader

/-! ## The stages of a system -/

/-- A loader is at rest, and its task, if it has one, is completed. -/
def System.Settled (s : System ι Model) (i : ι) : Prop :=
  (s.loaders i).AtRest ∧ ∀ t, (s.loaders i).task = some t → s.isCompleted t = true

/-- At most one loader is not settled: one that was dispatched to a worker. -/
inductive Stage (s : System ι Model) : Prop
  | rest (queue : s.queue = []) (runs : s.runs = []) (all : ∀ i, s.Settled i)
  | waiting (i : ι) (t : TaskId) (queue : s.queue = [⟨i, t⟩]) (runs : s.runs = [])
      (one : (s.loaders i).Awaits t ∨ (s.loaders i).Overtaken t)
      (others : ∀ j, j ≠ i → s.Settled j)
  | running (r : Run ι) (t : TaskId) (queue : s.queue = []) (runs : s.runs = [r])
      (task : r.task = some t) (one : (s.loaders r.loader).Underway t)
      (others : ∀ j, j ≠ r.loader → s.Settled j)

namespace Stage

variable {s u : System ι Model}

/-- A loader that is kept stays settled while completed tasks stay completed. -/
theorem settled_keep {i : ι} (settled : s.Settled i) (keeps : (s.loaders i).Keeps (u.loaders i))
    (tasks : ∀ t, s.isCompleted t = true → u.isCompleted t = true) : u.Settled i := by
  refine ⟨keeps.rest settled.1, fun t ht => tasks t (settled.2 t ?_)⟩
  rw [← keeps.task]; exact ht

/-- Where workers do nothing and loaders are kept, the stage is the same. -/
theorem keep (stage : Stage s) (queue : u.queue = s.queue) (runs : u.runs = s.runs)
    (tasks : ∀ t, s.isCompleted t = true → u.isCompleted t = true)
    (loaders : ∀ i, (s.loaders i).Keeps (u.loaders i)) : Stage u := by
  cases stage with
  | rest queue' runs' all =>
    exact .rest (queue.trans queue') (runs.trans runs') fun i =>
      settled_keep (all i) (loaders i) tasks
  | waiting i t queue' runs' one others =>
    refine .waiting i t (queue.trans queue') (runs.trans runs') ?_ fun j hj =>
      settled_keep (others j hj) (loaders j) tasks
    rcases one with awaits | overtaken
    · exact (loaders i).awaits t awaits
    · exact Or.inr ((loaders i).ended overtaken.ended ▸ overtaken)
  | running r t queue' runs' task one others =>
    refine .running r t (queue.trans queue') (runs.trans runs') task ?_ fun j hj =>
      settled_keep (others j hj) (loaders j) tasks
    rw [(loaders r.loader).underway t one]; exact one

end Stage

/-! ## Workers and ticks -/

namespace Stage

variable [DecidableEq ι] {s u : System ι Model}

omit [DecidableEq ι] in
/-- A loader that nobody touches stays settled. -/
theorem settled_of_eq {i : ι} (settled : s.Settled i) (same : u.loaders i = s.loaders i)
    (tasks : ∀ t, s.isCompleted t = true → u.isCompleted t = true) : u.Settled i :=
  settled_keep settled (same ▸ Loader.Keeps.refl _) tasks

omit [DecidableEq ι] in
theorem settled_of_completed {i : ι} {t : TaskId} (rest : (s.loaders i).AtRest)
    (task : (s.loaders i).task = some t) (completed : s.isCompleted t = true) : s.Settled i := by
  refine ⟨rest, fun k hk => ?_⟩
  obtain rfl := Option.some.inj (task.symm.trans hk)
  exact completed

/-- The worker is the first to run its loader. -/
theorem work_of_awaits {i : ι} {t : TaskId} (queue : s.queue = [⟨i, t⟩]) (runs : s.runs = [])
    (awaits : (s.loaders i).Awaits t) (others : ∀ j, j ≠ i → s.Settled j) :
    Stage (s.work ⟨i, t⟩).2 := by
  have loaded : (s.loaders i).isLoaded = false := by simp [Loader.isLoaded, awaits.phase]
  have agrees := s.work_of_free ⟨i, t⟩ loaded awaits.started
  refine .running (s.runOf i (some t)) t (agrees.queue.trans (by simp [queue])) ?_ rfl ?_ fun j hj => ?_
  · rw [agrees.runs]; simp [runs]
  · simp only [System.runOf, agrees.loaders, System.update_self]
    exact ⟨rfl, rfl, rfl, awaits.result, awaits.failure, awaits.task⟩
  · refine settled_of_eq (others j hj) ?_ fun t ht => ?_
    · rw [agrees.loaders]
      exact s.update_of_ne hj fun l => { l with started := true, phase := .loading, bytes := none }
    · rw [System.isCompleted_congr agrees.tasks]; exact ht

/-- A caller ran the loader before its worker did: the worker just completes its task. -/
theorem work_of_overtaken {i : ι} {t : TaskId} (queue : s.queue = [⟨i, t⟩]) (runs : s.runs = [])
    (overtaken : (s.loaders i).Overtaken t) (others : ∀ j, j ≠ i → s.Settled j)
    (present : t < s.tasks.length) : Stage (s.work ⟨i, t⟩).2 := by
  have agrees := s.work_of_barred ⟨i, t⟩ (Or.inl overtaken.ended)
  have completed : ∀ k, (s.work ⟨i, t⟩).2.isCompleted k = (decide (k = t) || s.isCompleted k) := by
    intro k
    rw [System.isCompleted_congr agrees.tasks]; exact s.isCompleted_complete present k
  refine .rest (agrees.queue.trans (by simp [queue])) (agrees.runs.trans runs) fun j => ?_
  by_cases same : j = i
  · subst same
    refine settled_of_completed (agrees.loaders ▸ overtaken.atRest)
      (agrees.loaders ▸ overtaken.task) ?_
    rw [completed t]; simp
  · refine settled_of_eq (others j same) (by rw [agrees.loaders]; rfl) fun k hk => ?_
    rw [completed k, hk, Bool.or_true]

/-- A worker that starts takes the bytes, or finds its load done and completes its task. -/
theorem work (stage : Stage s) {k : Work ι} (h : k ∈ s.queue) (present : k.task < s.tasks.length) :
    Stage (s.work k).2 := by
  cases stage with
  | rest queue => rw [queue] at h; cases h
  | running r t queue => rw [queue] at h; cases h
  | waiting i t queue runs one others =>
    rw [queue, List.mem_singleton] at h
    subst h
    rcases one with awaits | overtaken
    · exact work_of_awaits queue runs awaits others
    · exact work_of_overtaken queue runs overtaken others present

/-- A worker that ends its run leaves the loader at rest and the task completed. -/
theorem finish (stage : Stage s) {r : Run ι} (h : r ∈ s.runs)
    (present : ∀ t, r.task = some t → t < s.tasks.length) : Stage (s.finish r) := by
  cases stage with
  | rest _ runs => rw [runs] at h; cases h
  | waiting _ _ _ runs => rw [runs] at h; cases h
  | running r' t queue runs task one others =>
    rw [runs, List.mem_singleton] at h
    subst h
    have agrees := s.agrees_finish r
    rw [task] at agrees
    obtain ⟨rest, -, own⟩ :=
      Loader.atRest_finish one.phase one.bytes one.result one.failure ((s.loaders r.loader).outcome r.taken)
    have new : (s.finish r).loaders r.loader =
        (s.loaders r.loader).finish ((s.loaders r.loader).outcome r.taken) := by
      rw [s.loaders_finish, if_pos rfl]
    have completed : ∀ k, (s.finish r).isCompleted k = (decide (k = t) || s.isCompleted k) := by
      intro k
      rw [System.isCompleted_congr agrees.tasks]; exact s.isCompleted_complete (present t task) k
    refine .rest (agrees.queue.trans queue) (agrees.runs.trans (by simp [runs])) fun j => ?_
    by_cases same : j = r.loader
    · subst same
      refine settled_of_completed (new ▸ rest) (new ▸ own.trans one.task) ?_
      rw [completed t]; simp
    · refine settled_of_eq (others j same) ?_ fun k hk => ?_
      · rw [s.loaders_finish, if_neg same]
      · rw [completed k, hk, Bool.or_true]

omit [DecidableEq ι] in
/-- While nothing is in flight, every loader is settled. -/
theorem grounded (stage : Stage s) (none : s.flights = []) :
    s.queue = [] ∧ s.runs = [] ∧ ∀ i, s.Settled i := by
  cases stage with
  | rest queue runs all => exact ⟨queue, runs, all⟩
  | waiting i t queue runs => simp [System.flights, queue] at none
  | running r t queue runs task => simp [System.flights, runs, task] at none

omit [DecidableEq ι] in
/-- Every run in progress is a worker's. -/
theorem task_of_mem_runs (stage : Stage s) {r : Run ι} (h : r ∈ s.runs) : r.task.isSome := by
  cases stage with
  | rest queue runs => rw [runs] at h; cases h
  | waiting i t queue runs => rw [runs] at h; cases h
  | running r' t queue runs task =>
    rw [runs, List.mem_singleton] at h
    rw [h, task]; rfl

/-- A loader is dispatched while every loader is settled, and waits for its worker. -/
theorem dispatch (stage : Stage s) (none : s.flights = []) {i : ι}
    (phase : (s.loaders i).phase = .pending) (bytes : (s.loaders i).bytes.isSome) :
    Stage (s.dispatch i).2 := by
  obtain ⟨queue, runs, all⟩ := stage.grounded none
  have agrees := s.agrees_dispatch i
  refine .waiting i s.tasks.length (agrees.queue.trans (by simp [queue])) (agrees.runs.trans runs)
    (Or.inl ?_) fun j hj => settled_of_eq (all j) ?_ fun t ht => ?_
  · rw [agrees.loaders]
    simp only [System.update_self]
    exact (all i).1.awaits_assign phase bytes _
  · rw [agrees.loaders]
    exact s.update_of_ne hj (·.assign s.tasks.length)
  · rw [System.isCompleted_of_append agrees.tasks (System.isCompleted_lt ht)]; exact ht

/-- A dispatch that is refused leaves every loader as it was. -/
theorem loaders_refuse (stage : Stage s) (none : s.flights = []) {i : ι}
    (phase : (s.loaders i).phase = .pending) (cause : Files.IoError) :
    (s.refuse i cause).loaders = s.loaders := by
  obtain ⟨-, -, all⟩ := stage.grounded none
  funext j
  rw [(s.agrees_refuse i cause).loaders]
  simp only [System.loaders_update]
  split
  · rename_i same
    rw [same]; exact (all i).1.unassign_assign phase _
  · rfl

end Stage

end ModelLoading.Loading
