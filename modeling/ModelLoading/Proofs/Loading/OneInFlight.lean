import ModelLoading.Proofs.Loading.Operations
import ModelLoading.Proofs.Loading.World

/-!
# At most one load in flight

The flights of a system are the tasks of its dispatched loads that have not come to their end: those
no worker has started on, and those that are run. The scheduler keeps track of them, whatever callers
do to loaders in the meantime: `Tracked` says that there is no flight and the scheduler is not busy,
or that there is one, of the scheduler's current task. Nobody but the worker may complete the task of
a flight, which is all that is asked of callers.
-/

namespace ModelLoading.Loading

variable {ι Model : Type}

/-! ## Flights -/

/-- The tasks of dispatched loads that have not come to their end. -/
def System.flights (s : System ι Model) : List TaskId :=
  s.queue.map (·.task) ++ s.runs.filterMap (·.task)

theorem System.Agrees.flights {s t : System ι Model} (h : Agrees s t) : s.flights = t.flights := by
  simp only [System.flights, h.queue, h.runs]

section Flights

variable [DecidableEq ι] (s : System ι Model)

theorem flights_of_mem_queue {k : Work ι} (h : k ∈ s.queue) :
    s.flights.Perm (k.task :: { s with queue := s.queue.erase k }.flights) :=
  ((List.perm_cons_erase h).map _).append_right _

theorem flights_of_mem_runs {r : Run ι} (h : r ∈ s.runs) :
    s.flights.Perm (r.task.toList ++ { s with runs := s.runs.erase r }.flights) := by
  have runs := (List.perm_cons_erase h).filterMap Run.task
  have taken : (r :: s.runs.erase r).filterMap Run.task =
      r.task.toList ++ (s.runs.erase r).filterMap Run.task := by
    cases task : r.task <;> simp [task]
  rw [taken] at runs
  refine (runs.append_left _).trans ?_
  simp only [System.flights, ← List.append_assoc]
  exact List.perm_append_comm.append_right _

/-- The end of a run ends its flight, if it is a worker's. -/
theorem flights_finish {r : Run ι} (h : r ∈ s.runs) :
    s.flights.Perm (r.task.toList ++ (s.finish r).flights) := by
  have agrees := s.agrees_finish r
  have same : (s.finish r).flights = { s with runs := s.runs.erase r }.flights := by
    rw [agrees.flights]
    cases r.task <;> rfl
  rw [same]
  exact flights_of_mem_runs s h

theorem flights_start_none (i : ι) : (s.start i none).2.flights = s.flights := by
  rcases (s.loaders i).barred_or_free with barred | ⟨loaded, started⟩
  · exact (s.start_of_barred i barred none).2.flights
  · rw [s.start_of_free i loaded started none]
    simp [System.flights, System.update, System.runOf]

theorem flights_load (i : ι) : s.flights.Perm (s.load i).flights := by
  rcases (s.loaders i).barred_or_free with barred | ⟨loaded, started⟩
  · rw [(s.load_of_barred i barred).flights]
  · have inside : s.runOf i none ∈ (s.start i none).2.runs := by
      rw [s.start_of_free i loaded started none]; simp
    rw [s.load_of_free i loaded started, ← flights_start_none s i]
    exact flights_finish _ inside

/-- The start of a dispatched load leaves the flight to the run, or ends it. -/
theorem flights_work {k : Work ι} (h : k ∈ s.queue) :
    s.flights.Perm (s.work k).2.flights ∧ (s.work k).2.tasks = s.tasks ∨
    s.flights.Perm (k.task :: (s.work k).2.flights) ∧
      ((s.work k).2.tasks = (s.complete k.task).tasks) := by
  have queued := flights_of_mem_queue s h
  rcases (s.loaders k.loader).barred_or_free with barred | ⟨loaded, started⟩
  · have agrees := s.work_of_barred k barred
    refine Or.inr ⟨?_, agrees.tasks⟩
    rw [agrees.flights]; exact queued
  · have agrees := s.work_of_free k loaded started
    refine Or.inl ⟨?_, agrees.tasks⟩
    rw [agrees.flights]
    refine queued.trans ?_
    simp only [System.flights, System.runOf, List.filterMap_append, ← List.append_assoc]
    exact (List.perm_append_singleton _ _).symm

end Flights

/-! ## The invariant -/

/-- The scheduler knows of the flight that there is: either there is none, and its current task, if
any, is completed; or there is one, of its current task, and the scheduler has not stopped looking. -/
inductive Tracked (w : World ι Model) : Prop
  | resting (none : w.system.flights = [])
      (landed : ∀ t, w.scheduler.current = some t → w.system.isCompleted t = true)
  | flying (t : TaskId) (one : w.system.flights = [t]) (current : w.scheduler.current = some t)
      (present : t < w.system.tasks.length) (goesOn : w.system.isCompleted t = false)
      (looks : w.scheduler.allLoaded = true → w.scheduler.settings.recheck = true)

namespace Tracked

variable {w v : World ι Model}

/-- A task in flight is there and goes on. -/
theorem of_mem (tracked : Tracked w) {t : TaskId} (h : t ∈ w.system.flights) :
    t < w.system.tasks.length ∧ w.system.isCompleted t = false := by
  cases tracked with
  | resting none landed => rw [none] at h; cases h
  | flying u one current present goesOn looks =>
    rw [one, List.mem_singleton] at h
    exact h ▸ ⟨present, goesOn⟩

/-- What leaves the scheduler, the flights and their tasks alone leaves the invariant. -/
theorem keep (tracked : Tracked w) (scheduler : v.scheduler = w.scheduler)
    (flights : w.system.flights.Perm v.system.flights)
    (length : w.system.tasks.length ≤ v.system.tasks.length)
    (stays : ∀ t, w.system.isCompleted t = true → v.system.isCompleted t = true)
    (aloft : ∀ t ∈ w.system.flights, v.system.isCompleted t = w.system.isCompleted t) :
    Tracked v := by
  cases tracked with
  | resting none landed =>
    refine .resting ?_ fun t ht => stays t (landed t (scheduler ▸ ht))
    rw [none] at flights
    exact List.nil_perm.mp flights
  | flying t one current present goesOn looks =>
    have same := aloft t (by rw [one]; exact List.mem_singleton.mpr rfl)
    rw [one] at flights
    refine .flying t (List.singleton_perm.mp flights).symm (scheduler ▸ current)
      (Nat.lt_of_lt_of_le present length) (same.trans goesOn) ?_
    rw [scheduler]; exact looks

/-- The same where no task changes. -/
theorem keep_of_tasks (tracked : Tracked w) (scheduler : v.scheduler = w.scheduler)
    (flights : w.system.flights.Perm v.system.flights)
    (tasks : v.system.tasks = w.system.tasks) : Tracked v := by
  have same := System.isCompleted_congr tasks
  refine tracked.keep scheduler flights (Nat.le_of_eq (by rw [tasks])) (fun t ht => ?_) fun t _ => same t
  rw [same t]; exact ht

theorem isBusy_iff (tracked : Tracked w) :
    w.scheduler.isBusy w.system = true ↔ w.system.flights ≠ [] := by
  cases tracked with
  | resting none landed => simp [isBusy_eq_false_iff.mpr landed, none]
  | flying t one current present goesOn looks => simp [Scheduler.isBusy, current, goesOn, one]

theorem flights_eq_nil (tracked : Tracked w) (free : w.scheduler.isBusy w.system = false) :
    w.system.flights = [] := by
  have none := not_congr tracked.isBusy_iff
  simpa [free] using none

/-- Tasks that are added stay out of the way. -/
theorem keep_of_append (tracked : Tracked w) (scheduler : v.scheduler = w.scheduler)
    (flights : w.system.flights.Perm v.system.flights) {more : List Task}
    (tasks : v.system.tasks = w.system.tasks ++ more) : Tracked v := by
  have old := fun t => System.isCompleted_of_append (k := t) tasks
  refine tracked.keep scheduler flights (by simp [tasks]) (fun t ht => ?_) fun t ht => ?_
  · rw [old t (System.isCompleted_lt ht)]; exact ht
  · exact old t (tracked.of_mem ht).1

/-- The completion of a task that is in flight, by the worker that ends the flight. -/
theorem land (tracked : Tracked w) {t : TaskId} (scheduler : v.scheduler = w.scheduler)
    (flights : w.system.flights.Perm (t :: v.system.flights))
    (tasks : v.system.tasks = (w.system.complete t).tasks) : Tracked v := by
  cases tracked with
  | resting none landed =>
    rw [none] at flights
    exact absurd (List.nil_perm.mp flights) (List.cons_ne_nil _ _)
  | flying u one current present goesOn looks =>
    rw [one] at flights
    have both := List.singleton_perm.mp flights
    obtain ⟨rfl, none⟩ := List.cons.inj both
    refine .resting none.symm fun x hx => ?_
    rw [scheduler, current] at hx
    obtain rfl := Option.some.inj hx
    rw [System.isCompleted_congr tasks, System.isCompleted_complete _ present]
    simp

variable [DecidableEq ι]

/-- A tick finds the scheduler busy, or it finds no flight and may start one. -/
theorem tick (tracked : Tracked w) (refusal : Option Files.IoError) :
    Tracked (w.perform (.tick refusal)) := by
  have rule := tickRule w.scheduler refusal w.registry w.system
  simp only [World.perform]
  generalize w.scheduler.tick refusal w.registry w.system = x at rule ⊢
  cases rule with
  | idle flag once => exact tracked.keep_of_tasks rfl (List.Perm.refl _) rfl
  | busy looks busy => exact tracked.keep_of_tasks rfl (List.Perm.refl _) rfl
  | dispatched looks free i next starts =>
    have none := tracked.flights_eq_nil free
    have agrees := w.system.agrees_dispatch i
    refine .flying w.system.tasks.length ?_ rfl ?_ ?_ looks
    · dsimp only
      rw [agrees.flights]
      simp only [System.flights, List.append_eq_nil_iff, List.map_eq_nil_iff] at none
      simp [System.flights, System.update, none.1, none.2]
    · dsimp only
      rw [agrees.tasks]; simp
    · dsimp only
      rw [System.isCompleted_congr agrees.tasks]
      exact w.system.isCompleted_newTask_self _
  | refused looks free i next cause refuses =>
    have agrees := w.system.agrees_refuse i cause
    exact tracked.keep_of_append rfl (List.Perm.of_eq agrees.flights.symm) agrees.tasks
  | allLoaded looks free next ended t agrees =>
    have landed := isBusy_eq_false_iff.mp free
    refine .resting (agrees.flights.trans (tracked.flights_eq_nil free)) fun t ht => ?_
    dsimp only at ht ⊢
    rw [System.isCompleted_congr agrees.tasks]
    exact landed t ht
  | stalled looks free next some => exact tracked.keep_of_tasks rfl (List.Perm.refl _) rfl

end Tracked

/-! ## Histories -/

/-- What callers and workers may do where nobody but its worker completes the task of a load in
flight. -/
def Unmeddled [DecidableEq ι] (w : World ι Model) (a : Action ι) : Prop :=
  a.Possible w ∧ ∀ t ∈ w.system.flights, ¬a.Completes t

instance [DecidableEq ι] (w : World ι Model) (a : Action ι) : Decidable (Unmeddled w a) :=
  inferInstanceAs (Decidable (_ ∧ _))

/-- Every action leaves the flight that there is to the scheduler's current task. -/
theorem Tracked.perform [DecidableEq ι] {w : World ι Model} {a : Action ι} (may : Unmeddled w a)
    (tracked : Tracked w) : Tracked (w.perform a) := by
  obtain ⟨possible, unmeddled⟩ := may
  cases a with
  | register i =>
    simp only [World.perform]
    rcases register_cases w.registry w.system i with ⟨e, refused⟩ | ⟨-, accepted⟩
    · rw [refused]; exact tracked
    · rw [accepted]; exact tracked.keep_of_tasks rfl (List.Perm.refl _) rfl
  | giveBytes i data =>
    have agrees := w.system.agrees_giveBytes i data
    exact tracked.keep_of_tasks rfl (List.Perm.of_eq agrees.flights.symm) agrees.tasks
  | acquire i source m =>
    rcases w.system.acquire_cases i source m with ⟨data, -, -, agrees⟩ | ⟨e, -, -, agrees⟩
    · exact tracked.keep_of_tasks rfl (List.Perm.of_eq agrees.flights.symm) agrees.tasks
    · exact tracked.keep_of_tasks rfl (List.Perm.of_eq agrees.flights.symm) agrees.tasks
  | acquireAll source =>
    have agrees := w.system.agrees_acquireAll w.registry source
    exact tracked.keep_of_tasks rfl (List.Perm.of_eq agrees.flights.symm) agrees.tasks
  | load i =>
    exact tracked.keep_of_tasks rfl (flights_load w.system i) (w.system.tasks_load i)
  | start i =>
    have flights := (flights_start_none w.system i).symm
    exact tracked.keep_of_tasks rfl (List.Perm.of_eq flights) (w.system.tasks_start_none i)
  | fail i reason => exact tracked.keep_of_tasks rfl (List.Perm.refl _) rfl
  | newTask name => exact tracked.keep_of_append rfl (List.Perm.refl _) rfl
  | assign i t => exact tracked.keep_of_tasks rfl (List.Perm.refl _) rfl
  | unassign i => exact tracked.keep_of_tasks rfl (List.Perm.refl _) rfl
  | complete t =>
    -- the one action of a caller that could end a flight behind the scheduler's back
    have completed := w.system.isCompleted_complete possible
    refine tracked.keep rfl (List.Perm.refl _) (Nat.le_of_eq (by simp [World.perform])) ?_ ?_
    · intro u hu
      simp [World.perform, completed, hu]
    · intro u hu
      have distinct : u ≠ t := fun same => unmeddled u hu same.symm
      simp [World.perform, completed, distinct]
  | tick refusal => exact tracked.tick refusal
  | ask i => exact tracked
  | work k =>
    rcases flights_work w.system possible with ⟨flights, tasks⟩ | ⟨flights, tasks⟩
    · exact tracked.keep_of_tasks rfl flights tasks
    · exact tracked.land rfl flights tasks
  | finish r =>
    have flights := flights_finish w.system possible
    have agrees := w.system.agrees_finish r
    cases task : r.task with
    | none =>
      simp only [task, System.completeOf] at flights agrees
      exact tracked.keep_of_tasks rfl flights agrees.tasks
    | some t =>
      simp only [task, System.completeOf] at flights agrees
      exact tracked.land rfl flights agrees.tasks

/-- **At most one load in flight**, in every history that begins with a new scheduler and no flight:
the scheduler is busy exactly while there is one, a tick then changes nothing, and no tick answers
that all is done while there is one. -/
theorem one_load_in_flight [DecidableEq ι] {w : World ι Model} {h : List (Action ι)}
    (scheduler : w.scheduler = { settings := w.scheduler.settings })
    (grounded : w.system.flights = []) (allowed : w.Allows Unmeddled h) :
    let v := w.after h
    v.system.flights.length ≤ 1 ∧
    (v.scheduler.isBusy v.system = true ↔ v.system.flights ≠ []) ∧
    ∀ refusal,
      (v.system.flights ≠ [] →
        v.scheduler.tick refusal v.registry v.system = (.busy, v.scheduler, v.system)) ∧
      ((v.scheduler.tick refusal v.registry v.system).1 = .idle → v.system.flights = []) := by
  have start : Tracked w := .resting grounded fun t ht => by rw [scheduler] at ht; cases ht
  have tracked := World.after_induction (fun v a => Tracked.perform) allowed start
  intro v
  refine ⟨?_, tracked.isBusy_iff, fun refusal => ?_⟩
  · cases tracked with
    | resting none landed => simp [v, none]
    | flying t one current present goesOn looks => simp [v, one]
  · have stays : v.system.flights ≠ [] →
        v.scheduler.tick refusal v.registry v.system = (.busy, v.scheduler, v.system) := by
      intro aloft
      cases tracked with
      | resting none landed => exact absurd none aloft
      | flying t one current present goesOn looks =>
        have busy : v.scheduler.isBusy v.system = true := by simp [v, Scheduler.isBusy, current, goesOn]
        have watches : ¬(v.scheduler.allLoaded = true ∧ ¬v.scheduler.settings.recheck = true) :=
          fun stopped => stopped.2 (looks stopped.1)
        simp only [Scheduler.tick, if_neg watches, busy, if_true]
    refine ⟨stays, fun idle => ?_⟩
    by_cases grounded : v.system.flights = []
    · exact grounded
    · rw [stays grounded] at idle
      cases idle

/-- A loader that fails while its load is in flight, and another that waits. -/
theorem one_load_in_flight_of_pair :
    let h : List (Action Bool) := [.register true, .giveBytes true [1], .register false,
      .giveBytes false [2], .tick none, .work ⟨true, 0⟩, .fail true "stop", .unassign true]
    World.pair.Allows Unmeddled h ∧ (World.pair.after h).system.flights = [0] ∧
    (World.pair.after h).scheduler.tick none (World.pair.after h).registry
      (World.pair.after h).system =
        (.busy, (World.pair.after h).scheduler, (World.pair.after h).system) := by
  intro h
  have allowed : World.pair.Allows Unmeddled h := by decide +kernel
  have aloft : (World.pair.after h).system.flights = [0] := by decide +kernel
  have all := one_load_in_flight rfl rfl allowed
  exact ⟨allowed, aloft, (all.2.2 none).1 (by rw [aloft]; simp)⟩

end ModelLoading.Loading
