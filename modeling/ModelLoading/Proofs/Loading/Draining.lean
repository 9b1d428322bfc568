import ModelLoading.Proofs.Loading.Reachable
import ModelLoading.Proofs.Loading.Settling

/-!
# Settling drains the queue

The scheduler is given ticks until one leaves nothing to come (`World.Settles`), in any realm in which no
run is in progress and the scheduler is not busy. Work that others dispatched before may still start at any
time. The work that the scheduler dispatches now has newer tasks than all of that, so the two can be told
apart (`Work.isNew`, `Run.isNew`), and of the new work and runs there is one at most (`Flight`).

The loaders that wait in the beginning are dispatched one after another (`Draining`). They were never
started, since a started loader has ended where no run is in progress; so each worker runs its loader, and
the loader has ended when the scheduler is free again. That takes one of the waiting loaders away for good.
-/

namespace ModelLoading.Loading

variable {ι Model : Type}

/-! ## What settling is about -/

/-- The loader whose dispatch an event reports. -/
def Event.dispatched? : Event ι → Option ι
  | dispatched i => some i
  | _ => none

/-- The loaders whose dispatch was logged, in order. -/
def System.dispatches (s : System ι Model) : List ι := s.log.filterMap (·.event.dispatched?)

/-- The action is a step of a worker. -/
def Action.isStep : Action ι → Bool
  | .work _ | .finish _ => true
  | _ => false

namespace World

/-- The registered loaders that wait to be run, in order. -/
def waiting (w : World ι Model) : List ι :=
  w.registry.entries.filter fun i => (w.system.loaders i).isEligible

/-- Where settling may begin: no run is in progress, the scheduler is not busy, the loaders that wait were
never started, and dispatched work that has not started is not theirs. -/
structure Quiet (w : World ι Model) : Prop where
  answers : w.answers = []
  runs : w.system.runs = []
  free : w.scheduler.isBusy w.system = false
  distinct : w.registry.entries.Nodup
  unstarted : ∀ i ∈ w.waiting, (w.system.loaders i).started = false
  queued : ∀ k ∈ w.system.queue, k.loader ∉ w.waiting ∧ k.task < w.system.tasks.length

end World

/-! ## New work -/

/-- The task of the work is not one of the first so many. -/
def Work.isNew (n : Nat) (k : Work ι) : Bool := n ≤ k.task

def Run.isNew (n : Nat) (r : Run ι) : Bool := r.task.any (n ≤ ·)

/-- The scheduler waits for a new task that is not completed. -/
structure Awaits (w : World ι Model) (s : System ι Model) (c : Scheduler) (t : TaskId) : Prop where
  new : w.system.tasks.length ≤ t
  current : c.current = some t
  present : t < s.tasks.length
  goesOn : s.isCompleted t = false

/-- What has become of the loaders dispatched so far: all of them have ended, or the last one waits for its
worker, or is being run. -/
inductive Flight (w : World ι Model) (s : System ι Model) (c : Scheduler) : List ι → Prop
  | landed {done : List ι}
      (queue : s.queue.filter (·.isNew w.system.tasks.length) = [])
      (runs : s.runs.filter (·.isNew w.system.tasks.length) = [])
      (all : ∀ i ∈ done, ∃ t, s.loaders i = (w.system.loaders i).delivered t)
      (free : c.isBusy s = false) : Flight w s c done
  | queued {done : List ι} (i : ι) (t : TaskId)
      (queue : s.queue.filter (·.isNew w.system.tasks.length) = [⟨i, t⟩])
      (runs : s.runs.filter (·.isNew w.system.tasks.length) = [])
      (all : ∀ j ∈ done, ∃ t, s.loaders j = (w.system.loaders j).delivered t)
      (own : s.loaders i = (w.system.loaders i).assign t) (awaits : Awaits w s c t) :
      Flight w s c (done ++ [i])
  | running {done : List ι} (i : ι) (t : TaskId)
      (queue : s.queue.filter (·.isNew w.system.tasks.length) = [])
      (runs : s.runs.filter (·.isNew w.system.tasks.length) =
        [⟨i, (w.system.loaders i).bytes, some t⟩])
      (all : ∀ j ∈ done, ∃ t, s.loaders j = (w.system.loaders j).delivered t)
      (own : s.loaders i = (w.system.loaders i).underway t) (awaits : Awaits w s c t) :
      Flight w s c (done ++ [i])

/-- What has become of a quiet world by ticks and workers: the loaders dispatched so far are the first of
those that waited, the others still wait, no other registered loader does, and all that is not new is
foreign to them. -/
structure Draining (w : World ι Model) (s : System ι Model) (c : Scheduler) (done : List ι) : Prop where
  settings : c.settings = w.scheduler.settings
  flag : c.allLoaded = w.scheduler.allLoaded
  tasks : w.system.tasks.length ≤ s.tasks.length
  order : done <+: w.waiting
  waits : ∀ i ∈ w.waiting, i ∉ done → ∃ t, s.loaders i = { w.system.loaders i with task := t }
  others : ∀ i ∈ w.registry.entries, i ∉ w.waiting → (s.loaders i).isEligible = false
  queued : ∀ k ∈ s.queue, k.isNew w.system.tasks.length = false → k.loader ∉ w.waiting
  running : ∀ r ∈ s.runs, r.isNew w.system.tasks.length = false → r.loader ∉ w.waiting
  flight : Flight w s c done

section Flights

variable {w : World ι Model} {s t : System ι Model} {c : Scheduler} {done : List ι}

/-- While the scheduler is free, all that was dispatched has ended. -/
theorem Flight.of_free (flight : Flight w s c done) (free : c.isBusy s = false) :
    s.queue.filter (·.isNew w.system.tasks.length) = [] ∧
    s.runs.filter (·.isNew w.system.tasks.length) = [] ∧
    ∀ i ∈ done, ∃ t, s.loaders i = (w.system.loaders i).delivered t := by
  have open_ : ∀ t, Awaits w s c t → c.isBusy s = true := by
    intro t awaits
    simp [Scheduler.isBusy, awaits.current, awaits.goesOn]
  cases flight with
  | landed queue runs all => exact ⟨queue, runs, all⟩
  | queued i t _ _ _ _ awaits => rw [open_ t awaits] at free; cases free
  | running i t _ _ _ _ awaits => rw [open_ t awaits] at free; cases free

/-- Steps on other loaders and older tasks leave the flight. -/
theorem Flight.keep (flight : Flight w s c done) (loaders : ∀ i ∈ done, t.loaders i = s.loaders i)
    (length : s.tasks.length ≤ t.tasks.length)
    (completed : ∀ k, s.isCompleted k = true → t.isCompleted k = true)
    (open_ : ∀ k, w.system.tasks.length ≤ k → s.isCompleted k = false → t.isCompleted k = false)
    (queue : t.queue.filter (·.isNew w.system.tasks.length) =
      s.queue.filter (·.isNew w.system.tasks.length))
    (runs : t.runs.filter (·.isNew w.system.tasks.length) =
      s.runs.filter (·.isNew w.system.tasks.length)) : Flight w t c done := by
  have landed : ∀ {before : List ι}, (∀ i ∈ before, i ∈ done) →
      (∀ i ∈ before, ∃ t, s.loaders i = (w.system.loaders i).delivered t) →
      ∀ i ∈ before, ∃ k, t.loaders i = (w.system.loaders i).delivered k := by
    intro before inside all i hi
    obtain ⟨k, ended⟩ := all i hi
    exact ⟨k, (loaders i (inside i hi)).trans ended⟩
  have waits : ∀ k, Awaits w s c k → Awaits w t c k := fun k awaits =>
    ⟨awaits.new, awaits.current, Nat.lt_of_lt_of_le awaits.present length,
      open_ k awaits.new awaits.goesOn⟩
  cases flight with
  | landed queue' runs' all free =>
    refine .landed (queue.trans queue') (runs.trans runs') (landed (fun i hi => hi) all) ?_
    exact isBusy_eq_false_iff.mpr fun k current =>
      completed k (isBusy_eq_false_iff.mp free k current)
  | queued i k queue' runs' all own awaits =>
    exact .queued i k (queue.trans queue') (runs.trans runs')
      (landed (fun j hj => List.mem_append_left _ hj) all) ((loaders i (by simp)).trans own)
      (waits k awaits)
  | running i k queue' runs' all own awaits =>
    exact .running i k (queue.trans queue') (runs.trans runs')
      (landed (fun j hj => List.mem_append_left _ hj) all) ((loaders i (by simp)).trans own)
      (waits k awaits)

end Flights

/-! ## Steps of workers -/

section Steps

variable [DecidableEq ι] {w : World ι Model} {s t : System ι Model} {c : Scheduler} {done : List ι}

omit [DecidableEq ι] in
/-- A step on a loader that did not wait. -/
theorem Draining.stray (draining : Draining w s c done) {j : ι} (other : j ∉ w.waiting)
    (same : ∀ i, i ≠ j → t.loaders i = s.loaders i)
    (barred : (t.loaders j).isEligible = true → (s.loaders j).isEligible = true)
    (length : t.tasks.length = s.tasks.length)
    (completed : ∀ k, s.isCompleted k = true → t.isCompleted k = true)
    (open_ : ∀ k, w.system.tasks.length ≤ k → s.isCompleted k = false → t.isCompleted k = false)
    (queue : t.queue ⊆ s.queue)
    (newQueue : t.queue.filter (·.isNew w.system.tasks.length) =
      s.queue.filter (·.isNew w.system.tasks.length))
    (runs : ∀ r ∈ t.runs, r.loader = j ∨ r ∈ s.runs)
    (newRuns : t.runs.filter (·.isNew w.system.tasks.length) =
      s.runs.filter (·.isNew w.system.tasks.length)) : Draining w t c done := by
  have waiting : ∀ i ∈ w.waiting, t.loaders i = s.loaders i := by
    intro i hi
    exact same i fun eq => other (eq ▸ hi)
  refine ⟨draining.settings, draining.flag, length ▸ draining.tasks, draining.order,
    fun i hi left => ?_, fun i hi left => ?_, fun k hk old => ?_, fun r hr old => ?_, ?_⟩
  · rw [waiting i hi]
    exact draining.waits i hi left
  · have before := draining.others i hi left
    by_cases eq : i = j
    · subst eq
      exact Bool.eq_false_iff.mpr fun eligible => by simp [barred eligible] at before
    · rw [same i eq]
      exact before
  · exact draining.queued k (queue hk) old
  · rcases runs r hr with rfl | before
    · exact other
    · exact draining.running r before old
  · exact draining.flight.keep (fun i hi => waiting i (draining.order.subset hi)) (Nat.le_of_eq length.symm)
      completed open_ newQueue newRuns

omit [DecidableEq ι] in
/-- To complete an older task completes no new one. -/
theorem completeOf_old {n : Nat} {o : Option TaskId} (fits : n ≤ s.tasks.length)
    (old : ∀ t, o = some t → t < n) :
    (∀ k, s.isCompleted k = true → (s.completeOf o).isCompleted k = true) ∧
    ∀ k, n ≤ k → s.isCompleted k = false → (s.completeOf o).isCompleted k = false := by
  cases o with
  | none => exact ⟨fun _ h => h, fun _ _ h => h⟩
  | some t =>
    have small := old t rfl
    have completed := s.isCompleted_complete (Nat.lt_of_lt_of_le small fits)
    refine ⟨fun k h => ?_, fun k new h => ?_⟩
    · simp [System.completeOf, completed, h]
    · have distinct : k ≠ t := Nat.ne_of_gt (Nat.lt_of_lt_of_le small new)
      simp [System.completeOf, completed, h, distinct]

theorem Draining.work_stray (draining : Draining w s c done) {k : Work ι} (h : k ∈ s.queue)
    (old : k.isNew w.system.tasks.length = false) : Draining w (s.work k).2 c done := by
  have small : k.task < w.system.tasks.length := by simpa [Work.isNew] using old
  have newQueue : (s.work k).2.queue.filter (·.isNew w.system.tasks.length) =
      s.queue.filter (·.isNew w.system.tasks.length) := by
    rw [queue_work, ← List.erase_filter, List.erase_of_not_mem (by simp [old])]
  have queue : (s.work k).2.queue ⊆ s.queue := by
    rw [queue_work]
    exact List.erase_subset
  have length := length_tasks_work s k
  have other := draining.queued k h old
  rcases (s.loaders k.loader).barred_or_free with barred | ⟨loaded, started⟩
  · have agrees := s.work_of_barred k barred
    obtain ⟨completed, open_⟩ := completeOf_old (o := some k.task) draining.tasks
      (by rintro t ⟨⟩; exact small)
    refine draining.stray other (fun i _ => by rw [agrees.loaders]; rfl) (by rw [agrees.loaders]; exact id)
      length (fun j hj => ?_) (fun j new hj => ?_) queue newQueue (fun r hr => ?_) ?_
    · rw [System.isCompleted_congr agrees.tasks]; exact completed j hj
    · rw [System.isCompleted_congr agrees.tasks]; exact open_ j new hj
    · rw [agrees.runs] at hr; exact .inr hr
    · rw [agrees.runs]; rfl
  · have agrees := s.work_of_free k loaded started
    refine draining.stray other (fun i ne => ?_) (fun eligible => ?_) length (fun j hj => ?_)
      (fun j new hj => ?_) queue newQueue (fun r hr => ?_) ?_
    · rw [agrees.loaders]
      exact s.update_of_ne ne fun l => { l with started := true, phase := .loading, bytes := none }
    · rw [agrees.loaders] at eligible
      simp [Loader.isEligible] at eligible
    · rw [System.isCompleted_congr agrees.tasks]; exact hj
    · rw [System.isCompleted_congr agrees.tasks]; exact hj
    · rw [agrees.runs, List.mem_append, List.mem_singleton] at hr
      rcases hr with before | rfl
      · exact .inr before
      · exact .inl rfl
    · rw [agrees.runs, List.filter_append]
      simp [Run.isNew, System.runOf, Nat.not_le.mpr small]

theorem Draining.finish_stray (draining : Draining w s c done) {r : Run ι} (h : r ∈ s.runs)
    (old : r.isNew w.system.tasks.length = false) : Draining w (s.finish r) c done := by
  have agrees := s.agrees_finish r
  have small : ∀ t, r.task = some t → t < w.system.tasks.length := by
    intro t task
    simpa [Run.isNew, task] using old
  obtain ⟨completed, open_⟩ := completeOf_old draining.tasks small
  have tasks : (s.finish r).tasks = (s.completeOf r.task).tasks := by
    rw [agrees.tasks]
    cases r.task <;> rfl
  refine draining.stray (draining.running r h old) (fun i ne => ?_) (fun eligible => ?_)
    (length_tasks_finish s r) (fun k hk => ?_) (fun k new hk => ?_) ?_ ?_ (fun q hq => ?_) ?_
  · rw [s.loaders_finish, if_neg ne]
  · rw [s.loaders_finish, if_pos rfl] at eligible
    have ended := Loader.isLoaded_finish (s.loaders r.loader) ((s.loaders r.loader).outcome r.taken)
    exact absurd ((Loader.isEligible_iff _).mp eligible).1 (Loader.ne_pending_of_isLoaded _ ended)
  · rw [System.isCompleted_congr tasks]; exact completed k hk
  · rw [System.isCompleted_congr tasks]; exact open_ k new hk
  · rw [queue_finish]; exact List.Subset.refl _
  · rw [queue_finish]
  · rw [agrees.runs] at hq
    exact .inr (List.mem_of_mem_erase hq)
  · rw [agrees.runs, ← List.erase_filter, List.erase_of_not_mem (by simp [old])]

omit [DecidableEq ι] in
/-- The loader dispatched last is one that waited, and it was not dispatched before. -/
theorem Draining.last (draining : Draining w s c done) (quiet : w.Quiet) {before : List ι} {i : ι}
    (split : done = before ++ [i]) : i ∈ w.waiting ∧ ∀ j ∈ before, j ≠ i := by
  have inside := draining.order
  have distinct : (before ++ [i]).Nodup :=
    split ▸ (quiet.distinct.filter fun i => (w.system.loaders i).isEligible).sublist inside.sublist
  refine ⟨inside.subset (by simp [split]), fun j hj eq => ?_⟩
  exact (List.nodup_append.mp distinct).2.2 j hj i (by simp) eq

omit [DecidableEq ι] in
/-- A step on a loader that was dispatched. -/
theorem Draining.own (draining : Draining w s c done) {i : ι} (member : i ∈ done)
    (same : ∀ j, j ≠ i → t.loaders j = s.loaders j) (length : t.tasks.length = s.tasks.length)
    (queue : t.queue ⊆ s.queue)
    (runs : ∀ r ∈ t.runs, r.isNew w.system.tasks.length = true ∨ r ∈ s.runs)
    (flight : Flight w t c done) : Draining w t c done := by
  refine ⟨draining.settings, draining.flag, length ▸ draining.tasks, draining.order,
    fun j hj left => ?_, fun j hj other => ?_, fun k hk old => ?_, fun r hr old => ?_, flight⟩
  · rw [same j fun eq => left (eq ▸ member)]
    exact draining.waits j hj left
  · rw [same j fun eq => other (eq ▸ draining.order.subset member)]
    exact draining.others j hj other
  · exact draining.queued k (queue hk) old
  · rcases runs r hr with new | before
    · rw [new] at old; cases old
    · exact draining.running r before old

/-- A worker starts on the loader that was dispatched last: nobody else has run it. -/
theorem Draining.work_own (draining : Draining w s c done) (quiet : w.Quiet) {k : Work ι}
    (h : k ∈ s.queue) (new : k.isNew w.system.tasks.length = true) : Draining w (s.work k).2 c done := by
  have inside : k ∈ s.queue.filter (·.isNew w.system.tasks.length) := List.mem_filter.mpr ⟨h, new⟩
  cases draining.flight with
  | landed queue => rw [queue] at inside; cases inside
  | running i t queue => rw [queue] at inside; cases inside
  | queued i t queue runs all own awaits =>
    rw [queue, List.mem_singleton] at inside
    subst inside
    obtain ⟨waited, distinct⟩ := draining.last quiet rfl
    -- it is as the dispatch left it, and it had waited without ever being started
    have phase := ((Loader.isEligible_iff _).mp (List.mem_filter.mp waited).2).1
    have loaded : (s.loaders i).isLoaded = false := by
      simp [own, Loader.assign, Loader.isLoaded, phase]
    have started : (s.loaders i).started = false := by
      rw [own]
      exact quiet.unstarted i waited
    have agrees := s.work_of_free ⟨i, t⟩ loaded started
    have same : ∀ j, j ≠ i → (s.work ⟨i, t⟩).2.loaders j = s.loaders j := by
      intro j ne
      rw [agrees.loaders]
      exact s.update_of_ne ne fun l => { l with started := true, phase := .loading, bytes := none }
    have run : s.runOf i (some t) = ⟨i, (w.system.loaders i).bytes, some t⟩ := by
      simp [System.runOf, own, Loader.assign]
    refine draining.own (by simp) same (length_tasks_work s ⟨i, t⟩) ?_ (fun r hr => ?_) ?_
    · rw [queue_work]; exact List.erase_subset
    · rw [agrees.runs, List.mem_append, List.mem_singleton] at hr
      rcases hr with before | rfl
      · exact .inr before
      · exact .inl (by simpa [Run.isNew, System.runOf] using awaits.new)
    · refine .running i t ?_ ?_ (fun j hj => ?_) ?_ ⟨awaits.new, awaits.current, ?_, ?_⟩
      · rw [queue_work, ← List.erase_filter, queue, List.erase_cons_head]
      · rw [agrees.runs, List.filter_append, runs, run]
        simp [Run.isNew, awaits.new]
      · rw [same j (distinct j hj)]
        exact all j hj
      · rw [agrees.loaders]
        simp only [System.update_self, own]
        rfl
      · rw [length_tasks_work]; exact awaits.present
      · rw [System.isCompleted_congr agrees.tasks]; exact awaits.goesOn

/-- A worker ends the run of the loader that was dispatched last, and completes the task that the scheduler
waits for. -/
theorem Draining.finish_own (draining : Draining w s c done) (quiet : w.Quiet) {r : Run ι}
    (h : r ∈ s.runs) (new : r.isNew w.system.tasks.length = true) : Draining w (s.finish r) c done := by
  have inside : r ∈ s.runs.filter (·.isNew w.system.tasks.length) := List.mem_filter.mpr ⟨h, new⟩
  cases draining.flight with
  | landed _ runs => rw [runs] at inside; cases inside
  | queued i t _ runs => rw [runs] at inside; cases inside
  | running i t queue runs all own awaits =>
    rw [runs, List.mem_singleton] at inside
    obtain ⟨-, distinct⟩ := draining.last quiet rfl
    have loader : r.loader = i := by rw [inside]
    have agrees := s.agrees_finish r
    have same : ∀ j, j ≠ i → (s.finish r).loaders j = s.loaders j := by
      intro j ne
      rw [s.loaders_finish, loader, if_neg ne]
    refine draining.own (by simp) same (length_tasks_finish s r) ?_ (fun q hq => ?_) ?_
    · rw [queue_finish]; exact List.Subset.refl _
    · rw [agrees.runs] at hq
      exact .inr (List.mem_of_mem_erase hq)
    · refine .landed ?_ ?_ (fun j hj => ?_) (isBusy_eq_false_iff.mpr fun k current => ?_)
      · rw [queue_finish]; exact queue
      · rw [agrees.runs, ← List.erase_filter, runs, inside, List.erase_cons_head]
      · rcases List.mem_append.mp hj with before | last
        · rw [same j (distinct j before)]
          exact all j before
        · obtain rfl := List.mem_singleton.mp last
          refine ⟨t, ?_⟩
          rw [s.loaders_finish, if_pos loader.symm, own, inside]
          rfl
      · -- the end of the run completes the very task that the scheduler waits for
        obtain rfl := Option.some.inj (awaits.current.symm.trans current)
        rw [System.isCompleted_congr agrees.tasks, inside]
        exact (s.isCompleted_complete awaits.present t).trans (by simp)

end Steps

/-! ## Ticks -/

section Ticks

variable [DecidableEq ι] {w : World ι Model} {s : System ι Model} {c : Scheduler} {done : List ι}

/-- While all that was dispatched has ended, the registered loaders that wait are those not yet
dispatched. -/
theorem Draining.eligible_iff (draining : Draining w s c done)
    (all : ∀ i ∈ done, ∃ t, s.loaders i = (w.system.loaders i).delivered t) {i : ι}
    (registered : i ∈ w.registry.entries) : (s.loaders i).isEligible =
      (decide (i ∉ done) && (w.system.loaders i).isEligible) := by
  by_cases before : i ∈ done
  · obtain ⟨t, new⟩ := all i before
    have ended := (w.system.loaders i).isLoaded_delivered t
    rw [← new] at ended
    simp [Loader.isEligible, Loader.ne_pending_of_isLoaded _ ended, before]
  · cases waits : (w.system.loaders i).isEligible with
    | true =>
      obtain ⟨t, still⟩ := draining.waits i (List.mem_filter.mpr ⟨registered, waits⟩) before
      have same : (s.loaders i).isEligible = (w.system.loaders i).isEligible := by
        rw [still]
        rfl
      simp [same, waits, before]
    | false =>
      have other : i ∉ w.waiting := fun inside => by
        have eligible := (List.mem_filter.mp inside).2
        rw [waits] at eligible
        cases eligible
      simp [draining.others i registered other]

/-- A free scheduler finds the first loader that is left. -/
theorem Draining.next? (draining : Draining w s c done) (quiet : w.Quiet)
    (free : c.isBusy s = false) {left : List ι} (split : done ++ left = w.waiting) :
    w.registry.next? s = left.head? := by
  obtain ⟨-, -, all⟩ := draining.flight.of_free free
  exact find?_of_split quiet.distinct split fun i hi => draining.eligible_iff all hi

/-- What a free scheduler finds is a loader that waited, and still does. -/
theorem Draining.found (draining : Draining w s c done) (quiet : w.Quiet)
    (free : c.isBusy s = false) {i : ι} (next : w.registry.next? s = some i) :
    done ++ [i] <+: w.waiting ∧ i ∈ w.waiting ∧ i ∉ done ∧
      ∃ t, s.loaders i = { w.system.loaders i with task := t } := by
  obtain ⟨left, split⟩ := draining.order
  rw [draining.next? quiet free split] at next
  obtain ⟨left, rfl⟩ := List.head?_eq_some_iff.mp next
  have distinct : (done ++ i :: left).Nodup := split ▸ quiet.distinct.filter _
  have new : i ∉ done := fun before =>
    (List.nodup_append.mp distinct).2.2 i before i List.mem_cons_self rfl
  have waited : i ∈ w.waiting := by simp [← split]
  exact ⟨⟨left, by simp [← split]⟩, waited, new, draining.waits i waited new⟩

/-- A tick dispatches the first loader that is left. -/
theorem Draining.dispatch (draining : Draining w s c done) (quiet : w.Quiet)
    (free : c.isBusy s = false) {i : ι} (next : w.registry.next? s = some i) :
    Draining w (s.dispatch i).2
      { c with current := some s.tasks.length, dispatched := c.dispatched + 1 } (done ++ [i]) := by
  obtain ⟨order, waited, new, t, still⟩ := draining.found quiet free next
  obtain ⟨queue, runs, all⟩ := draining.flight.of_free free
  have agrees := s.agrees_dispatch i
  have same : ∀ j, j ≠ i → (s.dispatch i).2.loaders j = s.loaders j := by
    intro j ne
    rw [agrees.loaders]
    exact s.update_of_ne ne (·.assign s.tasks.length)
  refine ⟨draining.settings, draining.flag, ?_, order, fun j hj left => ?_, fun j hj other => ?_,
    fun k hk old => ?_, draining.running, ?_⟩
  · rw [agrees.tasks, List.length_append]
    exact Nat.le_add_right_of_le draining.tasks
  · simp only [List.mem_append, List.mem_singleton, not_or] at left
    rw [same j left.2]
    exact draining.waits j hj left.1
  · rw [same j fun eq => other (eq ▸ waited)]
    exact draining.others j hj other
  · rw [agrees.queue, List.mem_append, List.mem_singleton] at hk
    rcases hk with before | rfl
    · exact draining.queued k before old
    · simp [Work.isNew, draining.tasks] at old
  · refine .queued i s.tasks.length ?_ ?_ (fun j hj => ?_) ?_ ⟨draining.tasks, rfl, ?_, ?_⟩
    · rw [agrees.queue, List.filter_append, queue]
      simp [Work.isNew, draining.tasks]
    · rw [agrees.runs]; exact runs
    · rw [same j fun eq => new (eq ▸ hj)]
      exact all j hj
    · rw [agrees.loaders]
      simp only [System.update_self, still]
      rfl
    · rw [agrees.tasks, List.length_append]
      exact Nat.lt_succ_self _
    · rw [System.isCompleted_congr agrees.tasks]
      exact s.isCompleted_newTask_self _

/-- A tick that starts no thread leaves the loader to a later one. -/
theorem Draining.refuse (draining : Draining w s c done) (quiet : w.Quiet)
    (free : c.isBusy s = false) {i : ι} (next : w.registry.next? s = some i) (cause : Files.IoError) :
    Draining w (s.refuse i cause) c done := by
  obtain ⟨-, waited, new, t, still⟩ := draining.found quiet free next
  have phase := ((Loader.isEligible_iff _).mp (List.mem_filter.mp waited).2).1
  have agrees := s.agrees_refuse i cause
  have same : ∀ j, j ≠ i → (s.refuse i cause).loaders j = s.loaders j := by
    intro j ne
    rw [agrees.loaders]
    exact s.update_of_ne ne fun l => (l.assign s.tasks.length).unassign
  have length : s.tasks.length ≤ (s.refuse i cause).tasks.length := by
    rw [agrees.tasks, List.length_append]
    exact Nat.le_add_right ..
  obtain ⟨queue, runs, all⟩ := draining.flight.of_free free
  refine ⟨draining.settings, draining.flag, Nat.le_trans draining.tasks length, draining.order,
    fun j hj left => ?_, fun j hj other => ?_, draining.queued, draining.running,
    .landed queue runs (fun j hj => ?_) (isBusy_eq_false_iff.mpr fun k current => ?_)⟩
  · by_cases eq : j = i
    · -- pending again, without a task
      subst eq
      refine ⟨none, ?_⟩
      rw [agrees.loaders]
      simp only [System.update_self, still]
      simp [Loader.assign, Loader.unassign, phase]
    · rw [same j eq]
      exact draining.waits j hj left
  · rw [same j fun eq => other (eq ▸ waited)]
    exact draining.others j hj other
  · rw [same j fun eq => new (eq ▸ hj)]
    exact all j hj
  · have completed := isBusy_eq_false_iff.mp free k current
    rw [System.isCompleted_of_append agrees.tasks (System.isCompleted_lt completed)]
    exact completed

end Ticks

end ModelLoading.Loading
