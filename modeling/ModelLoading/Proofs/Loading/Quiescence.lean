import ModelLoading.Proofs.Loading.Draining

/-!
# The end of settling

From a quiet world, ticks and workers lead on (`Onward`) until a tick leaves nothing to come, and then the
loaders that waited are the ones that were dispatched, in order, and have ended (`Drained`). Settling does
come to an end: workers have only so many steps to take, two for each load, and there are no more loads
than dispatched work and waiting loaders (`steps_le`); where a tick finds the scheduler busy, there is a
step for some worker to take (`Onward.can_step`); and the way that lets workers finish between ticks is
one of the ways of settling (`settles_settle`).

Every world of a realm that comes of a fresh one is quiet, if no run is in progress, the scheduler is not
busy, and no worker was dispatched for a waiting loader that has yet to start on it. The last condition is
needed (`settling_leaves_a_loader_to_an_earlier_worker`).
-/

namespace ModelLoading.Loading

variable {ι Model : Type} [DecidableEq ι]

/-! ## What is logged -/

section Log

variable (s : System ι Model)

omit [DecidableEq ι] in
theorem System.dispatches_append {s t : System ι Model} {more : List (Entry ι)}
    (log : t.log = s.log ++ more) :
    t.dispatches = s.dispatches ++ more.filterMap (·.event.dispatched?) := by
  simp only [dispatches, log, List.filterMap_append]

theorem dispatches_work (k : Work ι) : (s.work k).2.dispatches = s.dispatches := by
  rcases (s.loaders k.loader).barred_or_free with barred | ⟨loaded, started⟩
  · exact (System.dispatches_append (System.log_start_of_barred { s with queue := s.queue.erase k }
      k.loader barred (some k.task))).trans (List.append_nil _)
  · unfold System.dispatches
    exact congrArg (List.filterMap _) (System.log_start_of_free { s with queue := s.queue.erase k }
      k.loader loaded started (some k.task))

theorem dispatches_finish (r : Run ι) : (s.finish r).dispatches = s.dispatches := by
  rw [System.dispatches_append (s.log_finish r)]
  unfold outcomeEvent
  cases (s.loaders r.loader).outcome r.taken <;> simp [Event.dispatched?]

/-- A tick logs the dispatch that it answers with. -/
theorem dispatches_tick (c : Scheduler) (refusal : Option Files.IoError) (r : Registry ι) :
    (c.tick refusal r s).2.2.dispatches = s.dispatches ++ (c.tick refusal r s).1.dispatched?.toList := by
  unfold Scheduler.tick
  split
  · simp [Tick.dispatched?]
  · split
    · simp [Tick.dispatched?]
    · split
      · rename_i i next
        split
        · exact System.dispatches_append (s.log_dispatch i)
        · exact System.dispatches_append (s.log_refuse i _)
      · split
        · split
          · simp [Tick.dispatched?]
          · exact System.dispatches_append (s.log_note .caller (.allLoaded r.entries.length))
        · simp [Tick.dispatched?]

end Log

/-! ## Runs -/

/-- A world on the way from a quiet one. -/
structure Onward (w v : World ι Model) : Prop where
  registry : v.registry = w.registry
  draining : Draining w v.system v.scheduler v.dispatched
  log : v.system.dispatches = w.system.dispatches ++ v.dispatched
  count : v.scheduler.dispatched = w.scheduler.dispatched + v.dispatched.length
  looks : v.dispatched ≠ [] → w.scheduler.allLoaded = true → w.scheduler.settings.recheck = true

section Runs

variable {w v : World ι Model}

omit [DecidableEq ι] in
theorem World.Quiet.dispatched (quiet : w.Quiet) : w.dispatched = [] := by
  simp [World.dispatched, quiet.answers]

omit [DecidableEq ι] in
/-- Nothing has been dispatched in the beginning, and all work is old. -/
theorem World.Quiet.onward (quiet : w.Quiet) : Onward w w := by
  have old : w.system.queue.filter (·.isNew w.system.tasks.length) = [] := by
    refine List.filter_eq_nil_iff.mpr fun k hk => ?_
    simpa [Work.isNew] using (quiet.queued k hk).2
  have start : Draining w w.system w.scheduler [] := by
    refine ⟨rfl, rfl, Nat.le_refl _, List.nil_prefix, fun i _ _ => ⟨_, rfl⟩, fun i registered left => ?_,
      fun k hk _ => (quiet.queued k hk).1, by simp [quiet.runs], ?_⟩
    · simpa [World.waiting, registered] using left
    · exact .landed old (by simp [quiet.runs]) (by simp) quiet.free
  have none := quiet.dispatched
  exact ⟨rfl, none ▸ start, by simp [none], by simp [none], by simp [none]⟩

omit [DecidableEq ι] in
/-- The flag and the settings of the scheduler are those that it had in the beginning. -/
theorem Onward.looks_of (onward : Onward w v)
    (looks : v.scheduler.allLoaded = true → v.scheduler.settings.recheck = true) :
    w.scheduler.allLoaded = true → w.scheduler.settings.recheck = true := by
  rw [← onward.draining.flag, ← onward.draining.settings]
  exact looks

theorem Onward.tick (onward : Onward w v) (quiet : w.Quiet) (refusal : Option Files.IoError)
    (goesOn : (v.scheduler.tick refusal v.registry v.system).1.isUnsettled = true) :
    Onward w (v.perform (.tick refusal)) := by
  have log := dispatches_tick v.system v.scheduler refusal v.registry
  have dispatched := dispatched_tick v refusal
  have rule := tickRule v.scheduler refusal v.registry v.system
  simp only [World.perform] at dispatched ⊢
  generalize v.scheduler.tick refusal v.registry v.system = x at rule log dispatched goesOn ⊢
  rw [onward.log, List.append_assoc] at log
  have keep : x.1.dispatched? = none → Draining w x.2.2 x.2.1 v.dispatched →
      x.2.1.dispatched = v.scheduler.dispatched →
      Onward w { v with scheduler := x.2.1, system := x.2.2, answers := v.answers ++ [x.1] } := by
    intro silent draining count
    rw [silent, Option.toList_none, List.append_nil] at dispatched log
    refine ⟨onward.registry, ?_, ?_, ?_, ?_⟩
    all_goals rw [dispatched]
    exacts [draining, log, count.trans onward.count, onward.looks]
  have draining := onward.draining
  cases rule with
  | idle flag once => cases goesOn
  | busy looks busy => exact keep rfl draining rfl
  | dispatched looks free i next starts =>
    rw [onward.registry] at next
    refine ⟨onward.registry, ?_, ?_, ?_, fun _ => onward.looks_of looks⟩
    all_goals rw [dispatched]
    · exact draining.dispatch quiet free next
    · exact log
    · simp [onward.count, Tick.dispatched?, Nat.add_assoc]
  | refused looks free i next cause refuses =>
    rw [onward.registry] at next
    exact keep rfl (draining.refuse quiet free next cause) rfl
  | allLoaded looks free next ended t agrees => cases goesOn
  | stalled looks free next some => cases goesOn

theorem Onward.work (onward : Onward w v) (quiet : w.Quiet) {k : Work ι} (h : k ∈ v.system.queue) :
    Onward w (v.perform (.work k)) := by
  refine ⟨onward.registry, ?_, (dispatches_work v.system k).trans onward.log, onward.count,
    onward.looks⟩
  cases new : k.isNew w.system.tasks.length with
  | false => exact onward.draining.work_stray h new
  | true => exact onward.draining.work_own quiet h new

theorem Onward.finish (onward : Onward w v) (quiet : w.Quiet) {r : Run ι} (h : r ∈ v.system.runs) :
    Onward w (v.perform (.finish r)) := by
  refine ⟨onward.registry, ?_, (dispatches_finish v.system r).trans onward.log, onward.count,
    onward.looks⟩
  cases new : r.isNew w.system.tasks.length with
  | false => exact onward.draining.finish_stray h new
  | true => exact onward.draining.finish_own quiet h new

/-- As long as every tick leaves something to come, ticks and workers lead on. -/
theorem World.Quiet.after (quiet : w.Quiet) {run : List (Action ι)} (unsettled : w.Unsettled run) :
    Onward w (w.after run) := by
  refine World.after_induction (I := fun v => (∀ y ∈ v.answers, y.isUnsettled = true) → Onward w v)
    (fun v a may before goesOn => ?_) unsettled.allowed (fun _ => quiet.onward) unsettled.goesOn
  cases a with
  | tick refusal =>
    simp only [World.perform, List.mem_append, List.mem_singleton] at goesOn
    exact (before fun y hy => goesOn y (.inl hy)).tick quiet refusal (goesOn _ (.inr rfl))
  | work k => exact (before goesOn).work quiet may
  | finish r => exact (before goesOn).finish quiet may
  | _ => exact may.elim

end Runs

/-! ## The end -/

/-- What settling leaves behind where loaders were looked at. -/
structure Drained (w : World ι Model) (x : Tick ι × Scheduler × System ι Model) : Prop where
  /-- The loaders that waited were dispatched, in order, and no others. -/
  dispatched : x.2.2.dispatches = w.system.dispatches ++ w.waiting
  count : x.2.1.dispatched = w.scheduler.dispatched + w.waiting.length
  /-- They hold what their decoders make of their bytes. -/
  delivered : ∀ i ∈ w.waiting, ∃ t, x.2.2.loaders i = (w.system.loaders i).delivered t
  ended : ∀ i ∈ w.waiting, (x.2.2.loaders i).isLoaded = true
  /-- Loaders that have not ended are counted. -/
  answer : x.1 = .allLoaded ∨ x.1 = .stalled (w.registry.pendingCount x.2.2)
  all : x.1 = .allLoaded ↔ ∀ i ∈ w.registry.entries, (x.2.2.loaders i).isLoaded = true

/-- The end of settling. -/
structure Standstill (w : World ι Model) (x : Tick ι × Scheduler × System ι Model) : Prop where
  answer : x.1 = .idle ∨ x.1 = .allLoaded ∨ ∃ n, x.1 = .stalled n
  /-- Nothing is looked at where all was loaded before and the scheduler is not to look again. -/
  idle : x.1 = .idle ↔ w.scheduler.allLoaded = true ∧ w.scheduler.settings.recheck = false
  untouched : x.1 = .idle → x.2.2.dispatches = w.system.dispatches
  drained : x.1 ≠ .idle → Drained w x

section Ends

variable {w v : World ι Model} {x : Tick ι × Scheduler × System ι Model}

/-- Where a free scheduler finds nothing, all loaders that waited were dispatched and have ended. -/
theorem Onward.standstill (onward : Onward w v) (quiet : w.Quiet)
    (looks : v.scheduler.allLoaded = true → v.scheduler.settings.recheck = true)
    (free : v.scheduler.isBusy v.system = false) (next : v.registry.next? v.system = none)
    (answer : x.1 = if v.registry.pendingCount v.system = 0 then .allLoaded
      else .stalled (v.registry.pendingCount v.system))
    (log : x.2.2.dispatches = v.system.dispatches)
    (count : x.2.1.dispatched = v.scheduler.dispatched) (agrees : x.2.2.Agrees v.system) :
    Standstill w x := by
  obtain ⟨left, split⟩ := onward.draining.order
  rw [onward.registry, onward.draining.next? quiet free split, List.head?_eq_none_iff] at next
  have order : v.dispatched = w.waiting := by simpa [next] using split
  have delivered : ∀ i ∈ w.waiting, ∃ t, x.2.2.loaders i = (w.system.loaders i).delivered t := by
    rw [agrees.loaders, ← order]
    exact (onward.draining.flight.of_free free).2.2
  have pending : w.registry.pendingCount x.2.2 = v.registry.pendingCount v.system := by
    rw [onward.registry, Registry.pendingCount, agrees.loaders]
    rfl
  -- so the answer counts the loaders of the registry that have not ended
  rw [← pending] at answer
  have tells : x.1 = .allLoaded ∨ x.1 = .stalled (w.registry.pendingCount x.2.2) := by
    rw [answer]
    split
    · exact .inl rfl
    · exact .inr rfl
  have looked : x.1 ≠ .idle := by
    rcases tells with all | some
    · simp [all]
    · simp [some]
  refine ⟨.inr (tells.imp_right fun some => ⟨_, some⟩),
    ⟨fun idle => absurd idle looked, fun done => ?_⟩, fun idle => absurd idle looked,
    fun _ => ⟨?_, ?_, delivered, fun i hi => ?_, tells, ?_⟩⟩
  · obtain ⟨flag, once⟩ := done
    rw [onward.looks_of looks flag] at once
    cases once
  · rw [log, onward.log, order]
  · rw [count, onward.count, order]
  · obtain ⟨t, new⟩ := delivered i hi
    rw [new]
    exact Loader.isLoaded_delivered _ t
  · rw [← pendingCount_eq_zero_iff, answer]
    split
    · rename_i none
      simp [none]
    · rename_i some
      simp [some]

/-- A tick that leaves nothing to come is the end. -/
theorem Onward.conclude (onward : Onward w v) (quiet : w.Quiet) (refusal : Option Files.IoError)
    (last : (v.scheduler.tick refusal v.registry v.system).1.isUnsettled = false) :
    Standstill w (v.scheduler.tick refusal v.registry v.system) := by
  have log := dispatches_tick v.system v.scheduler refusal v.registry
  have rule := tickRule v.scheduler refusal v.registry v.system
  generalize v.scheduler.tick refusal v.registry v.system = x at rule log last ⊢
  cases rule with
  | idle flag once =>
    rw [onward.draining.flag] at flag
    rw [onward.draining.settings] at once
    -- flag and settings stay, so no tick before has looked at the loaders
    have none : v.dispatched = [] := by
      by_contra some
      rw [onward.looks some flag] at once
      cases once
    refine ⟨.inl rfl, ⟨fun _ => ⟨flag, once⟩, fun _ => rfl⟩, fun _ => ?_, fun looked => absurd rfl looked⟩
    simp [onward.log, none]
  | allLoaded looks free next ended t agrees =>
    exact onward.standstill quiet looks free next (by rw [if_pos ended])
      (log.trans (List.append_nil _)) rfl agrees
  | stalled looks free next some =>
    exact onward.standstill quiet looks free next (by rw [if_neg some]) rfl rfl (System.Agrees.refl _)
  | _ => cases last

/-- Whatever way a quiet world settles, the loaders that waited are the ones that were run. -/
theorem World.Settles.standstill (settles : w.Settles x) (quiet : w.Quiet) : Standstill w x := by
  obtain ⟨run, refusal, unsettled, rfl, last⟩ := settles
  exact (quiet.after unsettled).conclude quiet refusal last

end Ends

/-! ## Coming to the end -/

section Progress

variable {w v : World ι Model}

omit [DecidableEq ι] in
/-- The number of steps that workers have yet to take, at most: two for each load. -/
def World.toCome (v : World ι Model) : Nat := 2 * v.system.queue.length + v.system.runs.length

/-- A step of a worker brings it nearer to its end, and only a dispatch adds steps. -/
theorem step_le (v : World ι Model) {a : Action ι} (may : Driving v a) :
    a.isStep.toNat + (v.perform a).toCome + 2 * v.dispatched.length ≤
      v.toCome + 2 * (v.perform a).dispatched.length := by
  cases a with
  | tick refusal =>
    have dispatched := dispatched_tick v refusal
    have rule := tickRule v.scheduler refusal v.registry v.system
    simp only [World.perform] at dispatched ⊢
    generalize v.scheduler.tick refusal v.registry v.system = x at rule dispatched ⊢
    simp only [Action.isStep, World.toCome, dispatched]
    cases rule with
    | dispatched looks free i next starts =>
      have agrees := v.system.agrees_dispatch i
      have queue : (v.system.dispatch i).2.queue.length = v.system.queue.length + 1 := by
        rw [agrees.queue, List.length_append]
        rfl
      have runs : (v.system.dispatch i).2.runs = v.system.runs := agrees.runs
      simp [queue, runs, Tick.dispatched?]
      omega
    | refused looks free i next cause refuses =>
      have agrees := v.system.agrees_refuse i cause
      have queue : (v.system.refuse i cause).queue = v.system.queue := agrees.queue
      have runs : (v.system.refuse i cause).runs = v.system.runs := agrees.runs
      simp [queue, runs, Tick.dispatched?]
    | allLoaded looks free next ended t agrees =>
      simp [agrees.queue, agrees.runs, Tick.dispatched?]
    | _ => simp [Tick.dispatched?]
  | work k =>
    have inside : 0 < v.system.queue.length := List.length_pos_of_mem may
    have queue : (v.system.work k).2.queue.length = v.system.queue.length - 1 := by
      rw [queue_work, List.length_erase_of_mem may]
    have runs : (v.system.work k).2.runs.length ≤ v.system.runs.length + 1 := by
      rcases (v.system.loaders k.loader).barred_or_free with barred | ⟨loaded, started⟩
      · rw [(v.system.work_of_barred k barred).runs]
        exact Nat.le_succ _
      · rw [(v.system.work_of_free k loaded started).runs, List.length_append]
        exact Nat.le_refl _
    simp only [World.perform, World.dispatched, World.toCome, Action.isStep, queue, Bool.toNat_true]
    omega
  | finish r =>
    have inside : 0 < v.system.runs.length := List.length_pos_of_mem may
    have runs : (v.system.finish r).runs.length = v.system.runs.length - 1 := by
      rw [(v.system.agrees_finish r).runs, List.length_erase_of_mem may]
    simp only [World.perform, World.dispatched, World.toCome, Action.isStep, queue_finish, runs,
      Bool.toNat_true]
    omega
  | _ => exact may.elim

/-- Workers take no more steps than two for each load that was, or is, dispatched. -/
theorem steps_le (v : World ι Model) {run : List (Action ι)} (allowed : v.Allows Driving run) :
    run.countP (·.isStep) + (v.after run).toCome + 2 * v.dispatched.length ≤
      v.toCome + 2 * (v.after run).dispatched.length := by
  induction run generalizing v with
  | nil => simp
  | cons a run ih =>
    have first := step_le v allowed.1
    have rest := ih (v.perform a) allowed.2
    have one : (if a.isStep = true then 1 else 0) = a.isStep.toNat := by cases a.isStep <;> rfl
    rw [World.after_cons, List.countP_cons, one]
    omega

omit [DecidableEq ι] in
/-- While the scheduler waits, there is a step for some worker to take. -/
theorem Onward.can_step (onward : Onward w v) (busy : v.scheduler.isBusy v.system = true) :
    ∃ a : Action ι, a.isStep = true ∧ Driving v a := by
  have some : ∀ {α : Type} {l : List α} {p : α → Bool} {x : α}, l.filter p = [x] → x ∈ l := by
    intro α l p x eq
    exact List.mem_of_mem_filter (eq ▸ List.mem_singleton_self x)
  have flight := onward.draining.flight
  generalize v.dispatched = done at flight
  cases flight with
  | landed _ _ _ free => rw [free] at busy; cases busy
  | queued i t queue => exact ⟨.work ⟨i, t⟩, rfl, some queue⟩
  | running i t _ runs => exact ⟨.finish _, rfl, some runs⟩

omit [DecidableEq ι] in
/-- With no work and no runs, all that was dispatched has ended. -/
theorem Onward.free_of_grounded (onward : Onward w v) (queue : v.system.queue = [])
    (runs : v.system.runs = []) : v.scheduler.isBusy v.system = false := by
  by_contra busy
  obtain ⟨a, step, may⟩ := onward.can_step (by simpa using busy)
  cases a with
  | work k => simp [Driving, queue] at may
  | finish r => simp [Driving, runs] at may
  | _ => cases step

/-- A quiet world settles where the workers finish between ticks. -/
theorem World.Quiet.settles (quiet : w.Quiet) : w.Settles (w.scheduler.settle w.registry w.system) := by
  have start : w.Unsettled [] := ⟨trivial, by simp [quiet.answers]⟩
  exact start.settles (fun run unsettled => (quiet.after unsettled).draining.order.length_le)
    (fun run unsettled => (quiet.after unsettled).free_of_grounded) quiet.free (List.length_filter_le _ _)

end Progress

/-! ## Any realm -/

/-- Every world of a sound realm is quiet while no run is in progress and its scheduler is not busy, but for
workers that have yet to start on loaders that wait. A waiting loader was never started: a started one is
being run, or has ended. -/
theorem Realm.Sound.quiet {m : Realm ι Model} (sound : m.Sound) (d : Deed ι)
    (runs : (m.world d).system.runs = [])
    (free : (m.world d).scheduler.isBusy (m.world d).system = false)
    (unbegun : ∀ k ∈ (m.world d).system.queue, k.loader ∉ (m.world d).waiting) : (m.world d).Quiet := by
  refine ⟨rfl, runs, free, (sound.distinct d).entries, fun i waits => ?_,
    fun k hk => ⟨unbegun k hk, sound.backed k hk⟩⟩
  have phase := ((Loader.isEligible_iff _).mp (List.mem_filter.mp waits).2).1
  refine Bool.eq_false_iff.mpr fun started => ?_
  rcases sound.spent i started with running | ended
  · have none : m.system.runs = [] := runs
    simp [System.active, none] at running
  · exact Loader.ne_pending_of_isLoaded _ ended phase

/-- **Settling drains the queue.** Take any realm that comes of a fresh one, whatever its callers did, where
no run is in progress and the scheduler is not busy. To settle comes to an end where workers finish between
ticks; and in any order of ticks and steps of workers, also where threads are refused, there are at most so
many steps and dispatches before the end, and a tick that waits, waits for a worker with a step to take.

Whatever way it took, the last answer is that nothing was looked at, that all is loaded or that so many
loaders are left. Unless nothing was looked at, the loaders dispatched are those that waited, once each and
in the order of registration, and they have ended; and all is loaded if, and only if, every registered
loader has ended. -/
theorem settling_drains_the_queue {m : Realm ι Model} (fresh : m.Fresh) (h : List (Deed ι)) (d : Deed ι) :
    let w := (m.after h).world d
    w.system.runs = [] → w.scheduler.isBusy w.system = false →
    (∀ k ∈ w.system.queue, k.loader ∉ w.waiting) →
    w.Settles (w.scheduler.settle w.registry w.system) ∧
    (∀ run, w.Unsettled run → let v := w.after run
      run.countP (·.isStep) ≤ 2 * (w.system.queue.length + w.waiting.length) ∧
      v.dispatched.length ≤ w.waiting.length ∧
      ((v.scheduler.tick none v.registry v.system).1 = .busy →
        ∃ a : Action ι, a.isStep = true ∧ Driving v a)) ∧
    w.waiting.Nodup ∧ ∀ x, w.Settles x → Standstill w x := by
  intro w runs free unbegun
  have quiet : w.Quiet := (fresh.sound.after h).quiet d runs free unbegun
  refine ⟨quiet.settles, fun run unsettled => ?_, quiet.distinct.filter _, fun x settles =>
    settles.standstill quiet⟩
  have onward := quiet.after unsettled
  have fits := onward.draining.order.length_le
  have steps := steps_le w unsettled.allowed
  refine ⟨?_, fits, fun waits => onward.can_step (busy_of_tick waits)⟩
  simp only [World.toCome, quiet.runs, quiet.dispatched, List.length_nil] at steps
  omega

/-- The first loader was to be run by a task that never started, and was given back; the second one still
waits for such a task. -/
theorem settling_drains_the_queue_of_pair :
    let h : List (Deed Bool) := [.register true, .register false, .giveBytes true [1], .giveBytes false [2],
      .newTask "never", .assign true 0, .unassign true, .assign false 0].map (⟨0, 0, ·⟩)
    let w := (Realm.pair.after h).world ⟨0, 0, .tick none⟩
    let x := w.scheduler.settle w.registry w.system
    x.1 = .stalled 1 ∧ x.2.2.dispatches = [true] := by
  intro h w x
  have waiting : w.waiting = [true] := by decide +kernel
  have runs : w.system.runs = [] := by decide +kernel
  have free : w.scheduler.isBusy w.system = false := by decide +kernel
  have unbegun : ∀ k ∈ w.system.queue, k.loader ∉ w.waiting := by decide +kernel
  obtain ⟨settles, -, -, ends⟩ := settling_drains_the_queue Realm.fresh_pair h ⟨0, 0, .tick none⟩ runs free
    unbegun
  have stalled : x.1 = .stalled 1 := by decide +kernel
  have before : w.system.dispatches = [] := by decide +kernel
  have dispatched := ((ends x settles).drained (by rw [stalled]; simp)).dispatched
  exact ⟨stalled, by rw [dispatched, before, waiting]; rfl⟩

/-- A worker that was dispatched for a waiting loader, and has yet to start on it, makes a difference. The
second loader was dispatched; its task was completed by a caller, and its dispatch was undone, before its worker
started. Now that worker starts while the first loader is run. So the second one is passed over, and the loading
stalls before it has ended. -/
theorem settling_leaves_a_loader_to_an_earlier_worker :
    let h : List (Deed Bool) := [.register true, .register false, .giveBytes false [2], .tick none,
      .complete 0, .unassign false, .giveBytes true [1]].map (⟨0, 0, ·⟩)
    let w := (Realm.pair.after h).world ⟨0, 0, .tick none⟩
    Realm.pair.Fresh ∧ Realm.pair.Allows System.Possible h ∧
    w.system.runs = [] ∧ w.scheduler.isBusy w.system = false ∧
    w.waiting = [true, false] ∧ w.system.dispatches = [false] ∧
    ∃ x, w.Settles x ∧ x.1 = .stalled 1 ∧ x.2.2.dispatches = [false, true] ∧
      (x.2.2.loaders false).isLoaded = false := by
  intro h w
  let run : List (Action Bool) := [.tick none, .work ⟨false, 0⟩, .work ⟨true, 1⟩,
    .finish ⟨true, some [1], some 1⟩]
  have allowed : w.Allows Driving run := by decide +kernel
  have goesOn : ∀ y ∈ (w.after run).answers, y.isUnsettled = true := by decide +kernel
  refine ⟨Realm.fresh_pair, by decide +kernel, by decide +kernel, by decide +kernel, by decide +kernel,
    by decide +kernel, _, ⟨run, none, ⟨allowed, goesOn⟩, rfl, by decide +kernel⟩, by decide +kernel,
    by decide +kernel, by decide +kernel⟩

/-- Nor may a run be in progress that found no bytes: a loader that gets some then is dispatched in vain. -/
example :
    let h : List (Deed Bool) := [.register true, .start true, .unassign true, .giveBytes true [1]].map (⟨0, 0, ·⟩)
    let w := (Realm.pair.after h).world ⟨0, 0, .tick none⟩
    let v := w.after [.tick none, .work ⟨true, 0⟩]
    w.system.runs = [⟨true, none, none⟩] ∧ w.scheduler.isBusy w.system = false ∧ w.waiting = [true] ∧
      (v.scheduler.tick none v.registry v.system).1 = .stalled 1 ∧
      (v.system.loaders true).isLoaded = false := by
  decide +kernel

end ModelLoading.Loading
