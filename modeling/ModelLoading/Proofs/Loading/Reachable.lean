import ModelLoading.Proofs.Loading.Acquisition
import ModelLoading.Proofs.Loading.AtMostOnce
import ModelLoading.Proofs.Loading.Finality

/-!
# What holds in every realm

Three facts hold of every realm that comes of a fresh one, whatever its callers do, also where they note
tasks that never start, undo dispatches and make loaders fail (`Realm.Sound`). A loader that was started is
being run or has ended: nothing but the end of its run, or a failure, takes a started loader out of its run.
Dispatched work has a task that was there before it. And no registry has two loaders of one name.
-/

namespace ModelLoading.Loading

variable {ι Model : Type} [DecidableEq ι]

/-! ## Started loaders -/

/-- A loader that was started is being run, or it has ended. -/
def System.Spent (s : System ι Model) (i : ι) : Prop :=
  (s.loaders i).started = true → 0 < s.active i ∨ (s.loaders i).isLoaded = true

section Spent

variable {s t : System ι Model} {i : ι} {a : Action ι}

omit [DecidableEq ι] in
theorem Loader.isLoaded_finish (l : Loader Model) (outcome : Except String Model) :
    (l.finish outcome).isLoaded = true := by
  have ends : ∀ p q : Phase, q.isTerminal = true → (p.moveTo q).isTerminal = true := by
    intro p q last
    cases p <;> first | exact last | rfl
  cases outcome <;> exact ends _ _ rfl

/-- The end of its run is the end of the loader, and nothing else ends the run. -/
theorem System.Spent.step (spent : s.Spent i) (moves : Moves i a s t) : t.Spent i := by
  cases moves with
  | touches starts ends becomes active reports =>
    intro started
    rw [becomes.started] at started
    rcases spent started with running | ended
    · exact .inl (active ▸ running)
    · right
      rw [Loader.isLoaded, becomes.phase_of_ended ended]
      exact ended
  | starts r own starts ends loaded fresh becomes active reports =>
    exact fun _ => .inl (by omega)
  | ends r own starts ends becomes active reports =>
    exact fun _ => .inr (by rw [becomes]; exact Loader.isLoaded_finish _ _)
  | loads r own starts ends loaded fresh becomes active reports =>
    exact fun _ => .inr (by rw [becomes]; exact Loader.isLoaded_finish _ _)

end Spent

/-! ## Dispatched work -/

/-- The tasks of dispatched work are there. -/
def System.Backed (s : System ι Model) : Prop := ∀ k ∈ s.queue, k.task < s.tasks.length

section Backed

variable {s t : System ι Model}

omit [DecidableEq ι] in
/-- No work is added, and no task is lost. -/
theorem System.Backed.keep (backed : s.Backed) (queue : t.queue ⊆ s.queue)
    (tasks : s.tasks.length ≤ t.tasks.length) : t.Backed :=
  fun _ hk => Nat.lt_of_lt_of_le (backed _ (queue hk)) tasks

omit [DecidableEq ι] in
theorem System.Backed.of_agrees (backed : s.Backed) (agrees : t.Agrees s) : t.Backed :=
  backed.keep (by rw [agrees.queue]; exact List.Subset.refl _) (Nat.le_of_eq (by rw [agrees.tasks]))

theorem queue_start_none (s : System ι Model) (i : ι) : (s.start i none).2.queue = s.queue := by
  rcases (s.loaders i).barred_or_free with barred | ⟨loaded, started⟩
  · exact (s.start_of_barred i barred none).2.queue
  · rw [s.start_of_free i loaded started none]; rfl

theorem queue_finish (s : System ι Model) (r : Run ι) : (s.finish r).queue = s.queue :=
  (s.agrees_finish r).queue.trans (System.queue_completeOf _ _)

theorem queue_load (s : System ι Model) (i : ι) : (s.load i).queue = s.queue := by
  rcases (s.loaders i).barred_or_free with barred | ⟨loaded, started⟩
  · exact (s.load_of_barred i barred).queue
  · rw [s.load_of_free i loaded started, queue_finish, queue_start_none]

theorem length_tasks_finish (s : System ι Model) (r : Run ι) :
    (s.finish r).tasks.length = s.tasks.length := by
  rw [(s.agrees_finish r).tasks]
  cases r.task with
  | none => rfl
  | some t => exact System.length_tasks_complete _ t

theorem length_tasks_work (s : System ι Model) (k : Work ι) :
    (s.work k).2.tasks.length = s.tasks.length := by
  rcases (s.loaders k.loader).barred_or_free with barred | ⟨loaded, started⟩
  · rw [(s.work_of_barred k barred).tasks]
    exact s.length_tasks_complete k.task
  · rw [(s.work_of_free k loaded started).tasks]
    rfl

theorem System.Backed.tick (backed : s.Backed) (c : Scheduler) (refusal : Option Files.IoError)
    (r : Registry ι) : (c.tick refusal r s).2.2.Backed := by
  have rule := tickRule c refusal r s
  generalize c.tick refusal r s = x at rule ⊢
  cases rule with
  | idle flag once => exact backed
  | busy looks busy => exact backed
  | dispatched looks free i next starts =>
    have agrees := s.agrees_dispatch i
    intro k hk
    rw [agrees.queue, List.mem_append, List.mem_singleton] at hk
    rw [agrees.tasks, List.length_append]
    rcases hk with before | rfl
    · exact Nat.lt_add_right _ (backed k before)
    · exact Nat.lt_succ_self _
  | refused looks free i next cause refuses =>
    have agrees := s.agrees_refuse i cause
    refine backed.keep (by rw [agrees.queue]; exact List.Subset.refl _) ?_
    rw [agrees.tasks, List.length_append]
    exact Nat.le_add_right ..
  | allLoaded looks free next ended t agrees => exact backed.of_agrees agrees
  | stalled looks free next some => exact backed

theorem System.Backed.perform {w : World ι Model} (backed : w.system.Backed) (a : Action ι) :
    (w.perform a).system.Backed := by
  cases a with
  | register i =>
    simp only [World.perform]
    rcases register_cases w.registry w.system i with ⟨e, refused⟩ | ⟨-, accepted⟩
    · rw [refused]; exact backed
    · rw [accepted]; exact backed
  | giveBytes i data =>
    have agrees := w.system.agrees_giveBytes i data
    exact System.Backed.of_agrees (s := w.system.update i (·.giveBytes data)) backed agrees
  | acquire i source m =>
    rcases w.system.acquire_cases i source m with ⟨data, -, -, agrees⟩ | ⟨e, -, -, agrees⟩
    · exact System.Backed.of_agrees (s := w.system.update i (·.giveBytes data)) backed agrees
    · exact backed.of_agrees agrees
  | acquireAll source =>
    have agrees := w.system.agrees_acquireAll w.registry source
    exact backed.keep (by rw [World.perform, agrees.queue]; exact List.Subset.refl _)
      (Nat.le_of_eq (by rw [World.perform, agrees.tasks]))
  | load i =>
    exact backed.keep (by rw [World.perform, queue_load]; exact List.Subset.refl _)
      (Nat.le_of_eq (by rw [World.perform, w.system.tasks_load]))
  | start i =>
    exact backed.keep (by rw [World.perform, queue_start_none]; exact List.Subset.refl _)
      (Nat.le_of_eq (by rw [World.perform, w.system.tasks_start_none]))
  | newTask name =>
    exact backed.keep (List.Subset.refl _) (by simp [World.perform, System.newTask])
  | complete t =>
    exact backed.keep (List.Subset.refl _) (Nat.le_of_eq (w.system.length_tasks_complete t).symm)
  | fail _ _ | assign _ _ | unassign _ | ask _ => exact backed
  | tick refusal => exact backed.tick w.scheduler refusal w.registry
  | work k =>
    refine backed.keep ?_ (Nat.le_of_eq (length_tasks_work w.system k).symm)
    rw [World.perform, queue_work]
    exact List.erase_subset
  | finish r =>
    exact backed.keep (by rw [World.perform, queue_finish]; exact List.Subset.refl _)
      (Nat.le_of_eq (length_tasks_finish w.system r).symm)

end Backed

/-! ## Realms -/

namespace Realm

/-- What holds of every realm that comes of a fresh one. -/
structure Sound (m : Realm ι Model) : Prop where
  spent : ∀ i, m.system.Spent i
  backed : m.system.Backed
  distinct : ∀ d, (m.world d).Distinct

variable {m : Realm ι Model}

theorem Fresh.sound (fresh : m.Fresh) : m.Sound := by
  refine ⟨fun i started => ?_, ?_, fun d => ?_⟩
  · rw [fresh.loader] at started
    cases started
  · have none : m.system.queue = [] := (fresh.worlds ⟨0, 0, .newTask ""⟩).queue
    simp [System.Backed, none]
  · simp [World.Distinct, (fresh.worlds d).entries]

theorem Sound.perform (sound : m.Sound) (d : Deed ι) : (m.perform d).Sound := by
  refine ⟨fun i => (sound.spent i).step (m.moves d i), ?_, fun e => ?_⟩
  · exact System.Backed.perform (w := m.world d) sound.backed d.action
  · by_cases same : e.registry = d.registry
    · have registry : ((m.perform d).world e).registry = ((m.world d).perform d.action).registry :=
        if_pos same
      unfold World.Distinct
      rw [registry]
      exact (sound.distinct d).perform d.action
    · have registry : ((m.perform d).world e).registry = (m.world e).registry := if_neg same
      have name : ∀ i, ((m.perform d).system.loaders i).name = (m.system.loaders i).name :=
        fun i => (m.moves d i).name_file.1
      have before := sound.distinct e
      unfold World.Distinct at before ⊢
      rw [registry]
      simp only [world, name] at before ⊢
      exact before

theorem Sound.after (sound : m.Sound) (h : List (Deed ι)) : (m.after h).Sound := by
  induction h generalizing m with
  | nil => exact sound
  | cons d h ih => exact ih (sound.perform d)

end Realm

end ModelLoading.Loading
