import ModelLoading.Loading.Scheduler

/-!
# Histories of a loading system

A `World` is a system of loaders together with the registry and the scheduler that callers use. An
`Action` is one operation of a caller or one step of a worker, and a history is a list of actions.
Callers and workers take turns in any order: a load has a start, which takes the bytes, and a finish,
and every other action may come in between.

Which actions a history may hold is a predicate on the world and the next action; `Action.Possible`
is the part of it that holds of every history. `World.after_induction` carries an invariant from one
action to a whole history.
-/

namespace ModelLoading.Loading

variable {ι Model : Type} [DecidableEq ι]

/-! ## Worlds and actions -/

/-- A system of loaders with the registry and the scheduler of its callers. -/
structure World (ι Model : Type) where
  system : System ι Model
  registry : Registry ι := {}
  scheduler : Scheduler := {}
  /-- The answers of all ticks so far. -/
  answers : List (Tick ι) := []

/-- One operation of a caller, or one step of a worker. Resources are looked up in a source that is
given with the operation, so what a source holds may change between any two actions. -/
inductive Action (ι : Type) where
  | register (loader : ι)
  | giveBytes (loader : ι) (data : Bytes)
  | acquire (loader : ι) (source : Resource.Source) (matching : Resource.Matching)
  | acquireAll (source : Resource.Source)
  /-- A caller's own run, from its start to its end. -/
  | load (loader : ι)
  /-- The start of a caller's own run. -/
  | start (loader : ι)
  | fail (loader : ι) (reason : String)
  | newTask (name : String)
  | assign (loader : ι) (task : TaskId)
  | unassign (loader : ι)
  | complete (task : TaskId)
  | tick (refusal : Option Files.IoError)
  /-- A question for the result of a loader, or for anything else that is only read. -/
  | ask (loader : ι)
  /-- The start of a dispatched load on its worker. -/
  | work (load : Work ι)
  /-- The end of a run in progress. -/
  | finish (run : Run ι)

/-- Whether an action can be taken: tasks have to exist before they are used, and a worker takes the
steps of a load that was dispatched to it. -/
def Action.Possible (w : World ι Model) : Action ι → Prop
  | .assign _ t | .complete t => t < w.system.tasks.length
  | .work k => k ∈ w.system.queue
  | .finish r => r ∈ w.system.runs
  | _ => True

/-- Whether an action is a caller's completion of a task. -/
def Action.Completes (task : TaskId) : Action ι → Prop
  | .complete t => t = task
  | _ => False

instance Action.decidableCompletes (task : TaskId) : ∀ a : Action ι, Decidable (a.Completes task)
  | .complete t => inferInstanceAs (Decidable (t = task))
  | .register _ | .giveBytes .. | .acquire .. | .acquireAll _ | .load _ | .start _ | .fail .. |
    .newTask _ | .assign .. | .unassign _ | .tick _ | .ask _ | .work _ | .finish _ =>
    .isFalse id

instance Action.decidablePossible (w : World ι Model) : ∀ a : Action ι, Decidable (a.Possible w)
  | .assign _ t | .complete t => inferInstanceAs (Decidable (t < w.system.tasks.length))
  | .work k => inferInstanceAs (Decidable (k ∈ w.system.queue))
  | .finish r => inferInstanceAs (Decidable (r ∈ w.system.runs))
  | .register _ | .giveBytes .. | .acquire .. | .acquireAll _ | .load _ | .start _ | .fail .. |
    .newTask _ | .unassign _ | .tick _ | .ask _ => .isTrue trivial

namespace World

/-- The world after an action. -/
def perform (w : World ι Model) : Action ι → World ι Model
  | .register i =>
    match w.registry.register w.system i with
    | .ok (registry, system) => { w with registry, system }
    | .error _ => w
  | .giveBytes i data => { w with system := w.system.giveBytes i data }
  | .acquire i source m => { w with system := (w.system.acquire i source m).2 }
  | .acquireAll source => { w with system := (w.registry.acquireAll source w.system).2 }
  | .load i => { w with system := w.system.load i }
  | .start i => { w with system := (w.system.start i none).2 }
  | .fail i reason => { w with system := w.system.fail i reason }
  | .newTask name => { w with system := (w.system.newTask name).2 }
  | .assign i t => { w with system := w.system.update i (·.assign t) }
  | .unassign i => { w with system := w.system.unassign i }
  | .complete t => { w with system := w.system.complete t }
  | .tick refusal =>
    let (answer, scheduler, system) := w.scheduler.tick refusal w.registry w.system
    { w with scheduler, system, answers := w.answers ++ [answer] }
  | .ask _ => w
  | .work k => { w with system := (w.system.work k).2 }
  | .finish r => { w with system := w.system.finish r }

/-- The world after a history. -/
def after (w : World ι Model) (h : List (Action ι)) : World ι Model := h.foldl perform w

@[simp] theorem after_nil (w : World ι Model) : w.after [] = w := rfl

@[simp] theorem after_cons (w : World ι Model) (a : Action ι) (h : List (Action ι)) :
    w.after (a :: h) = (w.perform a).after h := rfl

@[simp] theorem after_append (w : World ι Model) (h k : List (Action ι)) :
    w.after (h ++ k) = (w.after h).after k := by
  simp [after]

/-- Every action of a history may be taken when its turn comes. -/
def Allows (may : World ι Model → Action ι → Prop) : World ι Model → List (Action ι) → Prop
  | _, [] => True
  | w, a :: h => may w a ∧ Allows may (w.perform a) h

instance decidableAllows (may : World ι Model → Action ι → Prop) [∀ w a, Decidable (may w a)] :
    ∀ (w : World ι Model) (h : List (Action ι)), Decidable (Allows may w h)
  | _, [] => .isTrue trivial
  | w, a :: h =>
    have := decidableAllows may (w.perform a) h
    inferInstanceAs (Decidable (may w a ∧ Allows may (w.perform a) h))

section Histories

variable {may : World ι Model → Action ι → Prop} {w : World ι Model} {h k : List (Action ι)}

theorem allows_append : Allows may w (h ++ k) ↔ Allows may w h ∧ Allows may (w.after h) k := by
  induction h generalizing w with
  | nil => simp [Allows]
  | cons a h ih => simp [Allows, ih, and_assoc]

/-- A history is allowed if each action is, after the actions before it. -/
theorem allows_iff : Allows may w h ↔ ∀ p a q, h = p ++ a :: q → may (w.after p) a := by
  constructor
  · rintro allowed p a q rfl
    exact (allows_append.mp allowed).2.1
  · intro each
    induction h generalizing w with
    | nil => trivial
    | cons a h ih =>
      refine ⟨each [] a h rfl, ih fun p b q split => ?_⟩
      exact each (a :: p) b q (by rw [split]; rfl)

/-- What every allowed action preserves holds after every allowed history. -/
theorem after_induction {I : World ι Model → Prop} (step : ∀ v a, may v a → I v → I (v.perform a))
    (allowed : Allows may w h) (start : I w) : I (w.after h) := by
  induction h generalizing w with
  | nil => exact start
  | cons a h ih => exact ih allowed.2 (step w a allowed.1 start)

end Histories

/-! ## The beginning -/

/-- A world in which nothing has happened: no loader was touched, nothing is registered, the
scheduler is new, and there are no tasks, workers or runs. -/
structure Fresh (w : World ι Model) : Prop where
  loaders : ∀ i, w.system.loaders i =
    { name := (w.system.loaders i).name
      file := (w.system.loaders i).file
      decode := (w.system.loaders i).decode }
  tasks : w.system.tasks = []
  queue : w.system.queue = []
  runs : w.system.runs = []
  entries : w.registry.entries = []
  scheduler : w.scheduler = { settings := w.scheduler.settings }
  answers : w.answers = []

/-- The world with loaders, and with settings for the registry and for the scheduler. -/
def ofLoaders (loaders : ι → Loader Model) (registry scheduler : Settings) : World ι Model :=
  { system := { loaders }, registry := { settings := registry }, scheduler := { settings := scheduler } }

omit [DecidableEq ι] in
theorem fresh_ofLoaders {l : ι → Loader Model} (unused : ∀ i, l i =
    { name := (l i).name, file := (l i).file, decode := (l i).decode }) (registry scheduler : Settings) :
    (ofLoaders l registry scheduler).Fresh :=
  ⟨unused, rfl, rfl, rfl, rfl, rfl, rfl⟩

/-- Two loaders whose models are their bytes. -/
def pair : World Bool Bytes :=
  ofLoaders (fun first => { name := if first then "first" else "second",
                            file := if first then "one.bytes" else "two.bytes",
                            decode := .ok }) {} {}

theorem fresh_pair : pair.Fresh := fresh_ofLoaders (fun _ => rfl) {} {}

end World

end ModelLoading.Loading
