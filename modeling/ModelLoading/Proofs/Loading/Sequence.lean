import ModelLoading.Proofs.Loading.Lifecycle

/-!
# The sequence of loads

Loaders are registered and given bytes, bytes are acquired for all, and then only ticks and workers
act (`Driven`). The scheduler dispatches the loaders that hold bytes, each once and in the order in
which they were registered, and no other loader is touched. So the first tick that finds nothing left
to dispatch finds all of these loaders ended, and its answer counts the loaders that never got bytes.
-/

namespace ModelLoading.Loading

variable {ι Model : Type}

/-! ## What becomes of a loader that is dispatched -/

namespace Loader

/-- The loader once its worker has taken its bytes. -/
def underway (l : Loader Model) (t : TaskId) : Loader Model :=
  { l with started := true, phase := .loading, bytes := none, task := some t }

/-- The loader once its worker has come to its end. -/
def delivered (l : Loader Model) (t : TaskId) : Loader Model :=
  (l.underway t).finish (l.outcome l.bytes)

/-- What the decoder makes of the bytes of one loader, another one holds: the model, or else the text
of the fault. -/
def Decodes (l m : Loader Model) : Prop :=
  ∃ data, l.bytes = some data ∧
    match l.decode data with
    | .ok model => m.phase = .succeeded ∧ m.result = some model ∧ m.failure = none
    | .error fault => m.phase = .failed ∧ m.failure = some fault.message ∧ m.result = none

/-- Only a pending loader at rest has bytes. -/
theorem AtRest.pending_of_bytes {l : Loader Model} (rest : l.AtRest) (h : l.bytes.isSome) :
    l.phase = .pending := by
  cases rest with
  | pending phase => exact phase
  | succeeded _ _ _ bytes => rw [bytes] at h; cases h
  | failed _ _ _ bytes => rw [bytes] at h; cases h

theorem isLoaded_delivered (l : Loader Model) (t : TaskId) : (l.delivered t).isLoaded = true := by
  unfold delivered
  cases l.outcome l.bytes <;> rfl

theorem decodes_delivered {l : Loader Model} (rest : l.AtRest) (h : l.bytes.isSome) (t : TaskId) :
    l.Decodes (l.delivered t) := by
  obtain ⟨data, held⟩ := Option.isSome_iff_exists.mp h
  obtain ⟨-, -, result, failure⟩ := rest.of_pending (rest.pending_of_bytes h)
  refine ⟨data, held, ?_⟩
  cases decoded : l.decode data with
  | ok model =>
    have outcome : l.outcome l.bytes = .ok model := by simp [Loader.outcome, held, decoded]
    simp [delivered, outcome, finish, underway, failure]
  | error fault =>
    have outcome : l.outcome l.bytes = .error fault.message := by simp [Loader.outcome, held, decoded]
    simp [delivered, outcome, finish, underway, result]

/-- Where loaders without bytes are to fail, none is left pending without bytes. -/
theorem bytes_acquired {settings : Settings} (policy : settings.missing = .fail)
    (source : Resource.Source) {l : Loader Model}
    (phase : (l.acquired settings source).phase = .pending) :
    (l.acquired settings source).bytes.isSome := by
  by_cases barred : l.phase ≠ .pending ∨ l.bytes.isSome
  · rw [acquired_of_barred barred] at phase ⊢
    rcases barred with other | held
    · exact absurd phase other
    · exact held
  · have pending : l.phase = .pending := by
      simp only [ne_eq, not_or, Decidable.not_not] at barred; exact barred.1
    cases found : contentOf source settings.matching l.file with
    | ok data => rw [acquired_of_ok barred found, giveBytes_of_pending l pending]; rfl
    | error e =>
      rw [acquired_of_error barred found, if_pos policy] at phase
      simp [fail, pending] at phase

end Loader

/-! ## Answers -/

namespace Tick

/-- The loader that a tick dispatched. -/
def dispatched? : Tick ι → Option ι
  | dispatched i => some i
  | _ => none

/-- Nothing is left to dispatch. -/
def Concludes : Tick ι → Prop
  | allLoaded | stalled _ => True
  | _ => False

instance : ∀ x : Tick ι, Decidable x.Concludes
  | allLoaded | stalled _ => .isTrue trivial
  | idle | busy | dispatched _ => .isFalse id

end Tick

namespace World

/-- The loaders dispatched so far, in order. -/
def dispatched (v : World ι Model) : List ι := v.answers.filterMap Tick.dispatched?

/-- The registered loaders that hold bytes, in order. -/
def holders (w : World ι Model) : List ι :=
  w.registry.entries.filter fun i => (w.system.loaders i).bytes.isSome

/-- The number of registered loaders that are pending without bytes. -/
def lacking (w : World ι Model) : Nat :=
  w.registry.entries.countP fun i =>
    (w.system.loaders i).phase = .pending ∧ (w.system.loaders i).bytes = none

end World

/-! ## The invariant -/

/-- What has become of a world, at rest in the beginning, by ticks and workers alone: the loaders
dispatched so far are the first of those that held bytes, each is as far as its worker is, and the
others are as they were. -/
structure Driven (w v : World ι Model) : Prop where
  registry : v.registry = w.registry
  looking : v.scheduler.allLoaded = false
  order : v.dispatched <+: w.holders
  others : ∀ i, i ∉ v.dispatched → v.system.loaders i = w.system.loaders i
  queued : ∀ k ∈ v.system.queue, k.loader ∈ v.dispatched ∧
    v.system.loaders k.loader = (w.system.loaders k.loader).assign k.task
  running : ∀ r ∈ v.system.runs, r.loader ∈ v.dispatched ∧
    r.taken = (w.system.loaders r.loader).bytes ∧
    ∃ t, v.system.loaders r.loader = (w.system.loaders r.loader).underway t
  ended : ∀ i ∈ v.dispatched, ¬v.system.InFlight i →
    ∃ t, v.system.loaders i = (w.system.loaders i).delivered t

/-- The first of what a filter leaves, when the part before it is left out. -/
theorem find?_of_split [DecidableEq ι] {l done rest : List ι} {p q : ι → Bool} (distinct : l.Nodup)
    (split : done ++ rest = l.filter p) (agree : ∀ i ∈ l, q i = (decide (i ∉ done) && p i)) :
    l.find? q = rest.head? := by
  have apart : ∀ i ∈ rest, i ∉ done := by
    have nodup : (done ++ rest).Nodup := split ▸ distinct.filter p
    intro i hi inside
    exact (List.nodup_append.mp nodup).2.2 i inside i hi rfl
  have left : l.filter q = rest := by
    calc l.filter q = l.filter (fun i => decide (i ∉ done) && p i) := List.filter_congr agree
      _ = (done ++ rest).filter (fun i => decide (i ∉ done)) := by rw [split, List.filter_filter]
      _ = rest := by
        rw [List.filter_append, List.filter_eq_nil_iff.mpr (by simp),
          List.filter_eq_self.mpr (by simpa using apart), List.nil_append]
  rw [← List.head?_filter, left]

namespace Driven

variable {w v : World ι Model}

theorem holds (driven : Driven w v) {i : ι} (h : i ∈ v.dispatched) :
    i ∈ w.registry.entries ∧ (w.system.loaders i).bytes.isSome := by
  simpa [World.holders] using driven.order.subset h

/-- While nothing is in flight, the loaders that wait to be run are those not yet dispatched. -/
theorem eligible_iff [DecidableEq ι] (driven : Driven w v) (rest : ∀ i, (w.system.loaders i).AtRest)
    (landed : ∀ i, ¬v.system.InFlight i) (i : ι) :
    (v.system.loaders i).isEligible =
      (decide (i ∉ v.dispatched) && (w.system.loaders i).bytes.isSome) := by
  by_cases before : i ∈ v.dispatched
  · obtain ⟨t, new⟩ := driven.ended i before (landed i)
    have ended := (w.system.loaders i).isLoaded_delivered t
    rw [← new] at ended
    simp [Loader.isEligible, Loader.ne_pending_of_isLoaded _ ended, before]
  · rw [driven.others i before]
    cases held : (w.system.loaders i).bytes.isSome with
    | false => simp [Loader.isEligible, held]
    | true => simp [Loader.isEligible, held, before, (rest i).pending_of_bytes held]

/-- While nothing is in flight, the scheduler finds the first loader that is left. -/
theorem next? [DecidableEq ι] (driven : Driven w v) (rest : ∀ i, (w.system.loaders i).AtRest)
    (distinct : w.registry.entries.Nodup) (landed : ∀ i, ¬v.system.InFlight i) {left : List ι}
    (split : v.dispatched ++ left = w.holders) : v.registry.next? v.system = left.head? := by
  unfold Registry.next?
  rw [driven.registry]
  exact find?_of_split distinct split fun i _ => driven.eligible_iff rest landed i

/-- A step of the one worker in flight changes its loader and no other. -/
theorem step (driven : Driven w v) {s : System ι Model} {i : ι} (member : i ∈ v.dispatched)
    (alone : ∀ j, j ≠ i → ¬v.system.InFlight j)
    (same : ∀ j, j ≠ i → s.loaders j = v.system.loaders j) (queue : s.queue = [])
    (running : ∀ r ∈ s.runs, r.loader = i ∧ r.taken = (w.system.loaders i).bytes ∧
      ∃ t, s.loaders i = (w.system.loaders i).underway t)
    (ended : ¬s.InFlight i → ∃ t, s.loaders i = (w.system.loaders i).delivered t) :
    Driven w { v with system := s } := by
  refine ⟨driven.registry, driven.looking, driven.order, fun j hj => ?_, fun k hk => ?_,
    fun r hr => ?_, fun j hj landed => ?_⟩
  · exact (same j fun eq => hj (eq ▸ member)).trans (driven.others j hj)
  · simp only [queue] at hk; cases hk
  · obtain ⟨rfl, taken, started⟩ := running r hr
    exact ⟨member, taken, started⟩
  · by_cases eq : j = i
    · subst eq; exact ended landed
    · obtain ⟨t, before⟩ := driven.ended j hj (alone j eq)
      exact ⟨t, (same j eq).trans before⟩

/-- The loader of a dispatched load is free to be run: nobody but its worker runs it. -/
theorem free (driven : Driven w v) (rest : ∀ i, (w.system.loaders i).AtRest) {k : Work ι}
    (h : k ∈ v.system.queue) : (v.system.loaders k.loader).isLoaded = false ∧
      (v.system.loaders k.loader).started = false := by
  obtain ⟨member, assigned⟩ := driven.queued k h
  have phase := (rest k.loader).pending_of_bytes (driven.holds member).2
  have started := ((rest k.loader).of_pending phase).1
  refine ⟨?_, ?_⟩
  · simp [assigned, Loader.assign, Loader.isLoaded, phase]
  · simp [assigned, Loader.assign, started]

variable [DecidableEq ι]

/-- A worker takes the bytes of the loader that waits for it. -/
theorem work (driven : Driven w v) (rest : ∀ i, (w.system.loaders i).AtRest) (stage : Stage v.system)
    {k : Work ι} (h : k ∈ v.system.queue) : Driven w (v.perform (.work k)) := by
  obtain ⟨member, assigned⟩ := driven.queued k h
  obtain ⟨loaded, started⟩ := driven.free rest h
  cases stage with
  | rest queue => rw [queue] at h; cases h
  | running r t queue => rw [queue] at h; cases h
  | waiting i t queue runs one others =>
    rw [queue, List.mem_singleton] at h
    subst h
    have agrees := v.system.work_of_free ⟨i, t⟩ loaded started
    have runs' : (v.system.work ⟨i, t⟩).2.runs = [v.system.runOf i (some t)] := by
      rw [agrees.runs]; simp [runs]
    refine driven.step member (fun j hj => ?_) (fun j hj => ?_) ?_ (fun r hr => ?_) fun landed => ?_
    · simpa [System.InFlight, queue, runs] using fun eq : i = j => hj eq.symm
    · simp only [agrees.loaders, System.update_of_ne _ hj]
    · rw [agrees.queue]; simp [queue]
    · rw [runs', List.mem_singleton] at hr
      subst hr
      refine ⟨rfl, by simp [System.runOf, assigned, Loader.assign], t, ?_⟩
      simp only [agrees.loaders, System.update_self, assigned]
      rfl
    · exact absurd (Or.inr ⟨v.system.runOf i (some t), by simp [runs'], rfl, rfl⟩) landed

/-- A worker leaves the loader it ran with what the decoder makes of its bytes. -/
theorem finish (driven : Driven w v) (stage : Stage v.system) {r : Run ι} (h : r ∈ v.system.runs) :
    Driven w (v.perform (.finish r)) := by
  obtain ⟨member, taken, t, started⟩ := driven.running r h
  cases stage with
  | rest _ runs => rw [runs] at h; cases h
  | waiting _ _ _ runs => rw [runs] at h; cases h
  | running r' t' queue runs task one others =>
    rw [runs, List.mem_singleton] at h
    subst h
    have agrees := v.system.agrees_finish r
    have runs' : (v.system.finish r).runs = [] := agrees.runs.trans (by simp [runs])
    refine driven.step member (fun j hj => ?_) (fun j hj => ?_) ?_ (fun q hq => ?_) fun _ => ⟨t, ?_⟩
    · simpa [System.InFlight, queue, runs, task] using fun eq : r.loader = j => hj eq.symm
    · rw [v.system.loaders_finish, if_neg hj]
    · exact (agrees.queue.trans (System.queue_completeOf _ _)).trans queue
    · rw [runs'] at hq; cases hq
    · rw [v.system.loaders_finish, if_pos rfl, started, taken]
      rfl

omit [DecidableEq ι] in
/-- A tick that changes no loader and answers with no dispatch. -/
theorem keep (driven : Driven w v) {answer : Tick ι} {s : System ι Model}
    (silent : answer.dispatched? = none) (loaders : s.loaders = v.system.loaders)
    (queue : s.queue = v.system.queue) (runs : s.runs = v.system.runs) :
    Driven w { v with system := s, answers := v.answers ++ [answer] } := by
  have dispatched : World.dispatched { v with system := s, answers := v.answers ++ [answer] } =
      v.dispatched := by
    simp [World.dispatched, silent]
  refine ⟨driven.registry, driven.looking, dispatched ▸ driven.order, ?_, ?_, ?_, ?_⟩
  · rw [dispatched]; dsimp only; rw [loaders]; exact driven.others
  · rw [dispatched]; dsimp only; rw [loaders, queue]; exact driven.queued
  · rw [dispatched]; dsimp only; rw [loaders, runs]; exact driven.running
  · rw [dispatched]; simp only [System.InFlight]; rw [loaders, queue, runs]; exact driven.ended

/-- A dispatch takes the first loader that is left. -/
theorem dispatch (driven : Driven w v) (rest : ∀ i, (w.system.loaders i).AtRest)
    (distinct : w.registry.entries.Nodup) (none : v.system.flights = []) (stage : Stage v.system)
    {i : ι} (next : v.registry.next? v.system = some i) (c : Scheduler)
    (looking : c.allLoaded = v.scheduler.allLoaded) :
    Driven w { v with
      system := (v.system.dispatch i).2, scheduler := c, answers := v.answers ++ [.dispatched i] } := by
  have landed := System.not_inFlight none
  obtain ⟨queue, runs, -⟩ := stage.grounded none
  obtain ⟨left, split⟩ := driven.order
  rw [driven.next? rest distinct landed split] at next
  obtain ⟨left', rfl⟩ := List.head?_eq_some_iff.mp next
  have new : i ∉ v.dispatched := by
    have nodup : (v.dispatched ++ i :: left').Nodup := split ▸ distinct.filter _
    intro inside
    exact (List.nodup_append.mp nodup).2.2 i inside i List.mem_cons_self rfl
  have agrees := v.system.agrees_dispatch i
  have dispatched : World.dispatched { v with
      system := (v.system.dispatch i).2, scheduler := c, answers := v.answers ++ [.dispatched i] } =
      v.dispatched ++ [i] := by
    simp [World.dispatched, Tick.dispatched?]
  have own : (v.system.dispatch i).2.loaders i =
      (w.system.loaders i).assign v.system.tasks.length := by
    rw [agrees.loaders, ← driven.others i new]
    exact v.system.update_self i (·.assign v.system.tasks.length)
  have same : ∀ j, j ≠ i → (v.system.dispatch i).2.loaders j = v.system.loaders j := by
    intro j hj
    rw [agrees.loaders]
    exact v.system.update_of_ne hj (·.assign v.system.tasks.length)
  have waits : (v.system.dispatch i).2.queue = [⟨i, v.system.tasks.length⟩] := by
    rw [agrees.queue]; simp [queue]
  have idle : (v.system.dispatch i).2.runs = [] := agrees.runs.trans runs
  refine ⟨driven.registry, looking.trans driven.looking, ?_, ?_, ?_, ?_, ?_⟩
  · rw [dispatched]; exact ⟨left', by rw [← split]; simp⟩
  · rw [dispatched]
    intro j hj
    simp only [List.mem_append, List.mem_singleton, not_or] at hj
    exact (same j hj.2).trans (driven.others j hj.1)
  · rw [dispatched]
    simp only [waits, List.mem_singleton]
    rintro k rfl
    exact ⟨by simp, own⟩
  · simp only [idle]; simp
  · rw [dispatched]
    intro j hj aloft
    by_cases eq : j = i
    · exact absurd (Or.inl ⟨⟨i, v.system.tasks.length⟩, by simp [waits], eq.symm⟩) aloft
    · simp only [List.mem_append, List.mem_singleton, eq, or_false] at hj
      exact same j eq ▸ driven.ended j hj (landed j)

/-- A tick that does not conclude waits for a worker or a thread, or dispatches. -/
theorem tick (driven : Driven w v) (rest : ∀ i, (w.system.loaders i).AtRest)
    (distinct : w.registry.entries.Nodup) (tracked : Tracked v) (stage : Stage v.system)
    (refusal : Option Files.IoError)
    (goesOn : ¬(v.scheduler.tick refusal v.registry v.system).1.Concludes) :
    Driven w (v.perform (.tick refusal)) := by
  have rule := tickRule v.scheduler refusal v.registry v.system
  simp only [World.perform]
  generalize v.scheduler.tick refusal v.registry v.system = x at rule goesOn ⊢
  cases rule with
  | idle flag once => exact absurd flag (by simp [driven.looking])
  | busy looks busy => exact driven.keep rfl rfl rfl rfl
  | dispatched looks free i next starts =>
    exact driven.dispatch rest distinct (tracked.flights_eq_nil free) stage next _ rfl
  | refused looks free i next cause refuses =>
    have agrees := v.system.agrees_refuse i cause
    have same := stage.loaders_refuse (tracked.flights_eq_nil free) (eligible_of_next? next).1 cause
    exact driven.keep rfl same agrees.queue agrees.runs
  | allLoaded looks free next ended t agrees => exact absurd trivial goesOn
  | stalled looks free next some => exact absurd trivial goesOn

/-- With nothing in flight and nothing left to dispatch, the loaders that have not ended are those
that never got bytes. -/
theorem pendingCount_eq (driven : Driven w v) (rest : ∀ i, (w.system.loaders i).AtRest)
    (landed : ∀ i, ¬v.system.InFlight i) (all : v.dispatched = w.holders) :
    v.registry.pendingCount v.system = w.lacking := by
  unfold Registry.pendingCount World.lacking
  rw [driven.registry]
  refine List.countP_congr fun i hi => ?_
  by_cases before : i ∈ v.dispatched
  · obtain ⟨t, new⟩ := driven.ended i before (landed i)
    have held := Option.isSome_iff_ne_none.mp (driven.holds before).2
    simp [new, Loader.isLoaded_delivered, held]
  · rw [driven.others i before]
    have none : (w.system.loaders i).bytes = none := by
      rw [all] at before
      simpa [World.holders, hi] using before
    simp [(rest i).isLoaded_eq, none]

/-- A tick that concludes finds every loader that held bytes dispatched and ended, changes nothing,
and its answer counts the loaders that never got bytes. -/
theorem conclude (driven : Driven w v) (rest : ∀ i, (w.system.loaders i).AtRest)
    (distinct : w.registry.entries.Nodup) (tracked : Tracked v) (refusal : Option Files.IoError)
    (last : (v.scheduler.tick refusal v.registry v.system).1.Concludes) :
    v.dispatched = w.holders ∧ (∀ i, ¬v.system.InFlight i) ∧
    (v.perform (.tick refusal)).system.loaders = v.system.loaders ∧
    (v.perform (.tick refusal)).dispatched = v.dispatched ∧
    (v.scheduler.tick refusal v.registry v.system).1 =
      if w.lacking = 0 then .allLoaded else .stalled w.lacking := by
  have all : v.scheduler.isBusy v.system = false → v.registry.next? v.system = none →
      v.dispatched = w.holders ∧ ∀ i, ¬v.system.InFlight i := by
    intro free next
    have landed := System.not_inFlight (tracked.flights_eq_nil free)
    obtain ⟨left, split⟩ := driven.order
    rw [driven.next? rest distinct landed split, List.head?_eq_none_iff] at next
    exact ⟨by simpa [next] using split, landed⟩
  have rule := tickRule v.scheduler refusal v.registry v.system
  simp only [World.perform, World.dispatched]
  generalize v.scheduler.tick refusal v.registry v.system = x at rule last ⊢
  cases rule with
  | idle flag once => exact last.elim
  | busy looks busy => exact last.elim
  | dispatched looks free i next starts => exact last.elim
  | refused looks free i next cause refuses => exact last.elim
  | allLoaded looks free next ended t agrees =>
    obtain ⟨order, landed⟩ := all free next
    refine ⟨order, landed, agrees.loaders, by simp [Tick.dispatched?], ?_⟩
    rw [driven.pendingCount_eq rest landed order] at ended
    rw [if_pos ended]
  | stalled looks free next some =>
    obtain ⟨order, landed⟩ := all free next
    refine ⟨order, landed, rfl, by simp [Tick.dispatched?], ?_⟩
    rw [driven.pendingCount_eq rest landed order] at some ⊢
    rw [if_neg some]

end Driven

/-! ## Before and after -/

/-- Loaders are registered and given bytes, and bytes are acquired for all. -/
def Preparing (_ : World ι Model) : Action ι → Prop
  | .register _ | .giveBytes .. | .acquireAll _ => True
  | _ => False

/-- The scheduler is given a tick, or a worker takes a step. -/
def Driving (w : World ι Model) : Action ι → Prop
  | .tick _ => True
  | .work k => k ∈ w.system.queue
  | .finish r => r ∈ w.system.runs
  | _ => False

instance (w : World ι Model) : ∀ a, Decidable (Preparing w a)
  | .register _ | .giveBytes .. | .acquireAll _ => .isTrue trivial
  | .acquire .. | .load _ | .start _ | .fail .. | .newTask _ | .assign .. | .unassign _ |
    .complete _ | .tick _ | .ask _ | .work _ | .finish _ => .isFalse id

instance [DecidableEq ι] (w : World ι Model) : ∀ a, Decidable (Driving w a)
  | .tick _ => .isTrue trivial
  | .work k => inferInstanceAs (Decidable (k ∈ w.system.queue))
  | .finish r => inferInstanceAs (Decidable (r ∈ w.system.runs))
  | .register _ | .giveBytes .. | .acquire .. | .acquireAll _ | .load _ | .start _ | .fail .. |
    .newTask _ | .assign .. | .unassign _ | .complete _ | .ask _ => .isFalse id

/-- A world in which loaders wait and the scheduler has not been given a tick. -/
structure Prepared (w : World ι Model) : Prop where
  orderly : Orderly w
  answers : w.answers = []
  looking : w.scheduler.allLoaded = false
  grounded : w.system.flights = []
  names : (w.registry.entries.map fun i => (w.system.loaders i).name).Nodup

section Runs

variable [DecidableEq ι] {w v : World ι Model} {a : Action ι}

omit [DecidableEq ι] in
theorem Preparing.ordinary (may : Preparing w a) : OrdinaryUse w a := by
  cases a with
  | register _ | giveBytes _ _ | acquireAll _ => exact ⟨trivial, trivial⟩
  | _ => exact may.elim

omit [DecidableEq ι] in
theorem Driving.ordinary (may : Driving w a) : OrdinaryUse w a := by
  cases a with
  | tick _ => exact ⟨trivial, trivial⟩
  | work _ | finish _ => exact ⟨may, trivial⟩
  | _ => exact may.elim

omit [DecidableEq ι] in
theorem prepared_of_fresh (fresh : w.Fresh) : Prepared w := by
  refine ⟨orderly_of_fresh fresh, fresh.answers, ?_, ?_, ?_⟩
  · rw [fresh.scheduler]
  · simp [System.flights, fresh.queue, fresh.runs]
  · simp [fresh.entries]

omit [DecidableEq ι] in
/-- A name that is registered is not registered again. -/
theorem nodup_names_register {m : Resource.Matching} {s : System ι Model} {entries : List ι} {i : ι}
    (free : ∀ j ∈ entries, Registry.conflict? m (s.loaders j) (s.loaders i) = none)
    (names : (entries.map fun j => (s.loaders j).name).Nodup) :
    ((entries ++ [i]).map fun j => (s.loaders j).name).Nodup := by
  rw [List.map_append]
  refine List.nodup_append.mpr ⟨names, by simp, fun x hx y hy same => ?_⟩
  obtain ⟨j, hj, rfl⟩ := List.mem_map.mp hx
  obtain rfl := List.mem_singleton.mp hy
  have conflict := free j hj
  simp [Registry.conflict?, same] at conflict

theorem Prepared.perform (may : Preparing w a) (prepared : Prepared w) : Prepared (w.perform a) := by
  have orderly := prepared.orderly.perform may.ordinary
  rcases calm_perform may.ordinary prepared.orderly.stage with
    calm | ⟨refusal, rfl⟩ | ⟨k, -, rfl⟩ | ⟨r, -, rfl⟩
  · have answers : (w.perform a).answers = w.answers := by
      cases a with
      | register i =>
        simp only [World.perform]
        cases w.registry.register w.system i <;> rfl
      | giveBytes _ _ | acquireAll _ => rfl
      | _ => exact may.elim
    have names : ((w.perform a).registry.entries.map
        fun i => ((w.perform a).system.loaders i).name).Nodup := by
      simp only [(calm.loaders _).name]
      cases a with
      | register i =>
        simp only [World.perform]
        rcases register_cases w.registry w.system i with ⟨e, refused⟩ | ⟨free, accepted⟩
        · rw [refused]; exact prepared.names
        · rw [accepted]; exact nodup_names_register free prepared.names
      | giveBytes _ _ | acquireAll _ => exact prepared.names
      | _ => exact may.elim
    refine ⟨orderly, answers.trans prepared.answers, ?_, ?_, names⟩
    · rw [calm.scheduler]; exact prepared.looking
    · simp only [System.flights, calm.queue, calm.runs]; exact prepared.grounded
  · exact may.elim
  · exact may.elim
  · exact may.elim

omit [DecidableEq ι] in
theorem Prepared.driven (prepared : Prepared w) : Driven w w := by
  obtain ⟨queue, runs, -⟩ := prepared.orderly.stage.grounded prepared.grounded
  have none : w.dispatched = [] := by simp [World.dispatched, prepared.answers]
  refine ⟨rfl, prepared.looking, ?_, fun _ _ => rfl, ?_, ?_, ?_⟩
  · rw [none]; exact List.nil_prefix
  · rw [queue]; simp
  · rw [runs]; simp
  · rw [none]; simp

omit [DecidableEq ι] in
theorem Prepared.atRest (prepared : Prepared w) (i : ι) : (w.system.loaders i).AtRest :=
  ((prepared.orderly.stage.grounded prepared.grounded).2.2 i).1

/-- As long as no answer concludes, the loads are driven on. -/
theorem Driven.after {run : List (Action ι)} (prepared : Prepared w) (orderly : Orderly v)
    (driven : Driven w v) (allowed : v.Allows Driving run)
    (goesOn : ∀ x ∈ (v.after run).answers, ¬x.Concludes) :
    Orderly (v.after run) ∧ Driven w (v.after run) := by
  have both := World.after_induction
    (I := fun v => Orderly v ∧ ((∀ x ∈ v.answers, ¬x.Concludes) → Driven w v))
    (fun v a may ⟨orderly, before⟩ => ⟨orderly.perform may.ordinary, fun goesOn => ?_⟩)
    allowed ⟨orderly, fun _ => driven⟩
  · exact ⟨both.1, both.2 goesOn⟩
  · cases a with
    | tick refusal =>
      simp only [World.perform, List.mem_append, List.mem_singleton] at goesOn
      have driven := before fun x hx => goesOn x (Or.inl hx)
      exact driven.tick prepared.atRest prepared.orderly.ledger.distinct orderly.tracked orderly.stage
        refusal (goesOn _ (Or.inr rfl))
    | work k => exact (before goesOn).work prepared.atRest orderly.stage may
    | finish r => exact (before goesOn).finish orderly.stage may
    | _ => exact may.elim

/-! ## Progress -/

/-- Runs in progress come to their ends, one after another. -/
theorem exists_finishes (v : World ι Model) {rs : List (Run ι)} (runs : v.system.runs = rs) :
    ∃ more, v.Allows Driving more ∧
      v.after more = { v with system := rs.foldl System.finish v.system } ∧
      (rs.foldl System.finish v.system).queue = v.system.queue ∧
      (rs.foldl System.finish v.system).runs = [] := by
  induction rs generalizing v with
  | nil => exact ⟨[], trivial, rfl, rfl, runs⟩
  | cons r rs ih =>
    have agrees := v.system.agrees_finish r
    have rest : (v.system.finish r).runs = rs := by rw [agrees.runs]; simp [runs]
    obtain ⟨more, allowed, after, queue, none⟩ := ih (v.perform (.finish r)) rest
    have may : Driving v (.finish r) := by simp [Driving, runs]
    refine ⟨.finish r :: more, ⟨may, allowed⟩, after, ?_, none⟩
    exact queue.trans (agrees.queue.trans (System.queue_completeOf _ _))

/-- A worker carries its load to the end. -/
theorem exists_workToEnd (v : World ι Model) {k : Work ι} {ks : List (Work ι)}
    (queue : v.system.queue = k :: ks) (runs : v.system.runs = []) :
    ∃ more, v.Allows Driving more ∧ v.after more = { v with system := v.system.workToEnd k } ∧
      (v.system.workToEnd k).queue = ks ∧ (v.system.workToEnd k).runs = [] := by
  have may : Driving v (.work k) := by simp [Driving, queue]
  have queue' : (v.system.work k).2.queue = ks := by simp [queue_work, queue]
  rcases (v.system.loaders k.loader).barred_or_free with barred | ⟨loaded, started⟩
  · have ends := v.system.workToEnd_of_barred k barred
    have runs' := (v.system.work_of_barred k barred).runs
    rw [ends]
    exact ⟨[.work k], ⟨may, trivial⟩, rfl, queue', runs'.trans runs⟩
  · have ends := v.system.workToEnd_of_free k loaded started
    have runs' : (v.system.work k).2.runs = [v.system.runOf k.loader (some k.task)] := by
      rw [(v.system.work_of_free k loaded started).runs, runs]; rfl
    obtain ⟨more, allowed, after, queue'', none⟩ := exists_finishes (v.perform (.work k)) runs'
    rw [ends]
    exact ⟨.work k :: more, ⟨may, allowed⟩, after, queue''.trans queue', none⟩

/-- Dispatched loads are run, one after another. -/
theorem exists_works (v : World ι Model) {ks : List (Work ι)} (queue : v.system.queue = ks)
    (runs : v.system.runs = []) :
    ∃ more, v.Allows Driving more ∧
      v.after more = { v with system := ks.foldl System.workToEnd v.system } ∧
      (ks.foldl System.workToEnd v.system).queue = [] ∧
      (ks.foldl System.workToEnd v.system).runs = [] := by
  induction ks generalizing v with
  | nil => exact ⟨[], trivial, rfl, queue, runs⟩
  | cons k ks ih =>
    obtain ⟨first, allowed, after, queue', runs'⟩ := exists_workToEnd v queue runs
    obtain ⟨more, allowed', after', none⟩ := ih { v with system := v.system.workToEnd k } queue' runs'
    refine ⟨first ++ more, World.allows_append.mpr ⟨allowed, ?_⟩, ?_, none⟩
    · rw [after]; exact allowed'
    · rw [World.after_append, after]; exact after'

/-- To carry on to the end is a history of steps of workers, after which nothing is in flight. -/
theorem exists_drain (v : World ι Model) : ∃ more, v.Allows Driving more ∧
    v.after more = { v with system := v.system.drain } ∧
    v.system.drain.queue = [] ∧ v.system.drain.runs = [] := by
  obtain ⟨first, allowed, after, queue, runs⟩ := exists_finishes v rfl
  obtain ⟨more, allowed', after', none⟩ :=
    exists_works { v with system := v.system.runs.foldl System.finish v.system } rfl runs
  refine ⟨first ++ more, World.allows_append.mpr ⟨allowed, ?_⟩, ?_, none⟩
  · rw [after]; exact allowed'
  · rw [World.after_append, after]; exact after'

/-- A tick that does not conclude leaves something to come. -/
theorem Driven.isUnsettled (driven : Driven w v) (refusal : Option Files.IoError)
    (goesOn : ¬(v.scheduler.tick refusal v.registry v.system).1.Concludes) :
    (v.scheduler.tick refusal v.registry v.system).1.isUnsettled = true := by
  have rule := tickRule v.scheduler refusal v.registry v.system
  generalize v.scheduler.tick refusal v.registry v.system = x at rule goesOn ⊢
  cases rule with
  | idle flag once => exact absurd flag (by simp [driven.looking])
  | allLoaded looks free next ended t agrees => exact absurd trivial goesOn
  | stalled looks free next some => exact absurd trivial goesOn
  | _ => rfl

omit [DecidableEq ι] in
theorem not_isUnsettled_of_concludes {x : Tick ι} (concludes : x.Concludes) :
    x.isUnsettled = false := by
  cases x with
  | idle | busy | dispatched _ => exact concludes.elim
  | allLoaded | stalled _ => rfl

/-- A tick is answered with the loader that it dispatches. -/
theorem dispatched_tick (v : World ι Model) (refusal : Option Files.IoError) :
    (v.perform (.tick refusal)).dispatched =
      v.dispatched ++ (v.scheduler.tick refusal v.registry v.system).1.dispatched?.toList := by
  simp only [World.perform, World.dispatched, List.filterMap_append]
  cases (v.scheduler.tick refusal v.registry v.system).1 <;> rfl

theorem busy_of_tick {c : Scheduler} {r : Registry ι} {s : System ι Model}
    (answer : (c.tick none r s).1 = .busy) : c.isBusy s = true := by
  have rule := tickRule c none r s
  generalize c.tick none r s = x at rule answer
  cases rule with
  | busy looks busy => exact busy
  | refused looks free i next cause refuses => cases refuses
  | _ => cases answer

/-- A free scheduler whose tick leaves something to come has dispatched a loader. -/
theorem length_tick (free : v.scheduler.isBusy v.system = false)
    (goesOn : (v.scheduler.tick none v.registry v.system).1.isUnsettled = true) :
    (v.perform (.tick none)).dispatched.length = v.dispatched.length + 1 := by
  rw [dispatched_tick]
  generalize eq : (v.scheduler.tick none v.registry v.system).1 = answer at goesOn ⊢
  cases answer with
  | busy => rw [busy_of_tick eq] at free; cases free
  | dispatched i => simp [Tick.dispatched?]
  | _ => cases goesOn

/-- From every world on the way there is a way to an answer that concludes, or to one more dispatch. -/
theorem Driven.can_go_on (prepared : Prepared w) (orderly : Orderly v) (driven : Driven w v)
    (goesOn : ∀ x ∈ v.answers, ¬x.Concludes) : ∃ more, v.Allows Driving more ∧
      ((∃ x ∈ (v.after more).answers, x.Concludes) ∨
        (∀ x ∈ (v.after more).answers, ¬x.Concludes) ∧
          (v.after more).dispatched.length = v.dispatched.length + 1) := by
  obtain ⟨more, allowed, drained, queue, runs⟩ := exists_drain v
  have same : (v.after more).answers = v.answers := by rw [drained]
  have landed : (v.after more).system.flights = [] := by simp [drained, System.flights, queue, runs]
  have onward := driven.after prepared orderly allowed (by rw [same]; exact goesOn)
  have allowed' : v.Allows Driving (more ++ [.tick none]) :=
    World.allows_append.mpr ⟨allowed, trivial, trivial⟩
  refine ⟨more ++ [.tick none], allowed', ?_⟩
  simp only [World.after_append, World.after_cons, World.after_nil]
  by_cases last : ((v.after more).scheduler.tick none (v.after more).registry
      (v.after more).system).1.Concludes
  · exact Or.inl ⟨_, by simp [World.perform], last⟩
  · refine Or.inr ⟨?_, ?_⟩
    · simp only [World.perform, List.mem_append, List.mem_singleton]
      rintro x (before | rfl)
      · exact goesOn x (same ▸ before)
      · exact last
    · have free : (v.after more).scheduler.isBusy (v.after more).system = false :=
        Bool.eq_false_iff.mpr fun busy => onward.1.tracked.isBusy_iff.mp busy landed
      rw [length_tick free (onward.2.isUnsettled none last)]
      simp [World.dispatched, same]

/-- From every world on the way there is a way to an answer that concludes: each dispatch leaves fewer
loaders. -/
theorem Driven.can_conclude (prepared : Prepared w) (n : Nat) (orderly : Orderly v)
    (driven : Driven w v) (left : w.holders.length - v.dispatched.length < n)
    (goesOn : ∀ x ∈ v.answers, ¬x.Concludes) :
    ∃ more, v.Allows Driving more ∧ ∃ x ∈ (v.after more).answers, x.Concludes := by
  induction n generalizing v with
  | zero => cases left
  | succ n ih =>
    obtain ⟨more, allowed, concludes | ⟨goesOn', one⟩⟩ := driven.can_go_on prepared orderly goesOn
    · exact ⟨more, allowed, concludes⟩
    · obtain ⟨orderly', driven'⟩ := driven.after prepared orderly allowed goesOn'
      have fits := driven'.order.length_le
      obtain ⟨rest, allowed', x, hx, concludes⟩ := ih orderly' driven' (by omega) goesOn'
      refine ⟨more ++ rest, World.allows_append.mpr ⟨allowed, allowed'⟩, x, ?_, concludes⟩
      rw [World.after_append]; exact hx

/-- Where loaders without bytes are to fail, none lacks bytes after they were acquired for all. -/
theorem lacking_acquireAll (source : Resource.Source) (policy : w.registry.settings.missing = .fail) :
    (w.perform (.acquireAll source)).lacking = 0 := by
  refine List.countP_eq_zero.mpr fun i hi => ?_
  have registered : i ∈ w.registry.entries := hi
  have acquired : (w.perform (.acquireAll source)).system.loaders i =
      (w.system.loaders i).acquired w.registry.settings source := by
    simp only [World.perform, (w.system.agrees_acquireAll w.registry source).loaders,
      if_pos registered]
  rw [acquired]
  have held := Loader.bytes_acquired (l := w.system.loaders i) policy source
  simp only [decide_eq_true_eq, not_and]
  intro pending none
  simp [none] at held
  exact held pending

end Runs

/-- **Loads in the order of registration.** Loaders are registered and given bytes, and bytes are
acquired for all. Then, whatever ticks and steps of workers follow one another, there is always a way
to an answer that all is loaded or stalled; and the first such answer comes when the loaders that held
bytes were dispatched, each once and in order, and hold what their decoders make of these bytes. All
others are as they were. The answer counts those that are pending without bytes, and there is none
where such loaders are to fail. -/
theorem loads_in_registration_order [DecidableEq ι] {w : World ι Model}
    {preparation run : List (Action ι)} (fresh : w.Fresh) (prepares : w.Allows Preparing preparation)
    (source : Resource.Source) :
    let u := (w.after preparation).perform (.acquireAll source)
    u.Allows Driving run → (∀ x ∈ (u.after run).answers, ¬x.Concludes) →
    (∃ more, u.Allows Driving (run ++ more) ∧
      ∃ x ∈ (u.after (run ++ more)).answers, x.Concludes) ∧
    ∀ refusal last, let v := (u.after run).perform (.tick refusal)
      v.answers.getLast? = some last → last.Concludes →
      v.dispatched = u.holders ∧
      u.holders.Nodup ∧ (u.holders.map fun i => (u.system.loaders i).name).Nodup ∧
      (∀ i ∈ u.holders, (u.system.loaders i).Decodes (v.system.loaders i)) ∧
      (∀ i, i ∉ u.holders → v.system.loaders i = u.system.loaders i) ∧
      (last = if u.lacking = 0 then .allLoaded else .stalled u.lacking) ∧
      (u.registry.settings.missing = .fail → last = .allLoaded) := by
  intro u allowed goesOn
  have before := World.after_induction (fun v a => Prepared.perform) prepares (prepared_of_fresh fresh)
  have prepared : Prepared u := before.perform (a := .acquireAll source) trivial
  obtain ⟨orderly, driven⟩ := prepared.driven.after prepared prepared.orderly allowed goesOn
  constructor
  · obtain ⟨more, allowed', x, hx, concludes⟩ :=
      driven.can_conclude prepared _ orderly (Nat.lt_succ_self _) goesOn
    exact ⟨more, World.allows_append.mpr ⟨allowed, allowed'⟩, x, by rw [World.after_append]; exact hx,
      concludes⟩
  intro refusal last v answer concludes
  have distinct := prepared.orderly.ledger.distinct
  have own : ((u.after run).scheduler.tick refusal (u.after run).registry
      (u.after run).system).1 = last := by
    simpa [v, World.perform] using answer
  obtain ⟨order, landed, loaders, same, counts⟩ :=
    driven.conclude prepared.atRest distinct orderly.tracked refusal (own ▸ concludes)
  have inside : u.holders.Sublist u.registry.entries := List.filter_sublist
  refine ⟨same.trans order, distinct.sublist inside, prepared.names.sublist (inside.map _),
    fun i hi => ?_, fun i hi => ?_, own.symm.trans counts, fun policy => ?_⟩
  · have held : (u.system.loaders i).bytes.isSome := (List.mem_filter.mp hi).2
    obtain ⟨t, new⟩ := driven.ended i (order ▸ hi) (landed i)
    simp only [v]
    rw [loaders, new]
    exact Loader.decodes_delivered (prepared.atRest i) held t
  · simp only [v]
    rw [loaders]
    exact driven.others i (order ▸ hi)
  · have lacking : u.lacking = 0 := lacking_acquireAll source policy
    rw [← own, counts, if_pos lacking]

/-- One loader is given bytes, the other gets those of a resource, and the scheduler is given ticks
also while loads are in flight. -/
theorem loads_in_registration_order_of_pair :
    let source : Resource.Source :=
      { owner := "Models", names := ["two.bytes"], openStream := fun _ => .ok (.ok [2]) }
    let preparation : List (Action Bool) := [.register true, .giveBytes true [1], .register false]
    let run : List (Action Bool) := [.tick none, .tick none, .work ⟨true, 0⟩, .tick none,
      .finish ⟨true, some [1], some 0⟩, .tick none, .work ⟨false, 1⟩, .finish ⟨false, some [2], some 1⟩]
    let u := (World.pair.after preparation).perform (.acquireAll source)
    let v := (u.after run).perform (.tick none)
    v.dispatched = [true, false] ∧ u.holders = [true, false] ∧ v.answers.getLast? = some .allLoaded := by
  intro source preparation run u v
  have prepares : World.pair.Allows Preparing preparation := by decide +kernel
  have drives : u.Allows Driving run := by decide +kernel
  have goesOn : ∀ x ∈ (u.after run).answers, ¬x.Concludes := by decide +kernel
  have last : v.answers.getLast? = some .allLoaded := by decide +kernel
  have held : u.holders = [true, false] := by decide +kernel
  have all := (loads_in_registration_order World.fresh_pair prepares source drives goesOn).2 none
    .allLoaded last trivial
  exact ⟨all.1.trans held, held, last⟩

end ModelLoading.Loading
