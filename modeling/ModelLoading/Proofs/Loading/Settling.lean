import ModelLoading.Proofs.Loading.Records
import ModelLoading.Proofs.Loading.Sequence

/-!
# Settling

Once loaders are prepared, the scheduler is given ticks until one concludes; workers take their steps
between ticks, in any order (`World.SettlesTo`). However the steps fall, the end is the same
(`Settlement`): its answer, its count, the loaders, and, up to the order, the log. The function that
lets the workers finish between any two ticks is one way of settling (`settlesTo_settle`), and it
always comes to a conclusion: each round takes away one of the loaders that hold bytes.
-/

namespace ModelLoading.Loading

variable {ι Model : Type}

/-! ## The log -/

/-- The entry reports that no thread could be started. -/
def Entry.isRefusal (e : Entry ι) : Bool :=
  match e.event with
  | .refused .. => true
  | _ => false

/-- The log without the reports of threads that could not be started. -/
def System.records (s : System ι Model) : List (Entry ι) := s.log.filter fun e => !e.isRefusal

theorem System.records_append {s t : System ι Model} {more : List (Entry ι)}
    (log : t.log = s.log ++ more) :
    t.records = s.records ++ more.filter fun e => !e.isRefusal := by
  simp only [records, log, List.filter_append]

/-- What is logged when a loader is dispatched. -/
def dispatchEntry (i : ι) : Entry ι := ⟨.caller, .dispatched i⟩

/-- What is logged when the worker of a loader comes to its end. -/
def World.outcomeEntry (w : World ι Model) (i : ι) : Entry ι :=
  ⟨.worker, outcomeEvent i ((w.system.loaders i).outcome (w.system.loaders i).bytes)⟩

/-- The log of a world on its way: an entry for each dispatch, and one for each load that ended. -/
def Logged (w v : World ι Model) : Prop :=
  ∃ ended : List ι,
    (ended ++ v.system.queue.map (·.loader) ++ v.system.runs.map (·.loader)).Perm v.dispatched ∧
    v.system.records.Perm
      (w.system.records ++ v.dispatched.map dispatchEntry ++ ended.map w.outcomeEntry)

/-! ## One step -/

section Steps

variable [DecidableEq ι] {w v : World ι Model}

theorem Logged.work (logged : Logged w v) (driven : Driven w v)
    (rest : ∀ i, (w.system.loaders i).AtRest) (stage : Stage v.system) {k : Work ι}
    (h : k ∈ v.system.queue) : Logged w (v.perform (.work k)) := by
  obtain ⟨ended, loaders, log⟩ := logged
  obtain ⟨loaded, started⟩ := driven.free rest h
  have agrees := v.system.work_of_free k loaded started
  have silent : (v.system.work k).2.log = v.system.log :=
    System.log_start_of_free { v.system with queue := v.system.queue.erase k } k.loader loaded started
      (some k.task)
  cases stage with
  | rest queue => rw [queue] at h; cases h
  | running r t queue => rw [queue] at h; cases h
  | waiting i t queue runs one others =>
    rw [queue, List.mem_singleton] at h
    subst h
    refine ⟨ended, ?_, ?_⟩
    · have before : (ended ++ [i]).Perm v.dispatched := by simpa [queue, runs] using loaders
      simpa [World.perform, World.dispatched, agrees.queue, agrees.runs, queue, runs, System.runOf]
        using before
    · simpa [World.perform, World.dispatched, System.records, silent] using log

theorem Logged.finish (logged : Logged w v) (driven : Driven w v) (stage : Stage v.system)
    {r : Run ι} (h : r ∈ v.system.runs) : Logged w (v.perform (.finish r)) := by
  obtain ⟨ended, loaders, log⟩ := logged
  obtain ⟨-, taken, t, underway⟩ := driven.running r h
  have agrees := v.system.agrees_finish r
  cases stage with
  | rest _ runs => rw [runs] at h; cases h
  | waiting _ _ _ runs => rw [runs] at h; cases h
  | running r' t' queue runs task one others =>
    rw [runs, List.mem_singleton] at h
    subst h
    have party : r.party = .worker := by simp [Run.party, task]
    have outcome : (v.system.loaders r.loader).outcome r.taken =
        (w.system.loaders r.loader).outcome (w.system.loaders r.loader).bytes := by
      rw [underway, taken]
      cases (w.system.loaders r.loader).bytes <;> rfl
    have entry := System.records_append (v.system.log_finish r)
    rw [party, outcome] at entry
    refine ⟨ended ++ [r.loader], ?_, ?_⟩
    · have before : (ended ++ [r.loader]).Perm v.dispatched := by simpa [queue, runs] using loaders
      have queue' : (v.system.finish r).queue = [] :=
        (agrees.queue.trans (System.queue_completeOf _ _)).trans queue
      have runs' : (v.system.finish r).runs = [] := agrees.runs.trans (by simp [runs])
      simpa [World.perform, World.dispatched, queue', runs'] using before
    · have shown : (!Entry.isRefusal (w.outcomeEntry r.loader)) = true := by
        unfold World.outcomeEntry outcomeEvent
        cases (w.system.loaders r.loader).outcome (w.system.loaders r.loader).bytes <;> rfl
      have more : (v.system.finish r).records = v.system.records ++ [w.outcomeEntry r.loader] := by
        rw [entry]
        exact congrArg _ (List.filter_eq_self.mpr (by simpa [World.outcomeEntry] using shown))
      simp only [World.perform, more, World.dispatched, List.map_append, List.map_cons, List.map_nil,
        ← List.append_assoc]
      exact log.append_right _

omit [DecidableEq ι] in
/-- A tick that dispatches nothing. -/
theorem Logged.keep (logged : Logged w v) {answer : Tick ι} {s : System ι Model}
    (silent : answer.dispatched? = none) (queue : s.queue = v.system.queue)
    (runs : s.runs = v.system.runs) (records : s.records = v.system.records) :
    Logged w { v with system := s, answers := v.answers ++ [answer] } := by
  obtain ⟨ended, loaders, log⟩ := logged
  have dispatched : World.dispatched { v with system := s, answers := v.answers ++ [answer] } =
      v.dispatched := by
    simp [World.dispatched, silent]
  refine ⟨ended, ?_, ?_⟩
  · rw [dispatched, queue, runs]; exact loaders
  · rw [dispatched, records]; exact log

/-- A dispatch while nothing is in flight. -/
theorem Logged.dispatch (logged : Logged w v) (stage : Stage v.system)
    (none : v.system.flights = []) (i : ι) (c : Scheduler) :
    Logged w { v with
      system := (v.system.dispatch i).2, scheduler := c, answers := v.answers ++ [.dispatched i] } := by
  obtain ⟨ended, loaders, log⟩ := logged
  obtain ⟨queue, runs, -⟩ := stage.grounded none
  have agrees := v.system.agrees_dispatch i
  have queue' : (v.system.dispatch i).2.queue = [⟨i, v.system.tasks.length⟩] := by
    rw [agrees.queue, queue]; rfl
  have runs' : (v.system.dispatch i).2.runs = [] := agrees.runs.trans runs
  have dispatched : World.dispatched { v with
      system := (v.system.dispatch i).2, scheduler := c, answers := v.answers ++ [.dispatched i] } =
      v.dispatched ++ [i] := by
    simp [World.dispatched, Tick.dispatched?]
  refine ⟨ended, ?_, ?_⟩
  · have before : ended.Perm v.dispatched := by simpa [queue, runs] using loaders
    rw [dispatched, queue', runs']
    simpa using before.append_right [i]
  · have entry : (v.system.dispatch i).2.records = v.system.records ++ [dispatchEntry i] :=
      System.records_append (v.system.log_dispatch i)
    rw [dispatched, entry, List.map_append, List.map_singleton]
    refine (log.append_right _).trans ?_
    simp only [List.append_assoc]
    exact (List.perm_append_comm.append_left _).append_left _

theorem Logged.tick (logged : Logged w v) (tracked : Tracked v) (stage : Stage v.system)
    (refusal : Option Files.IoError)
    (goesOn : ¬(v.scheduler.tick refusal v.registry v.system).1.Concludes) :
    Logged w (v.perform (.tick refusal)) := by
  have rule := tickRule v.scheduler refusal v.registry v.system
  simp only [World.perform]
  generalize v.scheduler.tick refusal v.registry v.system = x at rule goesOn ⊢
  cases rule with
  | idle flag once => exact logged.keep rfl rfl rfl rfl
  | busy looks busy => exact logged.keep rfl rfl rfl rfl
  | dispatched looks free i next starts =>
    exact logged.dispatch stage (tracked.flights_eq_nil free) i _
  | refused looks free i next cause refuses =>
    have agrees := v.system.agrees_refuse i cause
    have silent := System.records_append (v.system.log_refuse i cause)
    exact logged.keep rfl agrees.queue agrees.runs (silent.trans (List.append_nil _))
  | allLoaded looks free next ended t agrees => exact absurd trivial goesOn
  | stalled looks free next some => exact absurd trivial goesOn

/-- Every dispatch is counted. -/
theorem count_perform (v : World ι Model) (a : Action ι) :
    (v.perform a).scheduler.dispatched + v.dispatched.length =
      v.scheduler.dispatched + (v.perform a).dispatched.length := by
  cases a with
  | register i =>
    simp only [World.perform]
    cases v.registry.register v.system i <;> rfl
  | tick refusal =>
    have rule := tickRule v.scheduler refusal v.registry v.system
    simp only [World.perform]
    generalize v.scheduler.tick refusal v.registry v.system = x at rule ⊢
    cases rule with
    | dispatched looks free i next starts =>
      simp [World.dispatched, Tick.dispatched?]
      omega
    | _ => simp [World.dispatched, Tick.dispatched?]
  | _ => rfl

theorem count_after (v : World ι Model) (h : List (Action ι)) :
    (v.after h).scheduler.dispatched + v.dispatched.length =
      v.scheduler.dispatched + (v.after h).dispatched.length := by
  induction h generalizing v with
  | nil => rfl
  | cons a h ih =>
    have step := count_perform v a
    have rest := ih (v.perform a)
    simp only [World.after_cons]
    omega

end Steps

/-! ## The end -/

section Ends

variable [DecidableEq ι] {w v : World ι Model} {x : Tick ι × Scheduler × System ι Model}

/-- A way of settling: ticks that do not conclude, and steps of workers between them, and then a tick
that does. What it answers and leaves behind is the outcome. -/
def World.SettlesTo (w : World ι Model) (x : Tick ι × Scheduler × System ι Model) : Prop :=
  ∃ run refusal, w.Allows Driving run ∧ (∀ y ∈ (w.after run).answers, ¬y.Concludes) ∧
    (w.after run).scheduler.tick refusal (w.after run).registry (w.after run).system = x ∧
    x.1.Concludes

/-- What becomes of prepared loaders, whatever way they settle. -/
structure Settlement (w : World ι Model) (x : Tick ι × Scheduler × System ι Model) : Prop where
  answer : x.1 = if w.lacking = 0 then .allLoaded else .stalled w.lacking
  count : x.2.1.dispatched = w.scheduler.dispatched + w.holders.length
  delivered : ∀ i ∈ w.holders, ∃ t, x.2.2.loaders i = (w.system.loaders i).delivered t
  others : ∀ i, i ∉ w.holders → x.2.2.loaders i = w.system.loaders i
  log : x.2.2.records.Perm (w.system.records ++ w.holders.map dispatchEntry ++
    w.holders.map w.outcomeEntry ++
    if w.lacking = 0 then [⟨.caller, .allLoaded w.registry.entries.length⟩] else [])

theorem Logged.after {run : List (Action ι)} (prepared : Prepared w)
    (allowed : w.Allows Driving run) (goesOn : ∀ y ∈ (w.after run).answers, ¬y.Concludes) :
    Logged w (w.after run) := by
  have start : Logged w w := by
    obtain ⟨queue, runs, -⟩ := prepared.orderly.stage.grounded prepared.grounded
    refine ⟨[], ?_, ?_⟩
    · simp [queue, runs, World.dispatched, prepared.answers]
    · simp [World.dispatched, prepared.answers]
  have both := World.after_induction
    (I := fun v => Orderly v ∧ ((∀ y ∈ v.answers, ¬y.Concludes) → Driven w v ∧ Logged w v))
    (fun v a may before => ⟨before.1.perform may.ordinary, fun goesOn => ?_⟩)
    allowed ⟨prepared.orderly, fun _ => ⟨prepared.driven, start⟩⟩
  · exact (both.2 goesOn).2
  · obtain ⟨orderly, before⟩ := before
    cases a with
    | tick refusal =>
      simp only [World.perform, List.mem_append, List.mem_singleton] at goesOn
      obtain ⟨driven, logged⟩ := before fun y hy => goesOn y (Or.inl hy)
      have last := goesOn _ (Or.inr rfl)
      exact ⟨driven.tick prepared.atRest prepared.orderly.ledger.distinct orderly.tracked orderly.stage
        refusal last, logged.tick orderly.tracked orderly.stage refusal last⟩
    | work k =>
      obtain ⟨driven, logged⟩ := before goesOn
      exact ⟨driven.work prepared.atRest orderly.stage may,
        logged.work driven prepared.atRest orderly.stage may⟩
    | finish r =>
      obtain ⟨driven, logged⟩ := before goesOn
      exact ⟨driven.finish orderly.stage may, logged.finish driven orderly.stage may⟩
    | _ => exact may.elim

/-- A tick that concludes dispatches nothing and reports no more than that all is loaded. -/
theorem tick_of_concludes {c : Scheduler} (looking : c.allLoaded = false)
    (refusal : Option Files.IoError) (r : Registry ι) (s : System ι Model)
    (concludes : (c.tick refusal r s).1.Concludes) :
    (c.tick refusal r s).2.1.dispatched = c.dispatched ∧
    (c.tick refusal r s).2.2.log = s.log ++
      if (c.tick refusal r s).1 = .allLoaded then [⟨.caller, .allLoaded r.entries.length⟩] else [] := by
  unfold Scheduler.tick at concludes ⊢
  simp only [looking, Bool.false_eq_true, false_and, if_false] at concludes ⊢
  split at concludes
  · exact concludes.elim
  · rename_i free
    cases next : r.next? s with
    | some i =>
      simp only [next] at concludes
      cases refusal with
      | none => exact concludes.elim
      | some cause => exact concludes.elim
    | none =>
      cases left : r.pendingCount s with
      | zero => simp [free]
      | succ n => simp [free]

/-- Whatever way prepared loaders settle, the end is the same. -/
theorem World.SettlesTo.settlement (settles : w.SettlesTo x) (prepared : Prepared w) :
    Settlement w x := by
  obtain ⟨run, refusal, allowed, goesOn, rfl, concludes⟩ := settles
  obtain ⟨orderly, driven⟩ := prepared.driven.after prepared prepared.orderly allowed goesOn
  obtain ⟨ended, loaders, log⟩ := Logged.after prepared allowed goesOn
  have counted := count_after w run
  generalize w.after run = v at *
  have distinct := prepared.orderly.ledger.distinct
  obtain ⟨order, landed, same, -, answer⟩ :=
    driven.conclude prepared.atRest distinct orderly.tracked refusal concludes
  obtain ⟨count, entry⟩ := tick_of_concludes driven.looking refusal _ _ concludes
  have none : w.dispatched = [] := by simp [World.dispatched, prepared.answers]
  refine ⟨answer, ?_, fun i hi => ?_, fun i hi => ?_, ?_⟩
  · rw [none, order] at counted
    exact count.trans counted
  · obtain ⟨t, new⟩ := driven.ended i (order ▸ hi) (landed i)
    exact ⟨t, (congrFun same i).trans new⟩
  · exact (congrFun same i).trans (driven.others i (order ▸ hi))
  · -- nothing is queued or in progress any more, so every load that was dispatched has ended
    have queue : v.system.queue = [] := by
      cases queue : v.system.queue with
      | nil => rfl
      | cons k rest => exact absurd (Or.inl ⟨k, by simp [queue], rfl⟩) (landed k.loader)
    have runs : v.system.runs = [] := by
      cases runs : v.system.runs with
      | nil => rfl
      | cons r rest =>
        have task : r.task.isSome := orderly.stage.task_of_mem_runs (by simp [runs])
        exact absurd (Or.inr ⟨r, by simp [runs], rfl, task⟩) (landed r.loader)
    have all : ended.Perm w.holders := by simpa [queue, runs, order] using loaders
    rw [System.records_append entry, answer, driven.registry]
    refine List.Perm.append ?_ ?_
    · rw [order] at log
      exact log.trans ((all.map _).append_left _)
    · split
      · simp [Entry.isRefusal]
      · simp

end Ends

/-! ## Settling with the workers between ticks -/

section Rounds

variable [DecidableEq ι] {w v : World ι Model}

/-- A history on the way to the end: ticks and steps of workers, and every tick leaves something to come. -/
structure World.Unsettled (w : World ι Model) (run : List (Action ι)) : Prop where
  allowed : w.Allows Driving run
  goesOn : ∀ y ∈ (w.after run).answers, y.isUnsettled = true

/-- A way of settling: a history on the way to the end, and then a tick that leaves nothing to come. What
it answers and leaves behind is the outcome. -/
def World.Settles (w : World ι Model) (x : Tick ι × Scheduler × System ι Model) : Prop :=
  ∃ run refusal, w.Unsettled run ∧
    (w.after run).scheduler.tick refusal (w.after run).registry (w.after run).system = x ∧
    x.1.isUnsettled = false

/-- Rounds of a tick and all that follows from it are a way of settling, if the scheduler is free where
nothing is in flight, and there are more rounds to come than loaders to be dispatched. -/
theorem settles_settleWithin {most : Nat}
    (fits : ∀ run, w.Unsettled run → (w.after run).dispatched.length ≤ most)
    (frees : ∀ run, w.Unsettled run → (w.after run).system.queue = [] →
      (w.after run).system.runs = [] → (w.after run).scheduler.isBusy (w.after run).system = false)
    (n : Nat) {run : List (Action ι)} (unsettled : w.Unsettled run)
    (free : (w.after run).scheduler.isBusy (w.after run).system = false)
    (enough : most < n + (w.after run).dispatched.length) :
    w.Settles (Scheduler.settleWithin n (w.after run).scheduler (w.after run).registry
      (w.after run).system) := by
  induction n generalizing run with
  | zero =>
    have all := fits run unsettled
    omega
  | succ n ih =>
    unfold Scheduler.settleWithin Scheduler.advance
    cases last : ((w.after run).scheduler.tick none (w.after run).registry
        (w.after run).system).1.isUnsettled with
    | false =>
      simp only [last]
      exact ⟨run, none, unsettled, rfl, last⟩
    | true =>
      simp only [last, if_true]
      have one := length_tick free last
      have may : Driving (w.after run) (.tick none) := trivial
      obtain ⟨more, allowed, drained, queue, runs⟩ := exists_drain ((w.after run).perform (.tick none))
      have whole : w.after (run ++ .tick none :: more) =
          { (w.after run).perform (.tick none) with
            system := ((w.after run).perform (.tick none)).system.drain } := by
        rw [World.after_append, World.after_cons, drained]
      have answers : (w.after (run ++ .tick none :: more)).answers =
          ((w.after run).perform (.tick none)).answers := by rw [whole]
      have onward : w.Unsettled (run ++ .tick none :: more) := by
        refine ⟨World.allows_append.mpr ⟨unsettled.allowed, may, allowed⟩, ?_⟩
        rw [answers]
        simp only [World.perform, List.mem_append, List.mem_singleton]
        rintro y (before | rfl)
        · exact unsettled.goesOn y before
        · exact last
      have landed := frees _ onward (by rw [whole]; exact queue) (by rw [whole]; exact runs)
      have next := ih onward landed ?_
      · rw [whole] at next
        exact next
      · have dispatched : (w.after (run ++ .tick none :: more)).dispatched =
            ((w.after run).perform (.tick none)).dispatched := by
          simp only [World.dispatched, answers]
        rw [dispatched, one]
        omega

/-- To settle with the workers finishing between ticks is a way of settling. -/
theorem World.Unsettled.settles {most : Nat} (start : w.Unsettled [])
    (fits : ∀ run, w.Unsettled run → (w.after run).dispatched.length ≤ most)
    (frees : ∀ run, w.Unsettled run → (w.after run).system.queue = [] →
      (w.after run).system.runs = [] → (w.after run).scheduler.isBusy (w.after run).system = false)
    (free : w.scheduler.isBusy w.system = false) (few : most ≤ w.registry.entries.length) :
    w.Settles (w.scheduler.settle w.registry w.system) :=
  settles_settleWithin fits frees (w.registry.entries.length + 2) start free (by omega)

theorem World.Unsettled.not_concludes {run : List (Action ι)} (unsettled : w.Unsettled run) :
    ∀ y ∈ (w.after run).answers, ¬y.Concludes := by
  intro y hy concludes
  have goesOn := unsettled.goesOn y hy
  rw [not_isUnsettled_of_concludes concludes] at goesOn
  cases goesOn

/-- To settle with the workers finishing between ticks comes to a conclusion. -/
theorem settlesTo_settle (prepared : Prepared w) :
    w.SettlesTo (w.scheduler.settle w.registry w.system) := by
  have onward : ∀ run, w.Unsettled run → Orderly (w.after run) ∧ Driven w (w.after run) :=
    fun run unsettled => prepared.driven.after prepared prepared.orderly unsettled.allowed
      unsettled.not_concludes
  have frees : ∀ run, w.Unsettled run → (w.after run).system.queue = [] →
      (w.after run).system.runs = [] →
      (w.after run).scheduler.isBusy (w.after run).system = false := by
    intro run unsettled queue runs
    refine Bool.eq_false_iff.mpr fun busy => ?_
    exact (onward run unsettled).1.tracked.isBusy_iff.mp busy (by simp [System.flights, queue, runs])
  have start : w.Unsettled [] := ⟨trivial, by simp [prepared.answers]⟩
  obtain ⟨queue, runs, -⟩ := prepared.orderly.stage.grounded prepared.grounded
  obtain ⟨run, refusal, unsettled, same, last⟩ := start.settles
    (fun run unsettled => (onward run unsettled).2.order.length_le) frees (frees [] start queue runs)
    (List.length_filter_le _ _)
  refine ⟨run, refusal, unsettled.allowed, unsettled.not_concludes, same, ?_⟩
  refine Decidable.byContradiction fun more => ?_
  rw [← same] at more last
  rw [(onward run unsettled).2.isUnsettled refusal more] at last
  cases last

end Rounds

end ModelLoading.Loading
