import ModelLoading.Proofs.Loading.Records
import ModelLoading.Proofs.Loading.World

/-!
# What an action does to one loader

An action starts at most one run and ends at most one (`System.startedBy`, `System.endedBy`). Seen
from one loader there are four cases (`Moves`): the action starts a run of the loader, ends one, does
both, or does neither and changes the loader in one of a few ways (`Loader.Touched`). Each case says
what becomes of the loader, of the number of its runs in progress, and of the number of reports about
the end of a run of it. Invariants of one loader are proved by these cases and not by the actions.
-/

namespace ModelLoading.Loading

variable {ι Model : Type} [DecidableEq ι]

namespace System

variable (s : System ι Model)

/-- The run that an action starts. -/
def startedBy : Action ι → Option (Run ι)
  | .start i | .load i => (s.start i none).1
  | .work k => (s.work k).1
  | _ => none

/-- The run that an action brings to its end. -/
def endedBy : Action ι → Option (Run ι)
  | .load i => (s.start i none).1
  | .finish r => some r
  | _ => none

/-- The number of runs of a loader that are in progress. -/
def active (i : ι) : Nat := s.runs.countP fun r => r.loader = i

/-- The number of times that the end of a run of a loader was reported. -/
def reports (i : ι) : Nat := s.log.countP fun e => e.event.ended? = some i

end System

/-! ## Reports -/

namespace System

variable {s t : System ι Model} {i : ι}

theorem reports_congr (h : t.log = s.log) : t.reports i = s.reports i := by
  simp only [reports, h]

theorem reports_append {more : List (Entry ι)} (h : t.log = s.log ++ more) :
    t.reports i = s.reports i + more.countP fun e => e.event.ended? = some i := by
  simp only [reports, h, List.countP_append]

/-- Entries about anything but the end of a run leave the reports. -/
theorem reports_of_quiet {more : List (Entry ι)} (h : t.log = s.log ++ more)
    (quiet : ∀ e ∈ more, e.event.ended? = none) : t.reports i = s.reports i := by
  rw [reports_append h, List.countP_eq_zero.mpr, Nat.add_zero]
  intro e he
  simp [quiet e he]

omit [DecidableEq ι] in
theorem quiet_lookupEntries (i : ι) (source : Resource.Source) (m : Resource.Matching)
    (file : String) : ∀ e ∈ lookupEntries i source m file, e.event.ended? = none := by
  intro e he
  simp only [lookupEntries, List.mem_append, List.mem_map] at he
  rcases he with ⟨r, -, rfl⟩ | found
  · rfl
  · split at found
    · cases found
    · split at found
      · cases found
      · obtain rfl := List.mem_singleton.mp found
        rfl

omit [DecidableEq ι] in
theorem quiet_acquisitionEntries (i : ι) (settings : Settings) (source : Resource.Source)
    (l : Loader Model) : ∀ e ∈ acquisitionEntries i settings source l, e.event.ended? = none := by
  intro e he
  unfold acquisitionEntries at he
  split at he
  · cases he
  · rcases List.mem_append.mp he with looked | missed
    · exact quiet_lookupEntries i source _ _ e looked
    · split at missed
      · cases missed
      · obtain rfl := List.mem_singleton.mp missed
        rfl

variable (s i)

theorem reports_giveBytes (j : ι) (data : Bytes) : (s.giveBytes j data).reports i = s.reports i := by
  refine reports_of_quiet (s.log_giveBytes j data) fun e he => ?_
  split at he
  · cases he
  · obtain rfl := List.mem_singleton.mp he
    rfl

theorem reports_acquire (j : ι) (source : Resource.Source) (m : Resource.Matching) :
    (s.acquire j source m).2.reports i = s.reports i := by
  have log := s.log_acquire j source m
  rw [List.append_assoc] at log
  refine reports_of_quiet log fun e he => ?_
  rcases List.mem_append.mp he with looked | late
  · exact quiet_lookupEntries j source m _ e looked
  · split at late
    · split at late
      · cases late
      · obtain rfl := List.mem_singleton.mp late
        rfl
    · cases late

theorem reports_acquireEach (settings : Settings) (source : Resource.Source) (is : List ι) :
    (Registry.acquireEach settings source is s).2.reports i = s.reports i := by
  induction is generalizing s with
  | nil => rfl
  | cons j is ih =>
    have one := reports_of_quiet (i := i) (s.log_acquireOne j settings source)
      (quiet_acquisitionEntries j settings source (s.loaders j))
    exact (ih _).trans one

theorem reports_tick (c : Scheduler) (refusal : Option Files.IoError) (r : Registry ι) :
    (c.tick refusal r s).2.2.reports i = s.reports i := by
  unfold Scheduler.tick
  split
  · rfl
  · split
    · rfl
    · split
      · split
        · exact reports_of_quiet (s.log_dispatch _) (by simp [Event.ended?])
        · exact reports_of_quiet (s.log_refuse _ _) (by simp [Event.ended?])
      · split
        · split
          · rfl
          · exact reports_of_quiet (s.log_note _ _) (by simp [Event.ended?])
        · rfl

theorem reports_finish (r : Run ι) :
    (s.finish r).reports i = s.reports i + if r.loader = i then 1 else 0 := by
  rw [reports_append (s.log_finish r)]
  cases (s.loaders r.loader).outcome r.taken <;>
    by_cases own : r.loader = i <;> simp [outcomeEvent, Event.ended?, own]

end System

/-! ## The loader -/

/-- The loader once its run has taken its bytes. -/
def Loader.taken (l : Loader Model) : Loader Model :=
  { l with started := true, phase := .loading, bytes := none }

/-- What an action makes of a loader no run of which it starts or ends. -/
inductive Loader.Touched (i : ι) (l : Loader Model) : Action ι → Loader Model → Prop
  | same {a : Action ι} : Touched i l a l
  | given {a : Action ι} (data : Bytes) : Touched i l a (l.giveBytes data)
  | failed {a : Action ι} (reason : String) : Touched i l a (l.fail reason)
  | assigned {a : Action ι} (t : TaskId) : Touched i l a (l.assign t)
  | unassigned : Touched i l (.unassign i) l.unassign
  | refused {a : Action ι} (t : TaskId) (pending : l.phase = .pending) :
      Touched i l a (l.assign t).unassign

omit [DecidableEq ι] in
theorem Loader.touched_acquired (i : ι) (a : Action ι) (settings : Settings)
    (source : Resource.Source) (l : Loader Model) : Touched i l a (l.acquired settings source) := by
  unfold acquired
  split
  · exact .same
  · split
    · exact .given _
    · split
      · exact .failed _
      · exact .same

/-- What an action does to one loader. -/
inductive Moves (i : ι) (a : Action ι) (s t : System ι Model) : Prop
  | touches (starts : ∀ r, s.startedBy a = some r → r.loader ≠ i)
      (ends : ∀ r, s.endedBy a = some r → r.loader ≠ i)
      (becomes : (s.loaders i).Touched i a (t.loaders i))
      (active : t.active i = s.active i) (reports : t.reports i = s.reports i)
  | starts (r : Run ι) (own : r.loader = i)
      (starts : s.startedBy a = some r) (ends : s.endedBy a = none)
      (loaded : (s.loaders i).isLoaded = false) (fresh : (s.loaders i).started = false)
      (becomes : t.loaders i = (s.loaders i).taken)
      (active : t.active i = s.active i + 1) (reports : t.reports i = s.reports i)
  | ends (r : Run ι) (own : r.loader = i)
      (starts : s.startedBy a = none) (ends : s.endedBy a = some r)
      (becomes : t.loaders i = (s.loaders i).finish ((s.loaders i).outcome r.taken))
      (active : r ∈ s.runs → s.active i = t.active i + 1)
      (reports : t.reports i = s.reports i + 1)
  | loads (r : Run ι) (own : r.loader = i)
      (starts : s.startedBy a = some r) (ends : s.endedBy a = some r)
      (loaded : (s.loaders i).isLoaded = false) (fresh : (s.loaders i).started = false)
      (becomes : t.loaders i = (s.loaders i).taken.finish ((s.loaders i).outcome r.taken))
      (active : t.active i = s.active i) (reports : t.reports i = s.reports i + 1)

namespace Moves

variable {s t : System ι Model} {i : ι} {a : Action ι}

/-- An action that neither starts a run nor ends one. -/
theorem of_agrees {u : System ι Model} (starts : s.startedBy a = none) (ends : s.endedBy a = none)
    (agrees : t.Agrees u) (runs : u.runs = s.runs)
    (becomes : (s.loaders i).Touched i a (u.loaders i)) (reports : t.reports i = s.reports i) :
    Moves i a s t := by
  refine .touches ?_ ?_ ?_ ?_ reports
  · intro r hr
    rw [starts] at hr
    cases hr
  · intro r hr
    rw [ends] at hr
    cases hr
  · rw [agrees.loaders]
    exact becomes
  · simp only [System.active, agrees.runs, runs]

/-- The same, where the action changes one loader. -/
theorem of_update {j : ι} {f : Loader Model → Loader Model} (starts : s.startedBy a = none)
    (ends : s.endedBy a = none) (agrees : t.Agrees (s.update j f))
    (becomes : j = i → (s.loaders i).Touched i a (f (s.loaders i)))
    (reports : t.reports i = s.reports i) : Moves i a s t := by
  refine .of_agrees starts ends agrees rfl ?_ reports
  by_cases own : i = j
  · subst own
    rw [s.update_self]
    exact becomes rfl
  · rw [s.update_of_ne own]
    exact .same

end Moves

section Runs

variable (s : System ι Model) (i : ι)

theorem active_erase {r : Run ι} (h : r ∈ s.runs) :
    s.active i = (s.runs.erase r).countP (fun q => q.loader = i) + if r.loader = i then 1 else 0 := by
  rw [System.active, (List.perm_cons_erase h).countP_eq, List.countP_cons]
  simp

/-- A run of a loader may start, on the worker of a task or for a caller, or it may not. -/
theorem start_cases (j : ι) (task : Option TaskId) :
    ((s.start j task).1 = none ∧ (s.start j task).2.loaders = s.loaders ∧
      (s.start j task).2.runs = s.runs ∧ (s.start j task).2.reports i = s.reports i) ∨
    ((s.loaders j).isLoaded = false ∧ (s.loaders j).started = false ∧
      (s.start j task).1 = some (s.runOf j task) ∧
      (s.start j task).2.loaders = (s.update j Loader.taken).loaders ∧
      (s.start j task).2.runs = s.runs ++ [s.runOf j task] ∧
      (s.start j task).2.reports i = s.reports i) := by
  rcases (s.loaders j).barred_or_free with barred | ⟨loaded, started⟩
  · obtain ⟨unstarted, agrees⟩ := s.start_of_barred j barred task
    refine Or.inl ⟨unstarted, ?_, ?_, ?_⟩
    · rw [agrees.loaders, System.loaders_completeOf]
    · rw [agrees.runs, System.runs_completeOf]
    · refine System.reports_of_quiet (s.log_start_of_barred j barred task) ?_
      simp [Event.ended?]
  · have free := s.start_of_free j loaded started task
    refine Or.inr ⟨loaded, started, ?_, ?_, ?_, ?_⟩
    · rw [free]
    · rw [free]; rfl
    · rw [free]
    · exact System.reports_congr (s.log_start_of_free j loaded started task)

/-- The start of a run, on the worker of a task or for a caller, whatever else is dispatched. -/
theorem moves_start {a : Action ι} (j : ι) (task : Option TaskId) (queue : List (Work ι))
    (starts : s.startedBy a = (System.start { s with queue } j task).1)
    (ends : s.endedBy a = none) : Moves i a s (System.start { s with queue } j task).2 := by
  rcases start_cases { s with queue } i j task with ⟨unstarted, loaders, runs, reports⟩ |
    ⟨loaded, started, some, loaders, runs, reports⟩
  · refine .touches ?_ ?_ ?_ ?_ reports
    · simp [starts, unstarted]
    · simp [ends]
    · rw [loaders]; exact .same
    · simp only [System.active, runs]
  · by_cases own : j = i
    · subst own
      refine .starts (s.runOf j task) rfl (starts.trans some) ends loaded started ?_ ?_ reports
      · rw [loaders, System.update_self]
      · simp [System.active, runs, System.runOf]
    · refine .touches ?_ ?_ ?_ ?_ reports
      · simp [starts, some, System.runOf, own]
      · simp [ends]
      · rw [loaders, System.update_of_ne _ (Ne.symm own)]; exact .same
      · simp [System.active, runs, System.runOf, own]

/-- The end of a run. -/
theorem moves_finish (r : Run ι) : Moves i (.finish r) s (s.finish r) := by
  have loaders := s.loaders_finish r i
  have runs := (s.agrees_finish r).runs
  have reports := s.reports_finish i r
  by_cases own : r.loader = i
  · subst own
    rw [if_pos rfl] at loaders reports
    refine .ends r rfl rfl rfl loaders (fun h => ?_) reports
    rw [active_erase s r.loader h, System.active, runs, if_pos rfl]
  · rw [if_neg (Ne.symm own)] at loaders
    rw [if_neg own] at reports
    refine .touches ?_ ?_ ?_ ?_ reports
    · simp [System.startedBy]
    · intro q hq
      obtain rfl := Option.some.inj hq
      exact own
    · rw [loaders]; exact .same
    · rw [System.active, runs]
      by_cases inside : r ∈ s.runs
      · rw [active_erase s i inside, if_neg own, Nat.add_zero]
      · rw [System.active, List.erase_of_not_mem inside]

/-- A caller's own run, from its start to its end. -/
theorem moves_load (j : ι) : Moves i (.load j) s (s.load j) := by
  rcases start_cases s i j none with ⟨unstarted, loaders, runs, reports⟩ |
    ⟨loaded, started, some, loaders, runs, reports⟩
  · rw [s.load_of_unstarted j unstarted]
    refine .touches ?_ ?_ ?_ ?_ reports
    · simp [System.startedBy, unstarted]
    · simp [System.endedBy, unstarted]
    · rw [loaders]; exact .same
    · simp only [System.active, runs]
  · have loads := s.load_of_free j loaded started
    have loaders' := System.loaders_finish (s.start j none).2 (s.runOf j none) i
    have runs' := (System.agrees_finish (s.start j none).2 (s.runOf j none)).runs
    have reports' := System.reports_finish (s.start j none).2 i (s.runOf j none)
    have inside : s.runOf j none ∈ (s.start j none).2.runs := by simp [runs]
    rw [← loads] at loaders' runs' reports'
    rw [reports] at reports'
    have active : (s.load j).active i = s.active i := by
      have before := active_erase (s.start j none).2 i inside
      have after : (s.start j none).2.active i =
          s.active i + if (s.runOf j none).loader = i then 1 else 0 := by
        by_cases own : (s.runOf j none).loader = i <;> simp [System.active, runs, own]
      rw [System.active, runs']
      simp only at before ⊢
      omega
    by_cases own : j = i
    · subst own
      refine .loads (s.runOf j none) rfl some some loaded started ?_ active ?_
      · rw [loaders', loaders]
        simp only [System.runOf, if_true, s.update_self]
        rfl
      · simpa [System.runOf] using reports'
    · have other : (s.runOf j none).loader ≠ i := own
      refine .touches ?_ ?_ ?_ active ?_
      · simp [System.startedBy, some, other]
      · simp [System.endedBy, some, other]
      · rw [loaders', if_neg (Ne.symm other), loaders, s.update_of_ne (Ne.symm own)]
        exact .same
      · simpa [other] using reports'

end Runs

/-! ## The action -/

/-- A tick starts and ends no run: at most it gives the next loader to a task, or takes it back where no
worker can be had. -/
theorem World.moves_tick (w : World ι Model) (refusal : Option Files.IoError) (i : ι) :
    Moves i (.tick refusal) w.system (w.perform (.tick refusal)).system := by
  have reports := w.system.reports_tick i w.scheduler refusal w.registry
  have rule := tickRule w.scheduler refusal w.registry w.system
  simp only [World.perform]
  generalize w.scheduler.tick refusal w.registry w.system = x at rule reports ⊢
  cases rule with
  | idle flag once => exact .of_agrees rfl rfl (System.Agrees.refl _) rfl .same rfl
  | busy looks busy => exact .of_agrees rfl rfl (System.Agrees.refl _) rfl .same rfl
  | dispatched looks free j next starts =>
    refine .of_agrees rfl rfl (w.system.agrees_dispatch j) rfl ?_ reports
    dsimp only
    rw [System.loaders_update]
    split
    · exact .assigned _
    · exact .same
  | refused looks free j next cause refuses =>
    refine .of_agrees rfl rfl (w.system.agrees_refuse j cause) rfl ?_ reports
    dsimp only
    rw [System.loaders_update]
    split
    · rename_i own
      subst own
      exact .refused _ (eligible_of_next? next).1
    · exact .same
  | allLoaded looks free next ended t agrees => exact .of_agrees rfl rfl agrees rfl .same reports
  | stalled looks free next some => exact .of_agrees rfl rfl (System.Agrees.refl _) rfl .same rfl

/-- Every action moves every loader in one of the four ways. -/
theorem World.moves (w : World ι Model) (a : Action ι) (i : ι) :
    Moves i a w.system (w.perform a).system := by
  cases a with
  | register j =>
    simp only [World.perform]
    rcases register_cases w.registry w.system j with ⟨e, refused⟩ | ⟨-, accepted⟩
    · rw [refused]
      exact .of_agrees rfl rfl (System.Agrees.refl _) rfl .same rfl
    · rw [accepted]
      refine .of_agrees rfl rfl (w.system.agrees_note _ _) rfl .same ?_
      exact System.reports_of_quiet (w.system.log_note _ _) (by simp [Event.ended?])
  | giveBytes j data =>
    exact .of_update rfl rfl (w.system.agrees_giveBytes j data) (fun _ => .given data)
      (w.system.reports_giveBytes i j data)
  | acquire j source m =>
    have reports := w.system.reports_acquire i j source m
    rcases w.system.acquire_cases j source m with ⟨data, -, -, agrees⟩ | ⟨e, -, -, agrees⟩
    · exact .of_update rfl rfl agrees (fun _ => .given data) reports
    · exact .of_agrees rfl rfl agrees rfl .same reports
  | acquireAll source =>
    refine .of_agrees rfl rfl (w.system.agrees_acquireAll w.registry source) rfl ?_
      (w.system.reports_acquireEach i _ source _)
    dsimp only
    split
    · exact Loader.touched_acquired i _ _ source _
    · exact .same
  | load j => exact moves_load w.system i j
  | start j => exact moves_start w.system i j none w.system.queue rfl rfl
  | fail j reason =>
    exact .of_update (f := (·.fail reason)) rfl rfl (System.Agrees.refl _) (fun _ => .failed reason) rfl
  | newTask name => exact .of_agrees rfl rfl (System.Agrees.refl _) rfl .same rfl
  | assign j t =>
    exact .of_update (f := (·.assign t)) rfl rfl (System.Agrees.refl _) (fun _ => .assigned t) rfl
  | unassign j =>
    refine .of_update rfl rfl (System.Agrees.refl _) (fun own => ?_) rfl
    subst own
    exact .unassigned
  | complete t => exact .of_agrees rfl rfl (System.Agrees.refl _) rfl .same rfl
  | ask j => exact .of_agrees rfl rfl (System.Agrees.refl _) rfl .same rfl
  | work k =>
    -- the queue of dispatched loads plays no part in what a start does
    exact moves_start w.system i k.loader (some k.task) (w.system.queue.erase k) rfl rfl
  | finish r => exact moves_finish w.system i r
  | tick refusal => exact World.moves_tick w refusal i

end ModelLoading.Loading
