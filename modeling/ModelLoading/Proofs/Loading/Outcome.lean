import ModelLoading.Proofs.Loading.Operations
import ModelLoading.Proofs.Loading.World

/-!
# The outcome of one loader

The phase of a loader, its result and its failure are written one by one. They fit together
(`Loader.Coherent`) and stay as they are once the loader has ended (`Steady`) as long as no failure
from outside comes too late, and only then (`Interferes`). A late failure puts its text on a loader
that has ended, and a failure during a run lets the run put its own outcome beside it, so that a
failed loader can have a result.
-/

namespace ModelLoading.Loading

variable {ι Model : Type} [DecidableEq ι]

/-! ## One loader -/

/-- The result and the failure of a loader fit its phase. -/
structure Loader.Coherent (l : Loader Model) : Prop where
  result : l.result.isSome → l.phase = .succeeded
  failure : l.failure.isSome → l.phase = .failed

/-- The outcome is the same, and the loader has ended exactly if it had, in the same phase. -/
structure Loader.Spares (l m : Loader Model) : Prop where
  result : m.result = l.result
  failure : m.failure = l.failure
  ended : l.isLoaded = true → m.phase = l.phase
  underway : l.isLoaded = false → m.isLoaded = false

/-- What a run comes to is just the failure that the loader has. -/
def Loader.Repeats (l : Loader Model) : Except String Model → Prop
  | .ok _ => False
  | .error reason => l.failure = some reason

instance (l : Loader Model) : ∀ outcome, Decidable (l.Repeats outcome)
  | .ok _ => .isFalse id
  | .error reason => inferInstanceAs (Decidable (l.failure = some reason))

namespace Loader

theorem Spares.refl (l : Loader Model) : Spares l l := ⟨rfl, rfl, fun _ => rfl, id⟩

theorem Spares.of_phase {l m : Loader Model} (result : m.result = l.result)
    (failure : m.failure = l.failure) {p : Phase} (goesOn : p.isTerminal = false)
    (phase : m.phase = l.phase.moveTo p) : Spares l m := by
  refine ⟨result, failure, fun ended => ?_, fun underway => ?_⟩
  · rw [phase, Phase.moveTo_of_terminal ended]
  · rw [isLoaded, phase, Phase.moveTo_of_not_terminal underway]; exact goesOn

theorem spares_giveBytes (l : Loader Model) (data : Bytes) : Spares l (l.giveBytes data) := by
  rw [giveBytes_eq]; exact ⟨rfl, rfl, fun _ => rfl, id⟩

theorem spares_assign (l : Loader Model) (t : TaskId) : Spares l (l.assign t) :=
  .of_phase rfl rfl rfl rfl

/-- A failure that repeats the text of a loader that has ended. -/
theorem spares_fail {l : Loader Model} {reason : String} (ended : l.isLoaded = true)
    (same : l.failure = some reason) : Spares l (l.fail reason) :=
  ⟨rfl, same.symm, fun h => Phase.moveTo_of_terminal h _, fun h => by simp [ended] at h⟩

theorem spares_finish {l : Loader Model} {outcome : Except String Model} (ended : l.isLoaded = true)
    (same : l.Repeats outcome) : Spares l (l.finish outcome) := by
  cases outcome with
  | ok m => exact same.elim
  | error reason =>
    exact ⟨rfl, same.symm, fun h => Phase.moveTo_of_terminal h _, fun h => by simp [ended] at h⟩

theorem Coherent.spared {l m : Loader Model} (coherent : l.Coherent) (spares : Spares l m) :
    m.Coherent := by
  refine ⟨fun h => ?_, fun h => ?_⟩
  · have phase := coherent.result (spares.result ▸ h)
    rw [spares.ended (by simp [isLoaded, phase]), phase]
  · have phase := coherent.failure (spares.failure ▸ h)
    rw [spares.ended (by simp [isLoaded, phase]), phase]

/-- A loader that has not ended has no outcome yet. -/
theorem Coherent.of_underway {l : Loader Model} (coherent : l.Coherent) (h : l.isLoaded = false) :
    l.result = none ∧ l.failure = none := by
  refine ⟨?_, ?_⟩
  · cases found : l.result with
    | none => rfl
    | some m =>
      have phase := coherent.result (by simp [found])
      simp [isLoaded, phase] at h
  · cases found : l.failure with
    | none => rfl
    | some reason =>
      have phase := coherent.failure (by simp [found])
      simp [isLoaded, phase] at h

theorem coherent_fail {l : Loader Model} (coherent : l.Coherent) (h : l.isLoaded = false)
    (reason : String) : (l.fail reason).Coherent := by
  have phase : (l.fail reason).phase = .failed := Phase.moveTo_of_not_terminal h _
  refine ⟨fun found => ?_, fun _ => phase⟩
  simp [fail, (coherent.of_underway h).1] at found

theorem coherent_finish {l : Loader Model} (coherent : l.Coherent) (h : l.isLoaded = false)
    (outcome : Except String Model) : (l.finish outcome).Coherent := by
  obtain ⟨result, failure⟩ := coherent.of_underway h
  cases outcome with
  | ok m =>
    have phase : (l.finish (.ok m)).phase = .succeeded := Phase.moveTo_of_not_terminal h _
    exact ⟨fun _ => phase, fun found => by simp [finish, failure] at found⟩
  | error reason =>
    have phase : (l.finish (.error reason)).phase = .failed := Phase.moveTo_of_not_terminal h _
    exact ⟨fun found => by simp [finish, result] at found, fun _ => phase⟩

end Loader

/-! ## What an action does to a loader -/

/-- The actions on single loaders: bytes are given or looked up, a task is noted, a run starts and
ends, and the loader fails from outside. -/
def Action.OnLoader : Action ι → Prop
  | .giveBytes .. | .acquire .. | .newTask _ | .assign .. | .start _ | .finish _ | .fail .. |
    .ask _ => True
  | _ => False

instance Action.decidableOnLoader : ∀ a : Action ι, Decidable a.OnLoader
  | .giveBytes .. | .acquire .. | .newTask _ | .assign .. | .start _ | .finish _ | .fail .. |
    .ask _ => .isTrue trivial
  | .register _ | .acquireAll _ | .load _ | .unassign _ | .complete _ | .tick _ | .work _ =>
    .isFalse id

/-- What may happen to loaders one by one. -/
def SingleLoaders (w : World ι Model) (a : Action ι) : Prop := a.Possible w ∧ a.OnLoader

instance (w : World ι Model) (a : Action ι) : Decidable (SingleLoaders w a) :=
  inferInstanceAs (Decidable (_ ∧ _))

namespace World

variable {w : World ι Model} {a : Action ι}

theorem update_spares {s : System ι Model} {f : Loader Model → Loader Model} {j : ι}
    (h : (s.loaders j).Spares (f (s.loaders j))) (i : ι) :
    (s.loaders i).Spares ((s.update j f).loaders i) := by
  rw [s.loaders_update]
  split
  · rename_i same; subst same; exact h
  · exact Loader.Spares.refl _

/-- Only a failure from outside and the end of a run can change the outcome of a loader. -/
theorem spares_or (on : a.OnLoader) (i : ι) :
    (w.system.loaders i).Spares ((w.perform a).system.loaders i) ∨
    (∃ reason, a = .fail i reason ∧
      (w.perform a).system.loaders i = (w.system.loaders i).fail reason) ∨
    (∃ r, a = .finish r ∧ r.loader = i ∧ (w.perform a).system.loaders i =
      (w.system.loaders i).finish ((w.system.loaders i).outcome r.taken)) := by
  cases a with
  | giveBytes j data =>
    refine Or.inl ?_
    simp only [perform, (w.system.agrees_giveBytes j data).loaders]
    exact update_spares (Loader.spares_giveBytes _ data) i
  | acquire j source m =>
    refine Or.inl ?_
    rcases w.system.acquire_cases j source m with ⟨data, -, -, agrees⟩ | ⟨e, -, -, agrees⟩
    · simp only [perform, agrees.loaders]
      exact update_spares (Loader.spares_giveBytes _ data) i
    · simp only [perform, agrees.loaders]
      exact Loader.Spares.refl _
  | newTask name => exact Or.inl (Loader.Spares.refl _)
  | assign j t =>
    refine Or.inl ?_
    simp only [perform]
    exact update_spares (Loader.spares_assign _ t) i
  | ask j => exact Or.inl (Loader.Spares.refl _)
  | start j =>
    refine Or.inl ?_
    rcases (w.system.loaders j).barred_or_free with barred | ⟨loaded, started⟩
    · simp only [perform, (w.system.start_of_barred j barred none).2.loaders]
      exact Loader.Spares.refl _
    · simp only [perform, w.system.start_of_free j loaded started none]
      exact update_spares ⟨rfl, rfl, fun ended => by simp [loaded] at ended, fun _ => rfl⟩ i
  | fail j reason =>
    by_cases same : i = j
    · subst same
      refine Or.inr (Or.inl ⟨reason, rfl, ?_⟩)
      simp only [perform, System.fail, System.update_self]
    · refine Or.inl ?_
      simp only [perform, System.fail, w.system.update_of_ne same]
      exact Loader.Spares.refl _
  | finish r =>
    simp only [perform, (w.system.agrees_finish r).loaders, System.loaders_completeOf]
    by_cases same : i = r.loader
    · subst same
      exact Or.inr (Or.inr ⟨r, rfl, rfl, w.system.update_self _ _⟩)
    · refine Or.inl ?_
      rw [w.system.update_of_ne same]
      exact Loader.Spares.refl _
  | _ => exact on.elim

end World

/-! ## Runs -/

/-- Every loader has at most one run in progress, and while it has one it has been started and has
not succeeded. -/
structure System.RunsOnce (s : System ι Model) : Prop where
  distinct : (s.runs.map (·.loader)).Nodup
  started : ∀ r ∈ s.runs, (s.loaders r.loader).started = true
  phase : ∀ r ∈ s.runs, (s.loaders r.loader).phase ≠ .succeeded

namespace System

variable {s t : System ι Model}

omit [DecidableEq ι] in
theorem RunsOnce.of_agrees (once : s.RunsOnce) (agrees : t.Agrees s) : t.RunsOnce := by
  refine ⟨?_, ?_, ?_⟩
  · rw [agrees.runs]; exact once.distinct
  · rw [agrees.runs, agrees.loaders]; exact once.started
  · rw [agrees.runs, agrees.loaders]; exact once.phase

/-- A change of one loader that neither forgets that it was started nor makes it succeed. -/
theorem RunsOnce.update (once : s.RunsOnce) {i : ι} {f : Loader Model → Loader Model}
    (started : (s.loaders i).started = true → (f (s.loaders i)).started = true)
    (phase : (s.loaders i).phase ≠ .succeeded → (f (s.loaders i)).phase ≠ .succeeded) :
    (s.update i f).RunsOnce := by
  refine ⟨once.distinct, fun r hr => ?_, fun r hr => ?_⟩
  · have old := once.started r hr
    rw [s.loaders_update]
    split
    · rename_i same; subst same; exact started old
    · exact old
  · have old := once.phase r hr
    rw [s.loaders_update]
    split
    · rename_i same; subst same; exact phase old
    · exact old

theorem RunsOnce.start (once : s.RunsOnce) (i : ι) (task : Option TaskId) :
    (s.start i task).2.RunsOnce := by
  rcases (s.loaders i).barred_or_free with barred | ⟨loaded, started⟩
  · have agrees := (s.start_of_barred i barred task).2
    refine RunsOnce.of_agrees (s := s.completeOf task) ⟨?_, ?_, ?_⟩ agrees
    · rw [runs_completeOf]; exact once.distinct
    · rw [runs_completeOf, loaders_completeOf]; exact once.started
    · rw [runs_completeOf, loaders_completeOf]; exact once.phase
  · rw [s.start_of_free i loaded started task]
    have new : ∀ r ∈ s.runs, r.loader ≠ i := by
      intro r hr same
      have old := once.started r hr
      simp [same, started] at old
    refine ⟨?_, ?_, ?_⟩
    · have fresh : i ∉ s.runs.map (·.loader) := by
        simpa using new
      simp only [List.map_append, List.map_cons, List.map_nil, runOf]
      refine List.nodup_append.mpr ⟨once.distinct, by simp, fun x hx y hy same => ?_⟩
      rw [List.mem_singleton.mp hy] at same
      exact fresh (same ▸ hx)
    · intro r hr
      rcases List.mem_append.mp hr with old | new'
      · simp only [s.update_of_ne (new r old)]; exact once.started r old
      · rw [List.mem_singleton.mp new']; simp [runOf]
    · intro r hr
      rcases List.mem_append.mp hr with old | new'
      · simp only [s.update_of_ne (new r old)]; exact once.phase r old
      · rw [List.mem_singleton.mp new']; simp [runOf]

theorem RunsOnce.finish (once : s.RunsOnce) {r : Run ι} (h : r ∈ s.runs) :
    (s.finish r).RunsOnce := by
  have runs := List.perm_cons_erase h
  have distinct : (r.loader :: (s.runs.erase r).map (·.loader)).Nodup :=
    (runs.map Run.loader).nodup_iff.mp once.distinct
  have others : ∀ q ∈ s.runs.erase r, q.loader ≠ r.loader := by
    intro q hq same
    exact (List.nodup_cons.mp distinct).1 (same ▸ List.mem_map_of_mem hq)
  refine RunsOnce.of_agrees ⟨(List.nodup_cons.mp distinct).2, fun q hq => ?_, fun q hq => ?_⟩
    (s.agrees_finish r)
  · simp only [loaders_completeOf, s.update_of_ne (others q hq)]
    exact once.started q (List.mem_of_mem_erase hq)
  · simp only [loaders_completeOf, s.update_of_ne (others q hq)]
    exact once.phase q (List.mem_of_mem_erase hq)

end System

namespace World

variable {w : World ι Model} {a : Action ι}

theorem runsOnce_perform (may : SingleLoaders w a) (once : w.system.RunsOnce) :
    (w.perform a).system.RunsOnce := by
  obtain ⟨possible, on⟩ := may
  cases a with
  | giveBytes j data =>
    refine System.RunsOnce.of_agrees (once.update ?_ ?_) (w.system.agrees_giveBytes j data)
    · rw [Loader.giveBytes_eq]; exact id
    · rw [Loader.giveBytes_eq]; exact id
  | acquire j source m =>
    rcases w.system.acquire_cases j source m with ⟨data, -, -, agrees⟩ | ⟨e, -, -, agrees⟩
    · refine System.RunsOnce.of_agrees (once.update ?_ ?_) agrees
      · rw [Loader.giveBytes_eq]; exact id
      · rw [Loader.giveBytes_eq]; exact id
    · exact System.RunsOnce.of_agrees once agrees
  | newTask name => exact ⟨once.distinct, once.started, once.phase⟩
  | assign j t =>
    have phase : Phase.loading ≠ .succeeded := by simp
    exact once.update (f := (·.assign t)) id fun h => Phase.moveTo_ne_succeeded h phase
  | ask j => exact once
  | start j => exact once.start j none
  | fail j reason =>
    have phase : Phase.failed ≠ .succeeded := by simp
    exact once.update (f := (·.fail reason)) id fun h => Phase.moveTo_ne_succeeded h phase
  | finish r => exact once.finish possible
  | _ => exact on.elim

end World

/-! ## The exact condition -/

/-- An action comes too late for a loader: the loader has ended, and the action fails it from outside
or ends a run of it, and not with the failure that is there. -/
def Interferes (i : ι) (w : World ι Model) : Action ι → Prop
  | .fail j reason =>
    j = i ∧ (w.system.loaders i).isLoaded = true ∧ ¬(w.system.loaders i).Repeats (.error reason)
  | .finish r =>
    r.loader = i ∧ (w.system.loaders i).isLoaded = true ∧
      ¬(w.system.loaders i).Repeats ((w.system.loaders i).outcome r.taken)
  | _ => False

instance (i : ι) (w : World ι Model) : ∀ a, Decidable (Interferes i w a)
  | .fail _ _ => inferInstanceAs (Decidable (_ ∧ _ ∧ _))
  | .finish _ => inferInstanceAs (Decidable (_ ∧ _ ∧ _))
  | .register _ | .giveBytes .. | .acquire .. | .acquireAll _ | .load _ | .start _ | .newTask _ |
    .assign .. | .unassign _ | .complete _ | .tick _ | .ask _ | .work _ => .isFalse id

/-- At every moment of a history the outcome of a loader is coherent, and if the loader has ended at
one moment, it has the same outcome at every later one. -/
def Steady (i : ι) (w : World ι Model) (h : List (Action ι)) : Prop :=
  ∀ p q r, h = p ++ q ++ r →
    ((w.after p).system.loaders i).Coherent ∧
    (((w.after p).system.loaders i).isLoaded = true →
      ((w.after (p ++ q)).system.loaders i).result = ((w.after p).system.loaders i).result ∧
      ((w.after (p ++ q)).system.loaders i).failure = ((w.after p).system.loaders i).failure)

section Condition

variable {w : World ι Model} {a : Action ι} {i : ι} {h : List (Action ι)}

/-- An action that does not interfere keeps the outcome coherent, and as it is once there is one. -/
theorem kept_of_not_interferes (on : a.OnLoader) (coherent : (w.system.loaders i).Coherent)
    (spared : ¬Interferes i w a) :
    ((w.perform a).system.loaders i).Coherent ∧
    ((w.system.loaders i).isLoaded = true → ((w.perform a).system.loaders i).isLoaded = true ∧
      ((w.perform a).system.loaders i).result = (w.system.loaders i).result ∧
      ((w.perform a).system.loaders i).failure = (w.system.loaders i).failure) := by
  have of_spares : ∀ m, (w.system.loaders i).Spares m → m.Coherent ∧
      ((w.system.loaders i).isLoaded = true → m.isLoaded = true ∧
        m.result = (w.system.loaders i).result ∧ m.failure = (w.system.loaders i).failure) := by
    intro m spares
    refine ⟨coherent.spared spares, fun ended => ⟨?_, spares.result, spares.failure⟩⟩
    rw [Loader.isLoaded, spares.ended ended]; exact ended
  rcases World.spares_or (w := w) on i with spares | ⟨reason, rfl, new⟩ | ⟨r, rfl, rfl, new⟩
  · exact of_spares _ spares
  · rw [new]
    cases ended : (w.system.loaders i).isLoaded with
    | false => exact ⟨Loader.coherent_fail coherent ended reason, fun contra => by cases contra⟩
    | true =>
      have same : (w.system.loaders i).Repeats (.error reason) := by
        simpa [Interferes, ended] using spared
      exact ended ▸ of_spares _ (Loader.spares_fail ended same)
  · rw [new]
    cases ended : (w.system.loaders r.loader).isLoaded with
    | false => exact ⟨Loader.coherent_finish coherent ended _, fun contra => by cases contra⟩
    | true =>
      have same : (w.system.loaders r.loader).Repeats
          ((w.system.loaders r.loader).outcome r.taken) := by
        simpa [Interferes, ended] using spared
      exact ended ▸ of_spares _ (Loader.spares_finish ended same)

/-- An action that interferes leaves an outcome that is not coherent or not the one before. -/
theorem not_kept_of_interferes (possible : a.Possible w) (once : w.system.RunsOnce)
    (interferes : Interferes i w a) (coherent : (w.system.loaders i).Coherent) :
    ¬((w.system.loaders i).isLoaded = true →
      ((w.perform a).system.loaders i).result = (w.system.loaders i).result ∧
      ((w.perform a).system.loaders i).failure = (w.system.loaders i).failure) := by
  intro same
  cases a with
  | fail j reason =>
    obtain ⟨rfl, ended, other⟩ := interferes
    have failure := (same ended).2
    simp only [World.perform, System.fail, System.update_self, Loader.fail] at failure
    exact other failure.symm
  | finish r =>
    obtain ⟨rfl, ended, other⟩ := interferes
    obtain ⟨result, failure⟩ := same ended
    simp only [World.perform, (w.system.agrees_finish r).loaders, System.loaders_completeOf,
      System.update_self] at result failure
    cases outcome : (w.system.loaders r.loader).outcome r.taken with
    | ok m =>
      -- the loader would have to have succeeded before, while its run was in progress
      rw [outcome] at result
      have succeeded := coherent.result (by rw [← result]; rfl)
      exact once.phase r possible succeeded
    | error reason =>
      rw [outcome] at failure
      rw [outcome] at other
      exact other failure.symm
  | _ => exact interferes

/-- A history in which nothing interferes keeps the outcome. -/
theorem kept_after (allowed : w.Allows SingleLoaders h)
    (spared : w.Allows (fun v a => ¬Interferes i v a) h)
    (coherent : (w.system.loaders i).Coherent) :
    ((w.after h).system.loaders i).Coherent ∧
    ((w.system.loaders i).isLoaded = true →
      ((w.after h).system.loaders i).result = (w.system.loaders i).result ∧
      ((w.after h).system.loaders i).failure = (w.system.loaders i).failure) := by
  induction h generalizing w with
  | nil => exact ⟨coherent, fun _ => ⟨rfl, rfl⟩⟩
  | cons a h ih =>
    obtain ⟨coherent', kept⟩ := kept_of_not_interferes allowed.1.2 coherent spared.1
    obtain ⟨coherent'', kept'⟩ := ih allowed.2 spared.2 coherent'
    refine ⟨coherent'', fun ended => ?_⟩
    obtain ⟨ended', result, failure⟩ := kept ended
    obtain ⟨result', failure'⟩ := kept' ended'
    exact ⟨result'.trans result, failure'.trans failure⟩

end Condition

/-- **The outcome of a loader is steady exactly when nothing interferes with it**: in a history of
operations on loaders, runs and failures from outside, each action that reaches the loader after its
end must repeat the failure that is there. -/
theorem steady_iff {w : World ι Model} {h : List (Action ι)} (fresh : w.Fresh)
    (allowed : w.Allows SingleLoaders h) (i : ι) :
    Steady i w h ↔ w.Allows (fun v a => ¬Interferes i v a) h := by
  constructor
  · intro steady
    refine World.allows_iff.mpr fun p a q split interferes => ?_
    obtain ⟨coherent, kept⟩ := steady p [a] q (by simp [split])
    subst split
    obtain ⟨before, possible, -⟩ := World.allows_append.mp allowed
    have start : w.system.RunsOnce := by
      constructor <;> simp [fresh.runs]
    have once := World.after_induction (fun v a => World.runsOnce_perform) before start
    simp only [World.after_append, World.after_cons, World.after_nil] at kept
    exact not_kept_of_interferes possible.1 once interferes coherent kept
  · rintro spared p q r rfl
    have start : (w.system.loaders i).Coherent := by
      rw [fresh.loaders i]; constructor <;> simp
    obtain ⟨before, between⟩ := World.allows_append.mp (World.allows_append.mp allowed).1
    obtain ⟨before', between'⟩ := World.allows_append.mp (World.allows_append.mp spared).1
    have coherent := (kept_after before before' start).1
    rw [World.after_append]
    exact ⟨coherent, (kept_after between between' coherent).2⟩

/-- A history without interference: a loader fails from outside before its run would start. -/
theorem steady_of_early_failure :
    let h : List (Action Bool) := [.giveBytes true [1], .fail true "stop", .start true]
    World.pair.Allows SingleLoaders h ∧ Steady true World.pair h := by
  intro h
  have allowed : World.pair.Allows SingleLoaders h := by decide +kernel
  exact ⟨allowed, (steady_iff World.fresh_pair allowed true).mpr (by decide +kernel)⟩

/-- **A failure during a run**: the run goes on and leaves a result on a loader that has failed. -/
theorem failure_during_run :
    let h : List (Action Bool) :=
      [.giveBytes true [1], .start true, .fail true "stop", .finish ⟨true, some [1], none⟩]
    World.pair.Allows SingleLoaders h ∧
    ((World.pair.after h).system.loaders true).phase = .failed ∧
    ((World.pair.after h).system.loaders true).result = some [1] ∧
    ¬Steady true World.pair h := by
  intro h
  have phase : ((World.pair.after h).system.loaders true).phase = .failed := by decide +kernel
  have result : ((World.pair.after h).system.loaders true).result = some [1] := by decide +kernel
  refine ⟨by decide +kernel, phase, result, fun steady => ?_⟩
  have succeeded := (steady h [] [] (by simp)).1.result (by rw [result]; rfl)
  rw [phase] at succeeded
  cases succeeded

end ModelLoading.Loading
