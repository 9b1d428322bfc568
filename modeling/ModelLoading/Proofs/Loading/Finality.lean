import ModelLoading.Proofs.Loading.Moves

/-!
# The end of all loading is final

A terminal phase is never left, whatever is done to a loader (`Moves.phase_of_ended`), and only ticks
write to the memory of a scheduler. So an answer that all is loaded stays true of the loaders that
were registered, the scheduler never forgets it, and a scheduler that is not to look again answers
nothing else. One that is to look again goes by the loaders alone: with or without the memory of an
earlier end it dispatches the same ones (`tick_forget`).
-/

namespace ModelLoading.Loading

variable {ι Model : Type} [DecidableEq ι]

/-! ## Loaders -/

section Loaders

variable {s t : System ι Model} {i : ι} {a : Action ι}

omit [DecidableEq ι] in
theorem Loader.Touched.phase_of_ended {l m : Loader Model} (touched : l.Touched i a m)
    (ended : l.isLoaded = true) : m.phase = l.phase := by
  cases touched with
  | same => rfl
  | given data => rw [Loader.giveBytes_eq]
  | failed reason => exact Phase.moveTo_of_terminal ended _
  | assigned t => exact Phase.moveTo_of_terminal ended _
  | unassigned =>
    have other : l.phase ≠ .loading := by
      intro loading
      simp [Loader.isLoaded, loading] at ended
    simp only [Loader.unassign, if_neg other]
  | refused t pending => exact absurd pending (l.ne_pending_of_isLoaded ended)

omit [DecidableEq ι] in
theorem Loader.phase_finish_of_ended {l : Loader Model} (ended : l.isLoaded = true)
    (outcome : Except String Model) : (l.finish outcome).phase = l.phase := by
  cases outcome <;> exact Phase.moveTo_of_terminal ended _

theorem Moves.phase_of_ended (moves : Moves i a s t) (ended : (s.loaders i).isLoaded = true) :
    (t.loaders i).phase = (s.loaders i).phase := by
  cases moves with
  | touches starts ends becomes active reports => exact becomes.phase_of_ended ended
  | ends r own starts ends becomes active reports =>
    rw [becomes]
    exact Loader.phase_finish_of_ended ended _
  | starts r own starts ends loaded fresh becomes active reports =>
    rw [ended] at loaded
    cases loaded
  | loads r own starts ends loaded fresh becomes active reports =>
    rw [ended] at loaded
    cases loaded

/-- A loader that has ended is in the same phase ever after. -/
theorem World.phase_after (w : World ι Model) (h : List (Action ι))
    (ended : (w.system.loaders i).isLoaded = true) :
    ((w.after h).system.loaders i).phase = (w.system.loaders i).phase := by
  induction h generalizing w with
  | nil => rfl
  | cons a h ih =>
    have same := (w.moves a i).phase_of_ended ended
    have still : ((w.perform a).system.loaders i).isLoaded = true := by
      rw [Loader.isLoaded, same]
      exact ended
    exact (ih _ still).trans same

end Loaders

/-! ## The memory of a scheduler -/

section Memory

variable (w : World ι Model) (h : List (Action ι))

/-- A scheduler keeps its settings, and remembers that all was loaded. -/
theorem World.scheduler_perform (a : Action ι) :
    (w.perform a).scheduler.settings = w.scheduler.settings ∧
    (w.scheduler.allLoaded = true → (w.perform a).scheduler.allLoaded = true) := by
  cases a with
  | register i =>
    simp only [World.perform]
    cases w.registry.register w.system i with
    | error e => exact ⟨rfl, id⟩
    | ok x => exact ⟨rfl, id⟩
  | tick refusal =>
    have rule := tickRule w.scheduler refusal w.registry w.system
    simp only [World.perform]
    generalize w.scheduler.tick refusal w.registry w.system = x at rule ⊢
    cases rule with
    | allLoaded looks free next ended t agrees => exact ⟨rfl, fun _ => rfl⟩
    | _ => exact ⟨rfl, id⟩
  | _ => exact ⟨rfl, id⟩

theorem World.settings_after :
    (w.after h).scheduler.settings = w.scheduler.settings := by
  induction h generalizing w with
  | nil => rfl
  | cons a h ih => exact (ih _).trans (w.scheduler_perform a).1

theorem World.allLoaded_after (flag : w.scheduler.allLoaded = true) :
    (w.after h).scheduler.allLoaded = true := by
  induction h generalizing w with
  | nil => exact flag
  | cons a h ih => exact ih _ ((w.scheduler_perform a).2 flag)

end Memory

/-! ## Ticks -/

section Ticks

variable {c : Scheduler} (refusal : Option Files.IoError) (r : Registry ι) (s : System ι Model)

theorem tick_of_flag (flag : c.allLoaded = true) (once : c.settings.recheck = false) :
    c.tick refusal r s = (.idle, c, s) := by
  simp [Scheduler.tick, flag, once]

theorem tick_ne_idle (again : c.settings.recheck = true) : (c.tick refusal r s).1 ≠ .idle := by
  have rule := tickRule c refusal r s
  intro idle
  generalize c.tick refusal r s = x at rule idle
  cases rule with
  | idle flag once => rw [again] at once; cases once
  | _ => cases idle

/-- The answer that all is loaded is true of the loaders that are registered. -/
theorem isLoaded_of_tick (answer : (c.tick refusal r s).1 = .allLoaded) :
    ∀ i ∈ r.entries, (s.loaders i).isLoaded = true := by
  have rule := tickRule c refusal r s
  generalize c.tick refusal r s = x at rule answer
  cases rule with
  | allLoaded looks free next ended t agrees => exact pendingCount_eq_zero_iff.mp ended
  | _ => cases answer

/-- A scheduler that is to look again dispatches the first loader that waits. -/
theorem tick_of_next (again : c.settings.recheck = true) (free : c.isBusy s = false) {i : ι}
    (next : r.next? s = some i) :
    c.tick none r s = (.dispatched i,
      { c with current := some s.tasks.length, dispatched := c.dispatched + 1 }, (s.dispatch i).2) := by
  have goesOn : ¬(c.allLoaded = true ∧ ¬c.settings.recheck = true) := by simp [again]
  simp only [Scheduler.tick, if_neg goesOn, free, next]
  rfl

/-- The scheduler without its memory that all was loaded. -/
def Scheduler.forget (c : Scheduler) : Scheduler := { c with allLoaded := false }

/-- To a scheduler that is to look again, it makes no difference whether all was loaded before: it
gives the same answer, and changes the system and its own memory in the same way, but that it reports
a first end to the log. -/
theorem tick_forget (again : c.settings.recheck = true) :
    (c.tick refusal r s).1 = (c.forget.tick refusal r s).1 ∧
    (c.tick refusal r s).2.1.forget = (c.forget.tick refusal r s).2.1.forget ∧
    (c.tick refusal r s).2.2.Agrees (c.forget.tick refusal r s).2.2 ∧
    ((c.tick refusal r s).1 ≠ .allLoaded →
      (c.tick refusal r s).2.2 = (c.forget.tick refusal r s).2.2) := by
  have goesOn : ¬(c.allLoaded = true ∧ ¬c.settings.recheck = true) := by simp [again]
  have goesOn' : ¬(c.forget.allLoaded = true ∧ ¬c.forget.settings.recheck = true) := by
    simp [Scheduler.forget]
  have busy : c.forget.isBusy s = c.isBusy s := rfl
  simp only [Scheduler.tick, if_neg goesOn, if_neg goesOn', busy]
  split
  · exact ⟨rfl, rfl, System.Agrees.refl _, fun _ => rfl⟩
  · cases r.next? s with
    | some i =>
      cases refusal with
      | none => exact ⟨rfl, rfl, System.Agrees.refl _, fun _ => rfl⟩
      | some cause => exact ⟨rfl, rfl, System.Agrees.refl _, fun _ => rfl⟩
    | none =>
      cases r.pendingCount s with
      | zero =>
        have first : (if c.forget.allLoaded = true then s
            else s.note .caller (.allLoaded r.entries.length)) =
              s.note .caller (.allLoaded r.entries.length) := by simp [Scheduler.forget]
        refine ⟨rfl, rfl, ?_, fun other => absurd rfl other⟩
        dsimp only
        rw [first]
        by_cases flag : c.allLoaded = true
        · rw [if_pos flag]
          exact ⟨rfl, rfl, rfl, rfl⟩
        · rw [if_neg flag]
          exact System.Agrees.refl _
      | succ n => exact ⟨rfl, rfl, System.Agrees.refl _, fun _ => rfl⟩

end Ticks

/-- **The end of all loading is final.** From any moment of a history to any later one: a scheduler
that has found everything loaded remembers it. If its tick answers so, all loaders registered then
have ended, and stay in the phase they are in. If it is not to look again, every later tick is idle
and changes nothing; if it is to look again, no tick is idle, the first loader that waits is
dispatched, and nothing but the report of the end depends on what it remembers. -/
theorem all_loaded_is_final (w : World ι Model) (h : List (Action ι)) :
    let v := w.after h
    (w.scheduler.allLoaded = true → v.scheduler.allLoaded = true) ∧
    (∀ refusal, (w.scheduler.tick refusal w.registry w.system).1 = .allLoaded →
      ∀ i ∈ w.registry.entries, (w.system.loaders i).isLoaded = true ∧
        (v.system.loaders i).phase = (w.system.loaders i).phase) ∧
    (w.scheduler.allLoaded = true → w.scheduler.settings.recheck = false → ∀ refusal,
      v.scheduler.tick refusal v.registry v.system = (.idle, v.scheduler, v.system)) ∧
    (w.scheduler.settings.recheck = true → ∀ refusal,
      let x := v.scheduler.tick refusal v.registry v.system
      let y := v.scheduler.forget.tick refusal v.registry v.system
      x.1 ≠ .idle ∧
      (∀ i, v.scheduler.isBusy v.system = false → v.registry.next? v.system = some i →
        refusal = none → x.1 = .dispatched i ∧ x.2.2 = (v.system.dispatch i).2) ∧
      x.1 = y.1 ∧ x.2.1.forget = y.2.1.forget ∧ x.2.2.Agrees y.2.2 ∧
      (x.1 ≠ .allLoaded → x.2.2 = y.2.2)) := by
  intro v
  have settings : v.scheduler.settings = w.scheduler.settings := w.settings_after h
  refine ⟨w.allLoaded_after h, fun refusal answer i registered => ?_, fun flag once refusal => ?_,
    fun again refusal => ?_⟩
  · have ended := isLoaded_of_tick refusal w.registry w.system answer i registered
    exact ⟨ended, w.phase_after h ended⟩
  · exact tick_of_flag refusal _ _ (w.allLoaded_after h flag) (settings ▸ once)
  · have again' : v.scheduler.settings.recheck = true := settings ▸ again
    refine ⟨tick_ne_idle refusal _ _ again', ?_, tick_forget refusal _ _ again'⟩
    rintro i free next rfl
    rw [tick_of_next _ _ again' free next]
    exact ⟨rfl, rfl⟩

/-- All is loaded, and then a second loader is registered and given bytes, while the first is failed
once more: a scheduler that is not to look again is idle, another one dispatches the second loader. -/
theorem all_loaded_is_final_of_pair :
    let w (recheck : Bool) : World Bool Bytes :=
      (World.ofLoaders World.pair.system.loaders {} { recheck }).after
        [.register true, .load true, .tick none]
    let h : List (Action Bool) := [.fail true "stop", .register false, .giveBytes false [2]]
    (∀ b, ((w b).scheduler.tick none (w b).registry (w b).system).1 =
      if b then .allLoaded else .idle) ∧
    (((w true).after h).system.loaders true).phase = .failed ∧
    (((w false).after h).scheduler.tick none ((w false).after h).registry
      ((w false).after h).system).1 = .idle ∧
    (((w true).after h).scheduler.tick none ((w true).after h).registry
      ((w true).after h).system).1 = .dispatched false := by
  intro w h
  have answers : ∀ b, ((w b).scheduler.tick none (w b).registry (w b).system).1 =
      if b then .allLoaded else .idle := by decide +kernel
  obtain ⟨-, stays, -, again⟩ := all_loaded_is_final (w true) h
  obtain ⟨-, -, idle, -⟩ := all_loaded_is_final (w false) h
  have failed : ((w true).system.loaders true).phase = .failed := by decide +kernel
  have first := stays none (answers true) true (by decide +kernel)
  have last := (again (by decide +kernel) none).2.1 false (by decide +kernel) (by decide +kernel) rfl
  refine ⟨answers, first.2.trans failed, ?_, last.1⟩
  rw [idle (by decide +kernel) (by decide +kernel) none]

end ModelLoading.Loading
