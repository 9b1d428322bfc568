import ModelLoading.Proofs.Loading.AtMostOnce

/-!
# Bytes are released

A loader holds bytes from the moment they are given to it until its run takes them or it fails. To see
that it never gets new ones afterwards, the invariant (`Released`) says also that a loader is not
pending while a run of it is in progress: only a pending loader accepts bytes. To make it pending
again is what `unassign` is for, where the worker of a dispatched load cannot start; it is not to be
used on a loader that is being run (`Considerate`), also where the run found no bytes to decode
(`bytes_kept_after_run_without_bytes`).
-/

namespace ModelLoading.Loading

variable {ι Model : Type} [DecidableEq ι]

/-- A loader that has ended or is being run holds no bytes, and one that is being run is not pending. -/
structure Released (s : System ι Model) (i : ι) : Prop where
  ended : (s.loaders i).isLoaded = true → (s.loaders i).bytes = none
  running : 0 < s.active i → (s.loaders i).phase ≠ .pending ∧ (s.loaders i).bytes = none

/-- What callers and workers may do where no dispatch is undone for a loader that is being run. A run
lasts from its start, when it takes the bytes, to its finish. -/
def Considerate (s : System ι Model) (a : Action ι) : Prop :=
  s.Possible a ∧
    match a with
    | .unassign i => ∀ r ∈ s.runs, r.loader ≠ i
    | _ => True

instance (s : System ι Model) : ∀ a, Decidable (Considerate s a)
  | .unassign _ => inferInstanceAs (Decidable (_ ∧ ∀ r ∈ s.runs, _))
  | .register _ | .giveBytes .. | .acquire .. | .acquireAll _ | .load _ | .start _ | .fail .. |
    .newTask _ | .assign .. | .complete _ | .tick _ | .ask _ | .work _ | .finish _ =>
    inferInstanceAs (Decidable (_ ∧ True))

namespace Loader

omit [DecidableEq ι]

variable (l : Loader Model)

theorem isLoaded_assign (t : TaskId) : (l.assign t).isLoaded = l.isLoaded :=
  Phase.isTerminal_moveTo rfl

theorem isLoaded_unassign : l.unassign.isLoaded = l.isLoaded := by
  unfold unassign isLoaded
  dsimp only
  split
  · exact Phase.isTerminal_moveTo rfl
  · rfl

theorem bytes_finish (outcome : Except String Model) : (l.finish outcome).bytes = l.bytes := by
  cases outcome <;> rfl

theorem phase_finish_ne_pending (outcome : Except String Model) :
    (l.finish outcome).phase ≠ .pending := by
  cases outcome <;> exact Phase.moveTo_ne_pending (by simp)

end Loader

namespace Released

variable {s t : System ι Model} {i : ι} {a : Action ι}

omit [DecidableEq ι] in
/-- Bytes come only to a loader that is pending. -/
theorem bytes_touched {l m : Loader Model} (touched : l.Touched i a m)
    (busy : l.phase ≠ .pending) (bare : l.bytes = none) : m.bytes = none := by
  cases touched with
  | given data => rw [Loader.giveBytes_of_not_pending l busy]; exact bare
  | failed reason => rfl
  | refused t pending => exact absurd pending busy
  | same | assigned t | unassigned => exact bare

omit [DecidableEq ι] in
/-- Only where a dispatch is undone, a loader becomes pending again. -/
theorem busy_touched {l m : Loader Model} (touched : l.Touched i a m) (kept : a ≠ .unassign i)
    (busy : l.phase ≠ .pending) : m.phase ≠ .pending := by
  cases touched with
  | same => exact busy
  | given data => rw [Loader.giveBytes_eq]; exact busy
  | failed reason => exact Phase.moveTo_ne_pending (by simp)
  | assigned t => exact Phase.moveTo_ne_pending (by simp)
  | unassigned => exact absurd rfl kept
  | refused t pending => exact absurd pending busy

omit [DecidableEq ι] in
/-- A loader that has ended had ended before, or it has just failed and lost its bytes. -/
theorem ended_touched {l m : Loader Model} (touched : l.Touched i a m) (ended : m.isLoaded = true) :
    m.bytes = none ∨ l.isLoaded = true := by
  cases touched with
  | same => exact Or.inr ended
  | given data => rw [Loader.giveBytes_eq] at ended; exact Or.inr ended
  | failed reason => exact Or.inl rfl
  | assigned t => rw [Loader.isLoaded_assign] at ended; exact Or.inr ended
  | unassigned => rw [Loader.isLoaded_unassign] at ended; exact Or.inr ended
  | refused t pending =>
    rw [Loader.isLoaded_unassign, Loader.isLoaded_assign] at ended
    exact Or.inr ended

theorem of_bare (busy : (t.loaders i).phase ≠ .pending) (bare : (t.loaders i).bytes = none) :
    Released t i := ⟨fun _ => bare, fun _ => ⟨busy, bare⟩⟩

theorem step (released : Released s i) (may : Considerate s a) (moves : Moves i a s t) :
    Released t i := by
  obtain ⟨ended, running⟩ := released
  cases moves with
  | touches starts ends becomes active reports =>
    refine ⟨fun now => ?_, fun now => ?_⟩
    · rcases ended_touched becomes now with bare | before
      · exact bare
      · exact bytes_touched becomes (Loader.ne_pending_of_isLoaded _ before) (ended before)
    · obtain ⟨busy, bare⟩ := running (active ▸ now)
      refine ⟨busy_touched becomes ?_ busy, bytes_touched becomes busy bare⟩
      -- a loader that is being run may not be made pending
      rintro rfl
      have spared := may.2
      rw [active, System.active, List.countP_pos_iff] at now
      obtain ⟨r, inside, own⟩ := now
      exact spared r inside (by simpa using own)
  | starts r own starts ends loaded fresh becomes active reports =>
    refine of_bare ?_ ?_
    · simp [becomes, Loader.taken]
    · simp [becomes, Loader.taken]
  | ends r own starts ends becomes active reports =>
    have inside := mem_runs_of_endedBy may.1 starts ends
    obtain ⟨-, bare⟩ := running (by have more := active inside; omega)
    refine of_bare ?_ ?_
    · rw [becomes]; exact Loader.phase_finish_ne_pending _ _
    · rw [becomes, Loader.bytes_finish, bare]
  | loads r own starts ends loaded fresh becomes active reports =>
    refine of_bare ?_ ?_
    · rw [becomes]; exact Loader.phase_finish_ne_pending _ _
    · rw [becomes, Loader.bytes_finish]; rfl

theorem of_fresh {m : Realm ι Model} (fresh : m.Fresh) (i : ι) : Released m.system i := by
  refine ⟨fun _ => ?_, fun busy => ?_⟩
  · rw [fresh.loader]
  · rw [fresh.active] at busy
    cases busy

end Released

/-- **Bytes are released**: as long as no dispatch is undone for a loader that is being run, a loader
that has ended holds no bytes, and neither does one that is being run, whatever else is done with
loaders, registries and schedulers. -/
theorem bytes_released {m : Realm ι Model} {h : List (Deed ι)} (fresh : m.Fresh)
    (allowed : m.Allows Considerate h) (i : ι) :
    (((m.after h).system.loaders i).isLoaded = true →
      ((m.after h).system.loaders i).bytes = none) ∧
    ((∃ r ∈ (m.after h).system.runs, r.loader = i) →
      ((m.after h).system.loaders i).bytes = none) := by
  obtain ⟨ended, running⟩ : Released (m.after h).system i :=
    Realm.after_induction (I := (Released · i)) (fun m d may before => before.step may (m.moves d i))
      allowed (Released.of_fresh fresh i)
  refine ⟨ended, ?_⟩
  rintro ⟨r, inside, own⟩
  refine (running ?_).2
  exact List.countP_pos_iff.mpr ⟨r, inside, by simpa using own⟩

/-- A dispatch is undone before its worker starts, and the loader is given bytes again; while it is run,
it is given bytes, dispatched and failed. -/
theorem bytes_released_of_pair :
    let on (scheduler : Nat) (a : Action Bool) : Deed Bool := ⟨0, scheduler, a⟩
    let h : List (Deed Bool) := [on 0 (.register true), on 0 (.giveBytes true [1]), on 0 (.tick none),
      on 0 (.unassign true), on 0 (.giveBytes true [2]), on 0 (.work ⟨true, 0⟩),
      on 0 (.giveBytes true [3]), on 1 (.newTask "again"), on 1 (.assign true 1),
      on 1 (.giveBytes true [4]), on 1 (.fail true "stop"), on 1 (.giveBytes true [5])]
    Realm.pair.Allows Considerate h ∧
    (⟨true, some [2], some 0⟩ : Run Bool) ∈ (Realm.pair.after h).system.runs ∧
    ((Realm.pair.after h).system.loaders true).isLoaded = true ∧
    ((Realm.pair.after h).system.loaders true).bytes = none := by
  intro on h
  have allowed : Realm.pair.Allows Considerate h := by decide +kernel
  have ended : ((Realm.pair.after h).system.loaders true).isLoaded = true := by decide +kernel
  exact ⟨allowed, by decide +kernel, ended, (bytes_released Realm.fresh_pair allowed true).1 ended⟩

/-- What callers and workers may do where no dispatch is undone for a loader whose decoder is at work. -/
def SparesDecoders (s : System ι Model) (a : Action ι) : Prop :=
  s.Possible a ∧
    match a with
    | .unassign i => ∀ r ∈ s.runs, r.isDecoding = true → r.loader ≠ i
    | _ => True

instance (s : System ι Model) : ∀ a, Decidable (SparesDecoders s a)
  | .unassign _ => inferInstanceAs (Decidable (_ ∧ ∀ r ∈ s.runs, _))
  | .register _ | .giveBytes .. | .acquire .. | .acquireAll _ | .load _ | .start _ | .fail .. |
    .newTask _ | .assign .. | .complete _ | .tick _ | .ask _ | .work _ | .finish _ =>
    inferInstanceAs (Decidable (_ ∧ True))

/-- It does not do to spare decoders at work. A run that found no bytes has none, and is in progress until it
has failed; if it is made pending before that, its loader accepts bytes that nothing will take. -/
theorem bytes_kept_after_run_without_bytes :
    let h : List (Deed Bool) := [.start true, .unassign true, .giveBytes true [2],
      .finish ⟨true, none, none⟩].map (⟨0, 0, ·⟩)
    Realm.pair.Fresh ∧ Realm.pair.Allows SparesDecoders h ∧
    ((Realm.pair.after h).system.loaders true).isLoaded = true ∧
    ((Realm.pair.after h).system.loaders true).phase = .failed ∧
    ((Realm.pair.after h).system.loaders true).bytes = some [2] := by
  intro h
  exact ⟨Realm.fresh_pair, by decide +kernel, by decide +kernel, by decide +kernel, by decide +kernel⟩

/-- Nor may a dispatch be undone while the decoder is at work. -/
example :
    let h : List (Action Bool) := [.giveBytes true [1], .start true, .unassign true,
      .giveBytes true [2], .finish ⟨true, some [1], none⟩]
    ((World.pair.after h).system.loaders true).phase = .succeeded ∧
    ((World.pair.after h).system.loaders true).bytes = some [2] := by
  decide +kernel

end ModelLoading.Loading
