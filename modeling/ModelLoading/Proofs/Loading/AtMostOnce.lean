import ModelLoading.Proofs.Loading.Realm

/-!
# A loader is loaded at most once

Every loader has one run to give. It may not have started, it may be in progress, or its end was
reported: `reports + active + (1 unless started) = 1` in every realm that comes of a fresh one
(`Single.account`). No action adds to the sum, so no history starts a second run, reports a second
end, or stores a second result.
-/

namespace ModelLoading.Loading

variable {ι Model : Type} [DecidableEq ι]

namespace System

variable (s : System ι Model) (i : ι) (a : Action ι)

/-- The action starts a run of the loader. -/
def begins : Bool := (s.startedBy a).any fun r => r.loader = i

/-- The action invokes the decoder of the loader: it starts a run that has bytes. -/
def invokes : Bool := (s.startedBy a).any fun r => r.loader = i ∧ r.isDecoding

/-- The action ends a run of the loader. -/
def concludes : Bool := (s.endedBy a).any fun r => r.loader = i

/-- The action writes the result of the loader: it ends a run whose decoder made a model. -/
def stores : Bool :=
  (s.endedBy a).any fun r => r.loader = i ∧ ((s.loaders i).outcome r.taken).isOk

theorem invokes_le_begins : (s.invokes i a).toNat ≤ (s.begins i a).toNat := by
  unfold invokes begins
  cases s.startedBy a with
  | none => simp
  | some r => by_cases own : r.loader = i <;> simp [own, Bool.toNat_le]

theorem stores_le_concludes : (s.stores i a).toNat ≤ (s.concludes i a).toNat := by
  unfold stores concludes
  cases s.endedBy a with
  | none => simp
  | some r => by_cases own : r.loader = i <;> simp [own, Bool.toNat_le]

/-- The loader has one run to give: to be started, in progress, or reported. -/
structure Single : Prop where
  account : s.reports i + s.active i + (!(s.loaders i).started).toNat = 1
  stored : (s.loaders i).result.isSome → s.reports i = 1

end System

/-! ## One action -/

section Step

variable {s t : System ι Model} {i : ι} {a : Action ι}

omit [DecidableEq ι] in
theorem Loader.Touched.started {l m : Loader Model} (h : l.Touched i a m) : m.started = l.started := by
  cases h with
  | given data => rw [Loader.giveBytes_eq]
  | _ => rfl

omit [DecidableEq ι] in
theorem Loader.Touched.result {l m : Loader Model} (h : l.Touched i a m) : m.result = l.result := by
  cases h with
  | given data => rw [Loader.giveBytes_eq]
  | _ => rfl

omit [DecidableEq ι] in
theorem Loader.started_finish (l : Loader Model) (outcome : Except String Model) :
    (l.finish outcome).started = l.started := by
  cases outcome <;> rfl

omit [DecidableEq ι] in
theorem any_of_other {o : Option (Run ι)} {p : Run ι → Bool} (h : ∀ r, o = some r → r.loader ≠ i)
    (own : ∀ r, p r = true → r.loader = i) : o.any p = false := by
  cases o with
  | none => rfl
  | some r =>
    cases hp : p r with
    | false => simp [hp]
    | true => exact absurd (own r hp) (h r rfl)

/-- The run that a loader has to give is used up by its start. -/
theorem Moves.begins (moves : Moves i a s t) :
    (s.begins i a).toNat + (!(t.loaders i).started).toNat = (!(s.loaders i).started).toNat := by
  unfold System.begins
  cases moves with
  | touches starts ends becomes active reports =>
    rw [any_of_other starts (by simp), becomes.started]
    simp
  | starts r own starts ends loaded fresh becomes active reports =>
    simp [starts, own, becomes, fresh, Loader.taken]
  | ends r own starts ends becomes active reports =>
    simp [starts, becomes, Loader.started_finish]
  | loads r own starts ends loaded fresh becomes active reports =>
    simp [starts, own, becomes, Loader.started_finish, fresh, Loader.taken]

/-- Each end of a run is reported. -/
theorem Moves.concludes (moves : Moves i a s t) :
    t.reports i = s.reports i + (s.concludes i a).toNat := by
  unfold System.concludes
  cases moves with
  | touches starts ends becomes active reports =>
    rw [any_of_other ends (by simp), reports]
    rfl
  | starts r own starts ends loaded fresh becomes active reports => simp [ends, reports]
  | ends r own starts ends becomes active reports => simp [ends, own, reports]
  | loads r own starts ends loaded fresh becomes active reports => simp [ends, own, reports]

/-- The result of a loader is written by the end of a run that made a model, and by nothing else. -/
theorem Moves.result (moves : Moves i a s t) (h : s.stores i a = false) :
    (t.loaders i).result = (s.loaders i).result := by
  have finish : ∀ (l : Loader Model) (outcome : Except String Model), outcome.isOk = false →
      (l.finish outcome).result = l.result := by
    intro l outcome other
    cases outcome with
    | ok m => cases other
    | error reason => rfl
  unfold System.stores at h
  cases moves with
  | touches starts ends becomes active reports => exact becomes.result
  | starts r own starts ends loaded fresh becomes active reports => rw [becomes]; rfl
  | ends r own starts ends becomes active reports =>
    rw [becomes]
    exact finish _ _ (by simpa [ends, own] using h)
  | loads r own starts ends loaded fresh becomes active reports =>
    rw [becomes]
    exact finish _ _ (by simpa [ends, own] using h)

/-- The run that an action ends was in progress, unless the action started it. -/
theorem mem_runs_of_endedBy (possible : s.Possible a) {r : Run ι} (starts : s.startedBy a = none)
    (ends : s.endedBy a = some r) : r ∈ s.runs := by
  cases a with
  | finish q =>
    obtain rfl := Option.some.inj ends
    exact possible
  | load j =>
    simp only [System.startedBy] at starts
    simp [System.endedBy, starts] at ends
  | _ => cases ends

theorem System.Single.step (single : s.Single i) (possible : s.Possible a) (moves : Moves i a s t) :
    t.Single i := by
  obtain ⟨account, stored⟩ := single
  cases moves with
  | touches starts ends becomes active reports =>
    refine ⟨?_, ?_⟩
    · rw [reports, active, becomes.started]; exact account
    · rw [becomes.result, reports]; exact stored
  | starts r own starts ends loaded fresh becomes active reports =>
    have started : (t.loaders i).started = true := by rw [becomes]; rfl
    refine ⟨?_, ?_⟩
    · simp only [fresh, started, reports, active, Bool.not_false, Bool.not_true, Bool.toNat_true,
        Bool.toNat_false] at account ⊢
      omega
    · rw [becomes, reports]; exact stored
  | ends r own starts ends becomes active reports =>
    have before := active (mem_runs_of_endedBy possible starts ends)
    have started : (t.loaders i).started = (s.loaders i).started := by
      rw [becomes, Loader.started_finish]
    refine ⟨?_, fun _ => ?_⟩
    · rw [started]; omega
    · omega
  | loads r own starts ends loaded fresh becomes active reports =>
    have started : (t.loaders i).started = true := by
      rw [becomes, Loader.started_finish]; rfl
    simp only [fresh, Bool.not_false, Bool.toNat_true] at account
    refine ⟨?_, fun _ => ?_⟩
    · simp only [started, Bool.not_true, Bool.toNat_false]
      omega
    · omega

/-- A loader that has its result has given its run, and nothing writes the result again. -/
theorem System.Single.not_stores (single : s.Single i) (possible : s.Possible a)
    (moves : Moves i a s t) (has : (s.loaders i).result.isSome) : s.stores i a = false := by
  obtain ⟨account, stored⟩ := single
  have reported := stored has
  unfold System.stores
  cases moves with
  | touches starts ends becomes active reports => exact any_of_other ends (by simp_all)
  | starts r own starts ends loaded fresh becomes active reports => simp [ends]
  | ends r own starts ends becomes active reports =>
    have before := active (mem_runs_of_endedBy possible starts ends)
    omega
  | loads r own starts ends loaded fresh becomes active reports =>
    simp only [fresh, Bool.not_false, Bool.toNat_true] at account
    omega

end Step

/-! ## Histories -/

namespace Realm

variable {m : Realm ι Model} {h : List (Deed ι)}

theorem times_mono {p q : System ι Model → Action ι → Bool}
    (le : ∀ s a, (p s a).toNat ≤ (q s a).toNat) (m : Realm ι Model) (h : List (Deed ι)) :
    m.times p h ≤ m.times q h := by
  induction h generalizing m with
  | nil => exact Nat.le_refl _
  | cons d h ih => exact Nat.add_le_add (le _ _) (ih _)

/-- The runs that a history starts. -/
theorem times_begins (m : Realm ι Model) (h : List (Deed ι)) (i : ι) :
    m.times (·.begins i) h + (!((m.after h).system.loaders i).started).toNat =
      (!(m.system.loaders i).started).toNat := by
  induction h generalizing m with
  | nil => simp [times]
  | cons d h ih =>
    have step := (m.moves d i).begins
    have rest := ih (m.perform d)
    simp only [times, after_cons]
    omega

/-- The runs that a history ends. -/
theorem times_concludes (m : Realm ι Model) (h : List (Deed ι)) (i : ι) :
    (m.after h).system.reports i = m.system.reports i + m.times (·.concludes i) h := by
  induction h generalizing m with
  | nil => simp [times]
  | cons d h ih =>
    have step := (m.moves d i).concludes
    have rest := ih (m.perform d)
    simp only [times, after_cons]
    omega

theorem Fresh.single (fresh : m.Fresh) (i : ι) : m.system.Single i := by
  have none : m.system.reports i = 0 := by simp [System.reports, fresh.log]
  refine ⟨?_, fun has => ?_⟩
  · rw [none, fresh.active, fresh.loader]; rfl
  · rw [fresh.loader] at has; cases has

theorem single_after (single : ∀ i, m.system.Single i) (allowed : m.Allows System.Possible h) :
    ∀ i, (m.after h).system.Single i :=
  after_induction (I := fun s => ∀ i, s.Single i)
    (fun m d possible before i => (before i).step possible (m.moves d i)) allowed single

/-- A result that is there stays. -/
theorem result_after {i : ι} (single : ∀ i, m.system.Single i)
    (allowed : m.Allows System.Possible h) (has : (m.system.loaders i).result.isSome) :
    ((m.after h).system.loaders i).result = (m.system.loaders i).result := by
  induction h generalizing m with
  | nil => rfl
  | cons d h ih =>
    have moves := m.moves d i
    have same := moves.result ((single i).not_stores allowed.1 moves has)
    have next := ih (fun j => (single j).step allowed.1 (m.moves d j)) allowed.2 (same ▸ has)
    exact next.trans same

end Realm

/-- **A loader is loaded at most once**, whatever is done with it, with registries and with
schedulers: its decoder is invoked at most once, at most one end of a run of it is reported, and its
result is written at most once, changes only when it is written, and stays as it is from then on. -/
theorem loaded_at_most_once {m : Realm ι Model} {h : List (Deed ι)} (fresh : m.Fresh)
    (allowed : m.Allows System.Possible h) (i : ι) :
    m.times (·.invokes i) h ≤ 1 ∧
    (m.after h).system.reports i ≤ 1 ∧
    m.times (·.stores i) h ≤ 1 ∧
    ∀ p q, h = p ++ q →
      (∀ d k, q = d :: k → (m.after p).system.stores i d.action = false →
        (((m.after p).perform d).system.loaders i).result = ((m.after p).system.loaders i).result) ∧
      (((m.after p).system.loaders i).result.isSome →
        ((m.after h).system.loaders i).result = ((m.after p).system.loaders i).result) := by
  have account := (Realm.single_after fresh.single allowed i).account
  have begins := m.times_begins h i
  have concludes := m.times_concludes h i
  have invoked := Realm.times_mono (fun s a => s.invokes_le_begins i a) m h
  have stored := Realm.times_mono (fun s a => s.stores_le_concludes i a) m h
  have one := Bool.toNat_le (!(m.system.loaders i).started)
  refine ⟨by omega, by omega, by omega, ?_⟩
  rintro p q rfl
  obtain ⟨before, later⟩ := Realm.allows_append.mp allowed
  refine ⟨?_, fun has => ?_⟩
  · rintro d k rfl silent
    exact ((m.after p).moves d i).result silent
  · rw [Realm.after_append]
    exact Realm.result_after (Realm.single_after fresh.single before) later has

/-- A load is given up while its worker runs; the loader gets new bytes, is dispatched by another
scheduler and run by a caller, and fails from outside, before the first run comes to its end. -/
theorem loaded_at_most_once_of_pair :
    let on (scheduler : Nat) (a : Action Bool) : Deed Bool := ⟨0, scheduler, a⟩
    let h : List (Deed Bool) := [on 0 (.register true), on 0 (.giveBytes true [1]), on 0 (.tick none),
      on 0 (.work ⟨true, 0⟩), on 0 (.unassign true), on 0 (.giveBytes true [2]), on 1 (.tick none),
      on 1 (.work ⟨true, 1⟩), on 1 (.load true), on 1 (.fail true "stop"),
      on 0 (.finish ⟨true, some [1], some 0⟩), on 0 (.load true)]
    Realm.pair.Allows System.Possible h ∧
    ((Realm.pair.after h).system.loaders true).result = some [1] ∧
    Realm.pair.times (·.invokes true) h = 1 ∧ Realm.pair.times (·.stores true) h = 1 ∧
    (Realm.pair.after h).system.reports true = 1 := by
  intro on h
  have allowed : Realm.pair.Allows System.Possible h := by decide +kernel
  have result : ((Realm.pair.after h).system.loaders true).result = some [1] := by decide +kernel
  have once := loaded_at_most_once Realm.fresh_pair allowed true
  have invoked : 1 ≤ Realm.pair.times (·.invokes true) h := by decide +kernel
  have stored : 1 ≤ Realm.pair.times (·.stores true) h := by decide +kernel
  have reported : 1 ≤ (Realm.pair.after h).system.reports true := by decide +kernel
  exact ⟨allowed, result, Nat.le_antisymm once.1 invoked, Nat.le_antisymm once.2.2.1 stored,
    Nat.le_antisymm once.2.1 reported⟩

end ModelLoading.Loading
