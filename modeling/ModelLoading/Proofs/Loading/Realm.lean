import ModelLoading.Proofs.Loading.Moves

/-!
# Histories with any number of schedulers

A `World` has one registry and one scheduler. A `Realm` has as many of both as its callers care to
use, over one system of loaders. A `Deed` is an action with the registry and the scheduler that it is
taken with; a scheduler that is replaced is one with which no more deeds are done. Every pair of a
registry and a scheduler makes a world of the realm, so what holds of the system after every action
of every world holds after every deed.
-/

namespace ModelLoading.Loading

variable {ι Model : Type}

/-- A system of loaders with the registries and the schedulers of its callers, by number. -/
structure Realm (ι Model : Type) where
  system : System ι Model
  registries : Nat → Registry ι := fun _ => {}
  schedulers : Nat → Scheduler := fun _ => {}

/-- An action, and the numbers of the registry and the scheduler that it is taken with. -/
structure Deed (ι : Type) where
  registry : Nat
  scheduler : Nat
  action : Action ι

namespace Realm

/-- The world that a deed finds. -/
def world (m : Realm ι Model) (d : Deed ι) : World ι Model :=
  { system := m.system, registry := m.registries d.registry, scheduler := m.schedulers d.scheduler }

/-- Nothing has happened: every registry and every scheduler is new, no loader was touched, and
nothing is logged. -/
structure Fresh (m : Realm ι Model) : Prop where
  worlds : ∀ d, (m.world d).Fresh
  log : m.system.log = []

variable [DecidableEq ι]

/-- The realm after a deed. -/
def perform (m : Realm ι Model) (d : Deed ι) : Realm ι Model :=
  let w := (m.world d).perform d.action
  { system := w.system
    registries := fun n => if n = d.registry then w.registry else m.registries n
    schedulers := fun n => if n = d.scheduler then w.scheduler else m.schedulers n }

/-- The realm after a history. -/
def after (m : Realm ι Model) (h : List (Deed ι)) : Realm ι Model := h.foldl perform m

@[simp] theorem after_nil (m : Realm ι Model) : m.after [] = m := rfl

@[simp] theorem after_cons (m : Realm ι Model) (d : Deed ι) (h : List (Deed ι)) :
    m.after (d :: h) = (m.perform d).after h := rfl

@[simp] theorem after_append (m : Realm ι Model) (h k : List (Deed ι)) :
    m.after (h ++ k) = (m.after h).after k := by
  simp [after]

/-- Every action of a history may be taken when its turn comes. -/
def Allows (may : System ι Model → Action ι → Prop) : Realm ι Model → List (Deed ι) → Prop
  | _, [] => True
  | m, d :: h => may m.system d.action ∧ Allows may (m.perform d) h

instance decidableAllows (may : System ι Model → Action ι → Prop) [∀ s a, Decidable (may s a)] :
    ∀ (m : Realm ι Model) (h : List (Deed ι)), Decidable (Allows may m h)
  | _, [] => .isTrue trivial
  | m, d :: h =>
    have := decidableAllows may (m.perform d) h
    inferInstanceAs (Decidable (may m.system d.action ∧ Allows may (m.perform d) h))

/-- The number of actions in a history that have a property when their turn comes. -/
def times (p : System ι Model → Action ι → Bool) : Realm ι Model → List (Deed ι) → Nat
  | _, [] => 0
  | m, d :: h => (p m.system d.action).toNat + times p (m.perform d) h

section Histories

variable {may : System ι Model → Action ι → Prop} {m : Realm ι Model} {h k : List (Deed ι)}

theorem allows_append : m.Allows may (h ++ k) ↔ m.Allows may h ∧ (m.after h).Allows may k := by
  induction h generalizing m with
  | nil => simp [Allows]
  | cons d h ih => simp [Allows, ih, and_assoc]

/-- An action moves a loader in the same ways whatever registry and scheduler it is taken with. -/
theorem moves (m : Realm ι Model) (d : Deed ι) (i : ι) :
    Moves i d.action m.system (m.perform d).system :=
  (m.world d).moves d.action i

omit [DecidableEq ι] in
theorem Fresh.loader (fresh : m.Fresh) (i : ι) : m.system.loaders i =
    { name := (m.system.loaders i).name
      file := (m.system.loaders i).file
      decode := (m.system.loaders i).decode } :=
  (fresh.worlds ⟨0, 0, .ask i⟩).loaders i

theorem Fresh.active (fresh : m.Fresh) (i : ι) : m.system.active i = 0 := by
  have runs : m.system.runs = [] := (fresh.worlds ⟨0, 0, .ask i⟩).runs
  simp [System.active, runs]

/-- What every allowed action preserves holds after every allowed history. -/
theorem after_induction {I : System ι Model → Prop}
    (step : ∀ (m : Realm ι Model) d, may m.system d.action → I m.system → I (m.perform d).system)
    (allowed : m.Allows may h) (start : I m.system) : I (m.after h).system := by
  induction h generalizing m with
  | nil => exact start
  | cons d h ih => exact ih allowed.2 (step m d allowed.1 start)

end Histories

end Realm

/-- Whether an action can be taken: tasks have to exist before they are used, and a worker takes the
steps of a load that was dispatched to it. -/
def System.Possible (s : System ι Model) (a : Action ι) : Prop := a.Possible { system := s }

instance [DecidableEq ι] (s : System ι Model) (a : Action ι) : Decidable (s.Possible a) :=
  inferInstanceAs (Decidable (a.Possible { system := s : World ι Model }))

/-- Two loaders whose models are their bytes. -/
def Realm.pair : Realm Bool Bytes := { system := World.pair.system }

theorem Realm.fresh_pair : Realm.pair.Fresh :=
  ⟨fun _ => ⟨World.fresh_pair.loaders, rfl, rfl, rfl, rfl, rfl, rfl⟩, rfl⟩

end ModelLoading.Loading
