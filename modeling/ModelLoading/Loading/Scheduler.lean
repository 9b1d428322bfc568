import ModelLoading.Loading.Registry

/-!
# The scheduler

A scheduler runs the registered loaders one after another, each on a worker of its own. It is given a
tick from time to time. A tick never waits: while the dispatched load goes on, it does nothing.
-/

namespace ModelLoading.Loading

/-- What came of a tick. -/
inductive Tick (ι : Type) where
  /-- Everything was loaded before; nothing was looked at. -/
  | idle
  /-- The dispatched load still goes on. -/
  | busy
  /-- A loader was dispatched. -/
  | dispatched (loader : ι)
  /-- So many loaders have not ended, and none of them waits to be run. -/
  | stalled (pending : Nat)
  /-- Every loader has ended. -/
  | allLoaded
  deriving DecidableEq, Repr

/-- Whether the tick leaves something to come: a load that goes on, or one just dispatched. -/
def Tick.isUnsettled {ι : Type} : Tick ι → Bool
  | busy | dispatched _ => true
  | idle | stalled _ | allLoaded => false

/-- The memory of a scheduler. -/
structure Scheduler where
  settings : Settings := {}
  /-- Whether every loader was once found to have ended. -/
  allLoaded : Bool := false
  /-- The task dispatched last. -/
  current : Option TaskId := none
  /-- The number of loads dispatched so far. -/
  dispatched : Nat := 0
  deriving DecidableEq, Repr

namespace Scheduler

variable {ι Model : Type} [DecidableEq ι]

/-- Whether the task dispatched last still goes on. -/
def isBusy (c : Scheduler) (s : System ι Model) : Bool :=
  match c.current with
  | some t => !s.isCompleted t
  | none => false

/-- One tick: dispatches at most one loader. Where no thread can be started for its worker, for the
cause given, the loader waits for a later tick. -/
def tick (c : Scheduler) (refusal : Option Files.IoError) (r : Registry ι) (s : System ι Model) :
    Tick ι × Scheduler × System ι Model :=
  if c.allLoaded ∧ ¬c.settings.recheck then (.idle, c, s)
  else if c.isBusy s then (.busy, c, s)
  else
    match r.next? s with
    | some i =>
      match refusal with
      | none =>
        let (t, s) := s.dispatch i
        (.dispatched i, { c with current := some t, dispatched := c.dispatched + 1 }, s)
      | some cause => (.busy, c, s.refuse i cause)
    | none =>
      match r.pendingCount s with
      | 0 =>
        (.allLoaded, { c with allLoaded := true },
          if c.allLoaded then s else s.note .caller (.allLoaded r.entries.length))
      | n => (.stalled n, c, s)

/-- One tick where threads can be started. -/
def advance (c : Scheduler) (r : Registry ι) (s : System ι Model) :
    Tick ι × Scheduler × System ι Model :=
  c.tick none r s

/-- Ticks until the loading settles, at most so many times; between ticks all workers carry their
loads to the end. -/
def settleWithin : Nat → Scheduler → Registry ι → System ι Model →
    Tick ι × Scheduler × System ι Model
  | 0, c, _, s => (.busy, c, s)
  | n + 1, c, r, s =>
    let (tick, c, s) := c.advance r s
    if tick.isUnsettled then settleWithin n c r s.drain else (tick, c, s)

/-- Ticks until the loading settles. A first tick may find the scheduler busy; every later one but
the last takes one pending loader away for good. -/
def settle (c : Scheduler) (r : Registry ι) (s : System ι Model) :
    Tick ι × Scheduler × System ι Model :=
  settleWithin (r.entries.length + 2) c r s

end Scheduler

end ModelLoading.Loading
