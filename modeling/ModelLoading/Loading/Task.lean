import ModelLoading.Text.Quoted

/-!
# Background tasks

A task stands for one load in the background. Others hold its identifier, ask whether it is
completed, or wait until it is. A task that is completed stays completed.
-/

namespace ModelLoading.Loading

/-- The place of a task among the tasks of a system. -/
abbrev TaskId := Nat

/-- One load in the background. -/
structure Task where
  /-- The name of the loader that the task is for. -/
  name : String
  completed : Bool := false
  deriving DecidableEq, Repr

namespace Task

/-- Marks a task as completed. -/
def complete (t : Task) : Task := { t with completed := true }

/-- Runs work in the background to its end. Work that panics completes its task, too. -/
def runToEnd (t : Task) : Task := t.complete

/-- The description of a task. -/
def describe (t : Task) : String :=
  s!"LoadTask \x7b name: {Text.quoted t.name}, completed: {t.completed} \x7d"

end Task

end ModelLoading.Loading
