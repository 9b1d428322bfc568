/-!
# The phases of a load

A load is pending until something starts it, loading while it runs, and ends succeeded or failed.
The last two are terminal: a load never leaves them.
-/

namespace ModelLoading.Loading

/-- How far a load has come. -/
inductive Phase where
  /-- Not started; there may be bytes to load or not. -/
  | pending
  /-- Under way. -/
  | loading
  /-- Ended with a model. -/
  | succeeded
  /-- Ended without a model. -/
  | failed
  deriving DecidableEq, Repr

namespace Phase

/-- Whether the load has ended. -/
def isTerminal : Phase → Bool
  | succeeded | failed => true
  | pending | loading => false

/-- The phase with a number; numbers that name no phase mean a pending load. -/
def ofCode : Nat → Phase
  | 1 => loading
  | 2 => succeeded
  | 3 => failed
  | _ => pending

/-- The phase in running text. -/
def label : Phase → String
  | pending => "pending"
  | loading => "loading"
  | succeeded => "succeeded"
  | failed => "failed"

/-- The phase in the description of a value. -/
def name : Phase → String
  | pending => "Pending"
  | loading => "Loading"
  | succeeded => "Succeeded"
  | failed => "Failed"

/-- The next phase, unless the load has ended. -/
def advance? (current next : Phase) : Option Phase :=
  if current.isTerminal then none else some next

/-- Moves to the next phase; a load that has ended stays where it is. -/
def moveTo (current next : Phase) : Phase := (current.advance? next).getD current

end Phase

end ModelLoading.Loading
