import ModelLoading.Resource.Source

/-!
# Resources in memory

An ordered map from names to contents. The names are listed in the order in which they were first
inserted.
-/

namespace ModelLoading.Resource

/-- Resources kept in memory. -/
structure Memory where
  owner : String
  /-- The resources in order of first insertion. -/
  entries : List (String × Bytes) := []
  deriving DecidableEq, Repr

namespace Memory

/-- Puts a content under a name: in the place of the name's old content, or at the end. -/
def put (name : String) (data : Bytes) : List (String × Bytes) → List (String × Bytes)
  | [] => [(name, data)]
  | (other, old) :: rest =>
    if other = name then (other, data) :: rest else (other, old) :: put name data rest

/-- Adds a resource or replaces its content. -/
def insert (m : Memory) (name : String) (data : Bytes) : Memory :=
  { m with entries := put name data m.entries }

/-- Resources inserted one after another. -/
def ofList (owner : String) (l : List (String × Bytes)) : Memory :=
  l.foldl (fun m (name, data) => m.insert name data) { owner }

/-- The number of resources. -/
def size (m : Memory) : Nat := m.entries.length

/-- The content under a name. -/
def get? (m : Memory) (name : String) : Option Bytes :=
  (m.entries.find? (·.1 = name)).map (·.2)

/-- The resources as a source. -/
def source (m : Memory) : Source where
  owner := m.owner
  names := m.entries.map (·.1)
  openStream name :=
    match m.get? name with
    | some data => .ok (.ok data)
    | none => .error (.other s!"No resource named {name}")

end Memory

end ModelLoading.Resource
