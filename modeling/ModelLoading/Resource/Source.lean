import ModelLoading.Bytes
import ModelLoading.Loading.Error
import ModelLoading.Log
import ModelLoading.Resource.Matching

/-!
# Sources of resources

A source lists the names of its resources and opens them. Opening can fail, and reading what was
opened can fail. A lookup must select exactly one resource, and its content must not be empty.
-/

namespace ModelLoading.Resource

open Loading (Error)

/-- The named resources of one owner. -/
structure Source where
  /-- The owner, in messages. -/
  owner : String
  /-- The names of the resources, in order. -/
  names : List String
  /-- What a listing of the names logs. -/
  notes : List Log.Record := []
  /-- Opens a resource and reads it: the outer outcome is that of opening, the inner that of reading. -/
  openStream : String → Except Files.IoError (Except Files.IoError Bytes)

namespace Source

/-- The names that the name of a bytes file selects, in order. -/
def candidates (s : Source) (file : String) (m : Matching) : List String :=
  s.names.filter (m.selects · file)

/-- The one resource that the name of a bytes file selects. -/
def find (s : Source) (file : String) (m : Matching) : Except Error String :=
  match s.candidates file m with
  | [] => .error (.notFound s.owner file)
  | [name] => .ok name
  | names => .error (.ambiguous s.owner file names)

/-- The content of a resource, which must not be empty. -/
def read (s : Source) (name : String) : Except Error Bytes :=
  match s.openStream name with
  | .error cause => .error (.io cause)
  | .ok (.error cause) => .error (.io cause)
  | .ok (.ok []) => .error (.empty name)
  | .ok (.ok data) => .ok data

/-- The same source, some of whose resources are listed but cannot be opened. -/
def refusing (s : Source) (refused : List String) (reason : Files.IoError) : Source :=
  { s with
    openStream := fun name => if refused.contains name then .error reason else s.openStream name }

end Source

end ModelLoading.Resource
