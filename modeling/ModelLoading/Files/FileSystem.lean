import ModelLoading.Bytes
import ModelLoading.Files.IoError
import ModelLoading.Files.Path

/-!
# File systems

A file system is a set of directories and files, each at its location: the names on the way from the
root. Relative paths start at a working directory. A path is followed part by part, and every part but
the last has to be a directory.
-/

namespace ModelLoading.Files

/-- The names on the way from the root. -/
abbrev Location := List String

/-- What can be at a location. -/
inductive Node where
  | directory
  | file (content : Bytes)
  deriving DecidableEq, Repr

/-- Directories and files at their locations. The root is always a directory and has no entry. -/
structure FileSystem where
  entries : List (Location × Node) := []
  /-- Where relative paths start. -/
  working : Location := []
  deriving DecidableEq, Repr

namespace FileSystem

/-- What is at a location. -/
def node? (fs : FileSystem) (l : Location) : Option Node :=
  if l.isEmpty then some .directory else (fs.entries.find? (·.1 = l)).map (·.2)

/-- Puts something at a location, in place of what is there. -/
def put (fs : FileSystem) (l : Location) (n : Node) : FileSystem :=
  if fs.entries.any (·.1 = l) then
    { fs with entries := fs.entries.map fun e => if e.1 = l then (l, n) else e }
  else { fs with entries := fs.entries ++ [(l, n)] }

/-- The greatest number of bytes of a name. -/
def nameLimit : Nat := 255

/-- The least number of bytes that is too much for a path. -/
def pathLimit : Nat := 4096

/-- Follows parts of a path from a location on. -/
def follow (fs : FileSystem) (l : Location) : List String → Except IoError Location
  | [] => .ok l
  | part :: rest =>
    match fs.node? l with
    | some .directory =>
      if Path.isIdle part then follow fs l rest
      else if part = ".." then follow fs l.dropLast rest
      else if part.utf8ByteSize > nameLimit then .error .nameTooLong
      else
        match fs.node? (l ++ [part]) with
        | some _ => follow fs (l ++ [part]) rest
        | none => .error .notFound
    | some (.file _) => .error .notDirectory
    | none => .error .notFound

/-- Why a path cannot be followed at all, whatever there is. -/
def pathFault? (path : String) : Option IoError :=
  if path.toList.contains '\x00' then
    some (.other "file name contained an unexpected NUL byte")
  else if path.isEmpty then some .notFound
  else if path.utf8ByteSize ≥ pathLimit then some .nameTooLong
  else none

/-- Where a path starts. -/
def origin (fs : FileSystem) (path : String) : Location :=
  if Path.isAbsolute path then [] else fs.working

/-- The location that a path leads to, where something is. -/
def resolve (fs : FileSystem) (path : String) : Except IoError Location :=
  match pathFault? path with
  | some e => .error e
  | none => fs.follow (fs.origin path) (Path.parts path)

/-- Opens a file and reads it: the outer outcome is that of opening, the inner that of reading. A
directory can be opened. -/
def openFile (fs : FileSystem) (path : String) : Except IoError (Except IoError Bytes) := do
  match fs.node? (← fs.resolve path) with
  | some (.file content) => return .ok content
  | some .directory => return .error .isDirectory
  | none => throw .notFound

/-- The content of a file. -/
def read (fs : FileSystem) (path : String) : Except IoError Bytes := do
  fs.openFile path >>= id

/-- The content of a file that is a text. -/
def readText (fs : FileSystem) (path : String) : Except IoError String := do
  match Bytes.text? (← fs.read path) with
  | some s => return s
  | none => throw .invalidText

/-- The location that a path names for a file to write, where there may be nothing yet. -/
def target (fs : FileSystem) (path : String) : Except IoError Location :=
  match pathFault? path with
  | some e => .error e
  | none => do
    let parts := Path.parts path
    let named := (parts.reverse.dropWhile (·.isEmpty)).reverse
    match named.getLast? with
    | none => throw .isDirectory
    | some name =>
      let l ← fs.follow (fs.origin path) named.dropLast
      match fs.node? l with
      | some .directory =>
        if named.length < parts.length ∨ name = "." ∨ name = ".." then throw .isDirectory
        else if name.utf8ByteSize > nameLimit then throw .nameTooLong
        else
          match fs.node? (l ++ [name]) with
          | some .directory => throw .isDirectory
          | _ => return l ++ [name]
      | some (.file _) => throw .notDirectory
      | none => throw .notFound

/-- Writes a file, in place of its old content. Its directory must exist. -/
def write (fs : FileSystem) (path : String) (content : Bytes) : Except IoError FileSystem := do
  return fs.put (← fs.target path) (.file content)

/-- The location of a directory that a path leads to. -/
def directory (fs : FileSystem) (path : String) : Except IoError Location := do
  let l ← fs.resolve path
  match fs.node? l with
  | some .directory => return l
  | some (.file _) => throw .notDirectory
  | none => throw .notFound

/-- The names of what is in a directory, in the order of the entries. -/
def namesIn (fs : FileSystem) (l : Location) : List String :=
  fs.entries.filterMap fun (place, _) =>
    place.getLast?.filter fun name => place.dropLast = l ∧ Path.isName name

/-- The names in the directory that a path leads to. -/
def list (fs : FileSystem) (path : String) : Except IoError (List String) := do
  return fs.namesIn (← fs.directory path)

/-- Whether a path leads to a directory. -/
def isDirectory (fs : FileSystem) (path : String) : Bool := (fs.directory path).isOk

/-- Whether a path leads to a file. -/
def isFile (fs : FileSystem) (path : String) : Bool :=
  match fs.openFile path with
  | .ok (.ok _) => true
  | _ => false

theorem isName_of_mem_namesIn {fs : FileSystem} {l : Location} {name : String}
    (h : name ∈ fs.namesIn l) : Path.isName name = true := by
  obtain ⟨_, -, found⟩ := List.mem_filterMap.mp h
  simp only [Option.filter_eq_some_iff, decide_eq_true_eq] at found
  exact found.2.2

theorem list_eq_ok_iff {fs : FileSystem} {path : String} {names : List String} :
    fs.list path = .ok names ↔ ∃ l, fs.directory path = .ok l ∧ names = fs.namesIn l := by
  unfold list
  cases fs.directory path with
  | error e =>
    constructor
    · intro h
      cases h
    · rintro ⟨_, h, -⟩
      cases h
  | ok l =>
    constructor
    · intro h
      exact ⟨l, rfl, (Except.ok.inj h).symm⟩
    · rintro ⟨_, h, rfl⟩
      obtain rfl := Except.ok.inj h
      rfl

/-- A path that leads somewhere is short enough. -/
theorem size_lt_of_directory {fs : FileSystem} {path : String} {l : Location}
    (h : fs.directory path = .ok l) : path.utf8ByteSize < pathLimit := by
  by_cases long : path.utf8ByteSize ≥ pathLimit
  · have fault : ∃ e, pathFault? path = some e := by
      unfold pathFault?
      split
      · exact ⟨_, rfl⟩
      · split
        · exact ⟨_, rfl⟩
        · exact ⟨_, rfl⟩
    obtain ⟨e, fault⟩ := fault
    simp [directory, resolve, fault, bind, Except.bind] at h
  · exact Nat.lt_of_not_le long

/-- Makes a directory and those on the way to it. -/
def makeDirectories (fs : FileSystem) (l : Location) : FileSystem :=
  (List.range l.length).foldl (fun fs n =>
    let place := l.take (n + 1)
    match fs.node? place with
    | some _ => fs
    | none => fs.put place .directory) fs

end FileSystem

end ModelLoading.Files
