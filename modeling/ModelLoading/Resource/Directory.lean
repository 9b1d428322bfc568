import ModelLoading.Files.FileSystem
import ModelLoading.Resource.Source

/-!
# Resources in a directory

The resources are the files below a root directory. Their names are the paths from the root, in the
order of code points.
-/

namespace ModelLoading.Resource

/-- Resources kept in files below a directory. -/
structure Directory where
  owner : String
  /-- The path of the directory. -/
  root : String
  deriving DecidableEq, Repr

/-- What a listing of files comes to. -/
structure Listing where
  /-- The names of the files. -/
  names : List String := []
  /-- What the listing logs. -/
  notes : List Log.Record := []

/-- Listings one after another. -/
def Listing.join (parts : List Listing) : Listing :=
  { names := parts.flatMap (·.names), notes := parts.flatMap (·.notes) }

namespace Directory

open Files

/-- The path of a resource: every part of its name continues the root. -/
def pathOf (d : Directory) (name : String) : String :=
  (Files.Path.parts name).foldl Path.join d.root

/-- The record of a directory that cannot be listed. -/
def unlisted (path : String) (cause : Files.IoError) : Log.Record :=
  { level := .warn
    topic := .loading
    message := s!"Failed to read resource directory {Text.quoted path}: {cause.message}" }

/-- The name of something in a directory, behind the name of the directory. -/
def nameIn (directory name : String) : String :=
  if directory.isEmpty then name else directory ++ "/" ++ name

/-- The files below the directory of a path, behind a name for it. -/
def collect (fs : FileSystem) (path directory : String) : Listing :=
  match _listed : fs.list path with
  | .error cause => { notes := [unlisted path cause] }
  | .ok names =>
    .join <| names.attach.map fun ⟨name, _inside⟩ =>
      let inner := Path.join path name
      if fs.isDirectory inner then collect fs inner (nameIn directory name)
      else if fs.isFile inner then { names := [nameIn directory name] }
      else {}
termination_by FileSystem.pathLimit - path.utf8ByteSize
decreasing_by
  -- a path grows with each name, and one that is too long is not listed
  obtain ⟨l, found, rfl⟩ := FileSystem.list_eq_ok_iff.mp _listed
  have short := FileSystem.size_lt_of_directory found
  have longer := Path.size_lt_join path (FileSystem.isName_of_mem_namesIn _inside)
  omega

/-- What one name in a directory adds to a listing. -/
def collectName (fs : FileSystem) (path directory name : String) : Listing :=
  let inner := Path.join path name
  if fs.isDirectory inner then collect fs inner (nameIn directory name)
  else if fs.isFile inner then { names := [nameIn directory name] }
  else {}

theorem collect_of_ok {fs : FileSystem} {path directory : String} {names : List String}
    (h : fs.list path = .ok names) :
    collect fs path directory = .join (names.map (collectName fs path directory)) := by
  rw [collect]
  split
  · simp_all
  · rename_i names' listed
    obtain rfl := Except.ok.inj (h.symm.trans listed)
    exact congrArg Listing.join (List.attach_map_val (f := collectName fs path directory))

/-- The resources as a source; there are none if the root cannot be listed. -/
def source (d : Directory) (fs : FileSystem) : Source :=
  let listing := collect fs d.root ""
  { owner := d.owner
    names := listing.names.mergeSort fun a b => !decide (b < a)
    notes := listing.notes
    openStream := fun name => fs.openFile (d.pathOf name) }

end Directory

end ModelLoading.Resource
