import Mathlib.Data.List.Flatten
import Mathlib.Data.String.Basic
import ModelLoading.Proofs.Files.Paths
import ModelLoading.Resource.Directory

/-!
# Resources in a directory

A listing walks down from the root and puts names together on its way (`Directory.collect`); opening takes
them apart again (`Directory.pathOf`). The walk visits a file under the names that lead to it, so what it
collects is told by what the file system has at these names (`mem_collect_iff`), and files at different places
get different names (`Directory.nameAt_inj`). Sorting then gives a strict order, whatever order the entries
have.

Only files whose path is short enough can be seen or opened at all. The walk and the opening agree on it,
since both put the same path together.
-/

namespace ModelLoading.Resource.Directory

open Files

variable {fs : FileSystem} {path directory name : String} {l p q : Location} {content : Bytes}

/-! ## 1. Names and paths -/

/-- The name of what is at a place below a directory, behind a name for that directory. -/
def nameAt (directory : String) (p : Location) : String := p.foldl nameIn directory

/-- The path of what is at a place below the directory of a path. -/
def pathAt (path : String) (p : Location) : String := p.foldl Path.join path

/-- Names that can be written in paths. -/
def Written (p : Location) : Prop := ∀ name ∈ p, Path.isName name = true

theorem nameIn_ne_empty (named : Path.isName name = true) : nameIn directory name ≠ "" := by
  have filled := (Path.isName_iff.mp named).1.1
  unfold nameIn
  split
  · exact filled
  · simp [filled]

/-- The parts of a name are the parts of what is in front of it, and the place. -/
theorem parts_nameAt (written : Written p) (filled : directory ≠ "") :
    Path.parts (nameAt directory p) = Path.parts directory ++ p := by
  induction p generalizing directory with
  | nil => simp [nameAt]
  | cons name p ih =>
    obtain ⟨named, others⟩ := List.forall_mem_cons.mp written
    have step : nameIn directory name = directory ++ "/" ++ name := if_neg (by simpa using filled)
    change Path.parts (nameAt (nameIn directory name) p) = _
    rw [ih others (nameIn_ne_empty named), step, Path.parts_append_slash, Path.parts_of_name named,
      List.append_assoc]
    rfl

theorem nameAt_empty_cons (name : String) (p : Location) : nameAt "" (name :: p) = nameAt name p := rfl

/-- The parts of a name below the root are the place. -/
theorem parts_nameAt_empty (written : Written p) (below : p ≠ []) : Path.parts (nameAt "" p) = p := by
  obtain ⟨name, p, rfl⟩ := List.exists_cons_of_ne_nil below
  obtain ⟨named, others⟩ := List.forall_mem_cons.mp written
  rw [nameAt_empty_cons, parts_nameAt others (Path.isName_iff.mp named).1.1, Path.parts_of_name named]
  rfl

theorem nameAt_of_ne_empty (filled : directory ≠ "") :
    nameAt directory p = "/".intercalate (directory :: p) := by
  induction p generalizing directory with
  | nil => simp [nameAt]
  | cons name p ih =>
    have step : nameIn directory name = directory ++ "/" ++ name := if_neg (by simpa using filled)
    change nameAt (nameIn directory name) p = _
    rw [step, ih (by simp)]
    cases p <;> simp [String.intercalate_cons_cons, String.append_assoc]

/-- Names below the root are joined by slashes. -/
theorem nameAt_empty_eq (written : Written p) : nameAt "" p = "/".intercalate p := by
  cases p with
  | nil => rfl
  | cons name p =>
    have filled := (Path.isName_iff.mp (written name (by simp))).1.1
    rw [nameAt_empty_cons, nameAt_of_ne_empty filled]

/-- What is at different places has different names. -/
theorem nameAt_inj (written : Written p) (written' : Written q) (below : p ≠ []) (below' : q ≠ [])
    (same : nameAt directory p = nameAt directory q) : p = q := by
  have parts := congrArg Path.parts same
  by_cases filled : directory = ""
  · subst filled
    rwa [parts_nameAt_empty written below, parts_nameAt_empty written' below'] at parts
  · rw [parts_nameAt written filled, parts_nameAt written' filled] at parts
    exact List.append_cancel_left parts

/-- The path of a resource is put together as on the way down to it. -/
theorem pathOf_nameAt (d : Directory) (written : Written p) (below : p ≠ []) :
    d.pathOf (nameAt "" p) = pathAt d.root p := by
  rw [pathOf, parts_nameAt_empty written below, pathAt]

theorem size_le_pathAt (path : String) (written : Written p) : path.utf8ByteSize ≤ (pathAt path p).utf8ByteSize := by
  induction p generalizing path with
  | nil => exact Nat.le_refl _
  | cons name p ih =>
    obtain ⟨named, others⟩ := List.forall_mem_cons.mp written
    exact Nat.le_of_lt (Nat.lt_of_lt_of_le (Path.size_lt_join path named) (ih _ others))

/-! ## 2. The walk -/

/-- A listing has exactly the files at and below a location, behind its name, whose paths are not too long. -/
structure Lists (fs : FileSystem) (l : Location) (path directory : String) (s : Listing) : Prop where
  mem_iff : ∀ {name : String}, name ∈ s.names ↔ ∃ p content, fs.node? (l ++ p) = some (.file content) ∧
    (pathAt path p).utf8ByteSize < FileSystem.pathLimit ∧ name = nameAt directory p
  nodup : s.names.Nodup
  /-- Every directory can be listed. -/
  quiet : s.notes = []

section Walk

variable (sound : fs.Sound)

include sound

theorem written_of_node? {n : Node} (there : fs.node? (l ++ p) = some n) : Written p :=
  fun name inside => (sound.name_of_node? there name (List.mem_append_right l inside)).1

/-- What is too long to be followed has nothing below it that is not. -/
theorem lists_of_long (long : FileSystem.pathLimit ≤ path.utf8ByteSize) :
    Lists fs l path directory {} where
  mem_iff := by
    refine iff_of_false (by simp) ?_
    rintro ⟨p, content, there, short, -⟩
    have longer := size_le_pathAt path (written_of_node? sound there)
    omega
  nodup := by simp
  quiet := rfl

theorem lists_of_file (file : fs.node? l = some (.file content))
    (short : path.utf8ByteSize < FileSystem.pathLimit) :
    Lists fs l path directory { names := [directory] } where
  mem_iff := by
    intro name
    constructor
    · intro here
      exact ⟨[], content, by simpa using file, short, by simpa [nameAt] using here⟩
    · rintro ⟨p, content', there, -, rfl⟩
      have top : p = [] := by
        by_contra further
        have dir := sound.directory_of_node? further there
        simp [file] at dir
      subst top
      simp [nameAt]
  nodup := by simp
  quiet := rfl

/-- What the names of a directory add is what the directory has. -/
theorem lists_join {f : String → Listing} (dir : fs.node? l = some .directory)
    (each : ∀ name ∈ fs.namesIn l,
      Lists fs (l ++ [name]) (Path.join path name) (nameIn directory name) (f name)) :
    Lists fs l path directory (.join ((fs.namesIn l).map f)) where
  mem_iff := by
    intro name
    simp only [Listing.join, List.mem_flatMap, List.mem_map, exists_exists_and_eq_and]
    constructor
    · rintro ⟨first, listed, inside⟩
      obtain ⟨p, content, there, short, rfl⟩ := (each first listed).mem_iff.mp inside
      exact ⟨first :: p, content, by simpa using there, short, rfl⟩
    · rintro ⟨p, content, there, short, rfl⟩
      cases p with
      | nil => simp [dir] at there
      | cons first p =>
        have split : l ++ first :: p = l ++ [first] ++ p := by simp
        rw [split] at there
        have node : ∃ n, fs.node? (l ++ [first]) = some n := by
          cases p with
          | nil => exact ⟨_, by simpa using there⟩
          | cons second p => exact ⟨_, sound.directory_of_node? (by simp) there⟩
        have listed := sound.mem_namesIn_iff.mpr node
        exact ⟨first, listed, (each first listed).mem_iff.mpr ⟨p, content, there, short, rfl⟩⟩
  nodup := by
    simp only [Listing.join, List.flatMap_map]
    refine List.nodup_flatMap.mpr ⟨fun first listed => (each first listed).nodup, ?_⟩
    refine (sound.nodup_namesIn l).imp_of_mem fun {first second} listed listed' differ => ?_
    intro name inside inside'
    obtain ⟨p, content, there, -, rfl⟩ := (each first listed).mem_iff.mp inside
    obtain ⟨q, content', there', -, same⟩ := (each second listed').mem_iff.mp inside'
    rw [List.append_assoc] at there there'
    have same : first :: p = second :: q := nameAt_inj (written_of_node? sound there)
      (written_of_node? sound there') (by simp) (by simp) same
    exact differ (List.cons.inj same).1
  quiet := by
    simp only [Listing.join, List.flatMap_map]
    exact List.flatMap_eq_nil_iff.mpr fun first listed => (each first listed).quiet

/-- One name adds the directory or the file that has it. -/
theorem lists_collectName (found : fs.directory path = .ok l) (listed : name ∈ fs.namesIn l)
    (ih : ∀ {k : Location}, fs.directory (Path.join path name) = .ok k →
      Lists fs k (Path.join path name) (nameIn directory name)
        (collect fs (Path.join path name) (nameIn directory name))) :
    Lists fs (l ++ [name]) (Path.join path name) (nameIn directory name)
      (collectName fs path directory name) := by
  obtain ⟨n, there⟩ := sound.mem_namesIn_iff.mp listed
  obtain ⟨named, small⟩ := sound.name_of_node? there name (by simp)
  unfold collectName
  dsimp only
  by_cases short : (Path.join path name).utf8ByteSize < FileSystem.pathLimit
  · cases n with
    | directory =>
      have inner := (FileSystem.directory_join_iff found named small).mpr ⟨rfl, there, short⟩
      rw [if_pos (FileSystem.isDirectory_iff.mpr ⟨_, inner⟩)]
      exact ih inner
    | file content =>
      have opened := (FileSystem.openFile_join_iff found named small).mpr ⟨there, short⟩
      have plain : ¬fs.isDirectory (Path.join path name) = true := by
        simp [FileSystem.isDirectory_iff, FileSystem.directory_join_iff found named small, there]
      rw [if_neg plain, if_pos (FileSystem.isFile_iff.mpr ⟨_, opened⟩)]
      exact lists_of_file sound there short
  · have closed : ¬fs.isDirectory (Path.join path name) = true ∧ ¬fs.isFile (Path.join path name) = true := by
      simp [FileSystem.isDirectory_iff, FileSystem.directory_join_iff found named small,
        FileSystem.isFile_iff, FileSystem.openFile_join_iff found named small, short]
    rw [if_neg closed.1, if_neg closed.2]
    exact lists_of_long sound (Nat.le_of_not_lt short)

/-- A walk collects what there is. -/
theorem lists_collect (found : fs.directory path = .ok l) :
    Lists fs l path directory (collect fs path directory) := by
  induction path, directory using collect.induct fs generalizing l with
  | case1 path directory cause failed =>
    have listed := FileSystem.list_eq_ok_iff.mpr ⟨l, found, rfl⟩
    rw [listed] at failed
    cases failed
  | case2 path directory names listed ih =>
    obtain ⟨_, same, rfl⟩ := FileSystem.list_eq_ok_iff.mp listed
    obtain rfl := Except.ok.inj (found.symm.trans same)
    rw [collect_of_ok listed]
    refine lists_join sound (FileSystem.directory_eq_ok_iff.mp found).2 fun name inside => ?_
    refine lists_collectName sound found inside fun {k} inner => ?_
    exact ih name inside inner

/-- What has a short path below a directory can be opened. -/
theorem openFile_pathAt (found : fs.directory path = .ok l)
    (there : fs.node? (l ++ p) = some (.file content))
    (short : (pathAt path p).utf8ByteSize < FileSystem.pathLimit) :
    fs.openFile (pathAt path p) = .ok (.ok content) := by
  induction p generalizing path l with
  | nil =>
    have dir := (FileSystem.directory_eq_ok_iff.mp found).2
    simp [dir] at there
  | cons name p ih =>
    have split : l ++ name :: p = l ++ [name] ++ p := by simp
    obtain ⟨named, small⟩ := sound.name_of_node? there name (by simp)
    change fs.openFile (pathAt (Path.join path name) p) = _
    cases p with
    | nil => exact (FileSystem.openFile_join_iff found named small).mpr ⟨there, short⟩
    | cons next p =>
      rw [split] at there
      have below := size_le_pathAt (Path.join path name) (written_of_node? sound there)
      have inner := (FileSystem.directory_join_iff found named small).mpr
        ⟨rfl, sound.directory_of_node? (by simp) there, Nat.lt_of_le_of_lt below short⟩
      exact ih inner there short

end Walk

/-! ## 3. The source -/

theorem mem_names_source {d : Directory} :
    name ∈ (d.source fs).names ↔ name ∈ (collect fs d.root "").names := List.mem_mergeSort

/-- Sorting names that are all different gives a strict order. -/
theorem pairwise_names_source {d : Directory} (distinct : (collect fs d.root "").names.Nodup) :
    (d.source fs).names.Pairwise (· < ·) := by
  have upto : ∀ {a b : String}, (!decide (b < a)) = true ↔ a ≤ b := by
    intro a b
    rw [Bool.not_eq_true', decide_eq_false_iff_not, not_lt]
  have order : (d.source fs).names.Pairwise fun a b => (!decide (b < a)) = true := by
    refine List.pairwise_mergeSort (fun a b c ab bc => ?_) (fun a b => ?_) _
    · exact upto.mpr ((upto.mp ab).trans (upto.mp bc))
    · rw [Bool.or_eq_true, upto, upto]
      exact le_total a b
  have distinct : (d.source fs).names.Nodup := (List.mergeSort_perm _ _).nodup_iff.mpr distinct
  exact (order.and distinct).imp fun {a b} pair => lt_of_le_of_ne (upto.mp pair.1) pair.2

/-- A directory is listed and opened consistently: the names of its resources are those of the files below the
root, in the order of code points and each once, and each is read from the file it is the name of. -/
theorem names_lead_to_files (d : Directory) (sound : fs.Sound) (root : fs.directory d.root = .ok l) :
    (d.source fs).names.Pairwise (· < ·) ∧ (d.source fs).notes = [] ∧
    (∀ name, name ∈ (d.source fs).names ↔ ∃ p content, fs.node? (l ++ p) = some (.file content) ∧
      name = "/".intercalate p ∧ (d.pathOf name).utf8ByteSize < FileSystem.pathLimit) ∧
    ∀ p content, fs.node? (l ++ p) = some (.file content) →
      "/".intercalate p ∈ (d.source fs).names → (d.source fs).read ("/".intercalate p) =
        if content = [] then .error (.empty ("/".intercalate p)) else .ok content := by
  have lists : Lists fs l d.root "" (collect fs d.root "") := lists_collect sound root
  have dir := (FileSystem.directory_eq_ok_iff.mp root).2
  -- a place below the root is told by its name and found again by it
  have spelled : ∀ {p : Location} {content : Bytes}, fs.node? (l ++ p) = some (.file content) →
      nameAt "" p = "/".intercalate p ∧ d.pathOf ("/".intercalate p) = pathAt d.root p := by
    intro p content there
    have written := written_of_node? sound there
    have below : p ≠ [] := by
      rintro rfl
      simp [dir] at there
    have name := nameAt_empty_eq written
    exact ⟨name, name ▸ pathOf_nameAt d written below⟩
  have listed : ∀ name, name ∈ (d.source fs).names ↔ ∃ p content,
      fs.node? (l ++ p) = some (.file content) ∧ name = "/".intercalate p ∧
        (d.pathOf name).utf8ByteSize < FileSystem.pathLimit := by
    intro name
    rw [mem_names_source, lists.mem_iff]
    constructor
    · rintro ⟨p, content, there, short, rfl⟩
      obtain ⟨name, path⟩ := spelled there
      exact ⟨p, content, there, name, by rwa [name, path]⟩
    · rintro ⟨p, content, there, rfl, short⟩
      obtain ⟨name, path⟩ := spelled there
      exact ⟨p, content, there, by rwa [← path], name.symm⟩
  refine ⟨pairwise_names_source lists.nodup, lists.quiet, listed, fun p content there inside => ?_⟩
  obtain ⟨-, -, -, -, short⟩ := (listed _).mp inside
  obtain ⟨-, path⟩ := spelled there
  rw [path] at short
  have opened : (d.source fs).openStream ("/".intercalate p) = .ok (.ok content) := by
    change fs.openFile (d.pathOf ("/".intercalate p)) = _
    rw [path, openFile_pathAt sound root there short]
  rw [Source.read, opened]
  cases content <;> rfl

/-- In the order of code points a file that has a dot in its name is in front of one in a directory. -/
theorem names_lead_to_files_of_nested :
    let fs : FileSystem := { entries :=
      [(["r"], .directory), (["r", "a"], .directory), (["r", "a", "b"], .file [7]),
        (["r", "a.b"], .file []), (["r", "e"], .directory)] }
    let s := source ⟨"Mod", "r"⟩ fs
    fs.Sound ∧ fs.directory "r" = .ok ["r"] ∧ s.names.Pairwise (· < ·) ∧
      (∀ name, name ∈ s.names ↔ name = "a.b" ∨ name = "a/b") ∧
      s.read "a/b" = .ok [7] ∧ s.read "a.b" = .error (.empty "a.b") := by
  intro fs s
  have sound : fs.Sound :=
    { distinct := by decide, inner := by decide, within := by decide, named := by decide }
  have root : fs.directory "r" = .ok ["r"] := by decide
  obtain ⟨order, -, mem, read⟩ := names_lead_to_files ⟨"Mod", "r"⟩ sound root
  have inner : "a/b" ∈ s.names := (mem "a/b").mpr ⟨["a", "b"], [7], rfl, by decide, by decide⟩
  have dotted : "a.b" ∈ s.names := (mem "a.b").mpr ⟨["a.b"], [], rfl, by decide, by decide⟩
  refine ⟨sound, root, order, fun name => ⟨fun inside => ?_, ?_⟩, ?_, ?_⟩
  · obtain ⟨p, content, there, rfl, -⟩ := (mem name).mp inside
    have entry : (["r"] ++ p, .file content) ∈ fs.entries := (sound.node?_eq_some_iff (by simp)).mp there
    obtain ⟨rfl, -⟩ | ⟨rfl, -⟩ : p = ["a", "b"] ∧ content = [7] ∨ p = ["a.b"] ∧ content = [] := by
      simpa [fs] using entry
    · exact .inr rfl
    · exact .inl rfl
  · rintro (rfl | rfl)
    · exact dotted
    · exact inner
  · exact read ["a", "b"] [7] rfl inner
  · exact read ["a.b"] [] rfl dotted

end ModelLoading.Resource.Directory
