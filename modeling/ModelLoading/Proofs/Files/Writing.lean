import ModelLoading.Files.Script
import ModelLoading.Proofs.Decode.RoundTrip

/-!
# Writing files

A path that can be written leads through directories to the place of a file (`Leads`). Writing there
changes that one place (`Replaced`), and since no directory is lost or made, every path leads to the same
place before and after. So what was written is what is read under the same path, and a second write can be
judged by the files before the first one.
-/

namespace ModelLoading.Files

namespace FileSystem

variable {fs fs' : FileSystem} {path : String} {content : Bytes} {place : Location}

/-! ## 1. One place -/

theorem node?_of_ne_nil {l : Location} (inner : l ≠ []) :
    fs.node? l = (fs.entries.find? (·.1 = l)).map (·.2) := by
  rw [node?, if_neg (by simpa using inner)]

theorem find?_replaced (entries : List (Location × Node)) (place l : Location) (n : Node) :
    (entries.map fun e => if e.1 = place then (place, n) else e).find? (·.1 = l) =
      if l = place then (entries.find? (·.1 = l)).map fun _ => (place, n)
      else entries.find? (·.1 = l) := by
  induction entries with
  | nil => simp
  | cons e entries ih =>
    by_cases here : e.1 = place <;> by_cases same : l = place <;> by_cases found : e.1 = l <;>
      simp_all

/-- Putting something at a location changes what is there and nothing else. -/
theorem node?_put (inner : place ≠ []) (n : Node) (l : Location) :
    (fs.put place n).node? l = if l = place then some n else fs.node? l := by
  by_cases root : l = []
  · have other : l ≠ place := fun same => inner (same ▸ root)
    rw [if_neg other, root]
    rfl
  rw [node?_of_ne_nil root, node?_of_ne_nil root, put]
  split
  · rename_i taken
    rw [find?_replaced]
    split
    · rename_i same
      obtain ⟨e, inside, here⟩ := List.any_eq_true.mp taken
      have found : (fs.entries.find? (·.1 = l)).isSome := by
        rw [List.find?_isSome]
        exact ⟨e, inside, by simpa [same] using here⟩
      obtain ⟨e', found⟩ := Option.isSome_iff_exists.mp found
      simp [found]
    · rfl
  · rename_i free
    rw [List.find?_append]
    have absent : fs.entries.find? (·.1 = place) = none := by
      rw [List.find?_eq_none]
      intro e inside here
      exact free (List.any_eq_true.mpr ⟨e, inside, here⟩)
    by_cases same : l = place
    · subst same
      simp [absent]
    · have other : ¬place = l := fun eq => same eq.symm
      simp [same, other]

/-- The second file system is the first with a file of some content at a place. -/
structure Replaced (fs : FileSystem) (place : Location) (content : Bytes) (fs' : FileSystem) : Prop where
  file : fs'.node? place = some (.file content)
  others : ∀ l, l ≠ place → fs'.node? l = fs.node? l
  working : fs'.working = fs.working

theorem replaced_put (inner : place ≠ []) : Replaced fs place content (fs.put place (.file content)) := by
  refine ⟨?_, fun l other => ?_, ?_⟩
  · rw [node?_put inner, if_pos rfl]
  · rw [node?_put inner, if_neg other]
  · unfold put
    split <;> rfl

/-! ## 2. Following paths -/

theorem follow_append (l : Location) (parts rest : List String) :
    fs.follow l (parts ++ rest) = (fs.follow l parts).bind fun k => fs.follow k rest := by
  fun_induction fs.follow l parts with
  | case1 l => rfl
  | case2 l part parts dir idle ih =>
    rw [List.cons_append, follow, dir]
    simp only [if_pos idle, ih]
  | case3 l parts dir idle ih =>
    rw [List.cons_append, follow, dir]
    simp only [if_neg idle, if_true, ih]
  | case4 l part parts dir idle up long =>
    rw [List.cons_append, follow, dir]
    simp only [if_neg idle, if_neg up, if_pos long]
    rfl
  | case5 l part parts dir idle up long n found ih =>
    rw [List.cons_append, follow, dir]
    simp only [if_neg idle, if_neg up, if_neg long, found, ih]
  | case6 l part parts dir idle up long missing =>
    rw [List.cons_append, follow, dir]
    simp only [if_neg idle, if_neg up, if_neg long, missing]
    rfl
  | case7 l part parts c file =>
    rw [List.cons_append, follow, file]
    rfl
  | case8 l part parts missing =>
    rw [List.cons_append, follow, missing]
    rfl

/-- A path that leads to a directory starts at one. -/
theorem directory_of_follow {l k : Location} {parts : List String} (follows : fs.follow l parts = .ok k)
    (directory : fs.node? k = some .directory) : fs.node? l = some .directory := by
  cases parts with
  | nil =>
    obtain rfl := Except.ok.inj follows
    exact directory
  | cons part parts =>
    unfold follow at follows
    split at follows
    · assumption
    · cases follows
    · cases follows

/-- The way to a directory is the same where nothing but a place of no directory differs. -/
theorem follow_of_others (others : ∀ l, l ≠ place → fs'.node? l = fs.node? l)
    (file : fs.node? place ≠ some .directory) {l k : Location} {parts : List String}
    (follows : fs.follow l parts = .ok k) (directory : fs.node? k = some .directory) :
    fs'.follow l parts = .ok k := by
  have same : ∀ l, fs.node? l = some .directory → fs'.node? l = some .directory := by
    intro l dir
    rw [others l fun eq => file (eq ▸ dir), dir]
  fun_induction fs.follow l parts with
  | case1 l => exact follows
  | case2 l part parts dir idle ih =>
    simp only [follow, same l dir, if_pos idle]
    exact ih follows
  | case3 l parts dir idle ih =>
    simp only [follow, same l dir, if_neg idle, if_true]
    exact ih follows
  | case4 => cases follows
  | case5 l part parts dir idle up long n found ih =>
    have next := same _ (directory_of_follow follows directory)
    simp only [follow, same l dir, if_neg idle, if_neg up, if_neg long, next]
    exact ih follows
  | case6 => cases follows
  | case7 => cases follows
  | case8 => cases follows

/-! ## 3. Paths of files -/

/-- A path leads through directories to the place of a file, where there may be nothing yet. -/
inductive Leads (fs : FileSystem) (path : String) : Location → Prop
  | intro {before : List String} {name : String} {l : Location} (sound : pathFault? path = none)
      (parts : Path.parts path = before ++ [name]) (plain : name ≠ "" ∧ name ≠ "." ∧ name ≠ "..")
      (short : name.utf8ByteSize ≤ nameLimit) (follows : fs.follow (fs.origin path) before = .ok l)
      (directory : fs.node? l = some .directory)
      (free : fs.node? (l ++ [name]) ≠ some .directory) : Leads fs path (l ++ [name])

theorem Leads.ne_nil (leads : Leads fs path place) : place ≠ [] := by
  cases leads
  simp

theorem Leads.not_directory (leads : Leads fs path place) : fs.node? place ≠ some .directory := by
  cases leads
  assumption

/-- Parts of which none is blank at the end, and which end with a name. -/
theorem eq_of_named {parts : List String} {name : String}
    (last : (parts.reverse.dropWhile (·.isEmpty)).reverse.getLast? = some name)
    (whole : ¬(parts.reverse.dropWhile (·.isEmpty)).reverse.length < parts.length) :
    parts = parts.dropLast ++ [name] ∧ name ≠ "" := by
  have suffix : parts.reverse.dropWhile (·.isEmpty) <:+ parts.reverse := List.dropWhile_suffix _
  have all : parts.reverse.dropWhile (·.isEmpty) = parts.reverse := by
    refine suffix.eq_of_length_le ?_
    simpa using whole
  constructor
  · rw [all, List.reverse_reverse] at last
    obtain ⟨before, rfl⟩ := List.getLast?_eq_some_iff.mp last
    rw [List.dropLast_concat]
  · rintro rfl
    have blank := List.head?_dropWhile_not (fun s : String => s.isEmpty) parts.reverse
    rw [List.getLast?_reverse] at last
    rw [last] at blank
    simp at blank

/-- Where a path leads whose last part is a name. -/
theorem target_of_named {before : List String} {name : String} (sound : pathFault? path = none)
    (parts : Path.parts path = before ++ [name]) (blank : name ≠ "") :
    fs.target path = (fs.follow (fs.origin path) before).bind fun l =>
      match fs.node? l with
      | some .directory =>
        if name = "." ∨ name = ".." then .error .isDirectory
        else if name.utf8ByteSize > nameLimit then .error .nameTooLong
        else
          match fs.node? (l ++ [name]) with
          | some .directory => .error .isDirectory
          | _ => .ok (l ++ [name])
      | some (.file _) => .error .notDirectory
      | none => .error .notFound := by
  have named : ((before ++ [name]).reverse.dropWhile (·.isEmpty)).reverse = before ++ [name] := by
    simp [blank]
  have last : (before ++ [name]).getLast? = some name := List.getLast?_concat
  unfold target
  rw [sound]
  dsimp only
  rw [parts, named, last, List.dropLast_concat]
  dsimp only
  cases fs.follow (fs.origin path) before with
  | error e => rfl
  | ok l =>
    change (match fs.node? l with
      | some .directory => _
      | some (.file _) => _
      | none => _) = (match fs.node? l with
      | some .directory => _
      | some (.file _) => _
      | none => _)
    simp only [Nat.lt_irrefl, false_or]
    rfl

/-- A path that can be written ends with a name. -/
theorem exists_name (writable : fs.target path = .ok place) : ∃ before name,
    pathFault? path = none ∧ Path.parts path = before ++ [name] ∧ name ≠ "" := by
  unfold target at writable
  split at writable
  · cases writable
  rename_i sound
  dsimp only at writable
  split at writable
  · cases writable
  rename_i name last
  by_cases whole : ((Path.parts path).reverse.dropWhile (·.isEmpty)).reverse.length <
      (Path.parts path).length
  · cases follows : fs.follow (fs.origin path)
        ((Path.parts path).reverse.dropWhile (·.isEmpty)).reverse.dropLast with
    | error e =>
      rw [follows] at writable
      cases writable
    | ok l =>
      rw [follows] at writable
      change (match fs.node? l with
        | some .directory => _
        | some (.file _) => _
        | none => _) = _ at writable
      simp only [whole, true_or, if_true] at writable
      split at writable <;> cases writable
  · obtain ⟨ends, blank⟩ := eq_of_named last whole
    exact ⟨_, name, sound, ends, blank⟩

theorem target_eq_ok_iff : fs.target path = .ok place ↔ Leads fs path place := by
  constructor
  · intro writable
    obtain ⟨before, name, sound, parts, blank⟩ := exists_name writable
    rw [target_of_named sound parts blank] at writable
    cases follows : fs.follow (fs.origin path) before with
    | error e =>
      rw [follows] at writable
      cases writable
    | ok l =>
      rw [follows, Except.bind] at writable
      split at writable
      · rename_i directory
        split at writable
        · cases writable
        rename_i plain
        split at writable
        · cases writable
        rename_i short
        split at writable
        · cases writable
        rename_i free
        obtain rfl := Except.ok.inj writable
        exact .intro sound parts ⟨blank, not_or.mp plain⟩ (Nat.le_of_not_gt short) follows directory
          free
      · cases writable
      · cases writable
  · rintro ⟨sound, parts, plain, short, follows, directory, free⟩
    rename_i before name l
    have named : ¬(name = "." ∨ name = "..") := not_or.mpr plain.2
    rw [target_of_named sound parts plain.1, follows, Except.bind, directory]
    simp only [if_neg named, if_neg (Nat.not_lt.mpr short)]

/-! ## 4. Writing and reading -/

theorem write_eq_ok_iff : fs.write path content = .ok fs' ↔
    ∃ place, fs.target path = .ok place ∧ fs' = fs.put place (.file content) := by
  unfold write
  cases fs.target path with
  | error e =>
    constructor
    · intro written
      cases written
    · rintro ⟨place, found, -⟩
      cases found
  | ok place =>
    constructor
    · intro written
      exact ⟨place, rfl, (Except.ok.inj written).symm⟩
    · rintro ⟨place', found, rfl⟩
      obtain rfl := Except.ok.inj found
      rfl

theorem write_eq_error_iff {e : IoError} :
    fs.write path content = .error e ↔ fs.target path = .error e := by
  unfold write
  cases fs.target path with
  | error e' => constructor <;> intro refused <;> cases refused <;> rfl
  | ok place => constructor <;> intro refused <;> cases refused

theorem replaced_of_write (written : fs.write path content = .ok fs') :
    ∃ place, fs.target path = .ok place ∧ Replaced fs place content fs' := by
  obtain ⟨place, found, rfl⟩ := write_eq_ok_iff.mp written
  exact ⟨place, found, replaced_put (target_eq_ok_iff.mp found).ne_nil⟩

theorem origin_eq (working : fs'.working = fs.working) (path : String) :
    fs'.origin path = fs.origin path := by
  rw [origin, origin, working]

/-- A place of no directory that becomes a file, or any other content of it, closes and opens no way. -/
theorem Leads.of_others (leads : Leads fs path place) {changed : Location}
    (others : ∀ l, l ≠ changed → fs'.node? l = fs.node? l) (working : fs'.working = fs.working)
    (file : fs.node? changed ≠ some .directory) (file' : fs'.node? changed ≠ some .directory) :
    Leads fs' path place := by
  cases leads with
  | @intro before name l sound parts plain short follows directory free =>
    refine .intro sound parts plain short ?_ ?_ ?_
    · rw [origin_eq working]
      exact follow_of_others others file follows directory
    · rw [others l fun same => file (same ▸ directory), directory]
    · by_cases here : l ++ [name] = changed
      · rw [here]
        exact file'
      · rw [others _ here]
        exact free

/-- After a file was written, paths lead to the same places. -/
theorem Replaced.target_eq_ok_iff (replaced : Replaced fs place content fs')
    (free : fs.node? place ≠ some .directory) {other : String} {l : Location} :
    fs'.target other = .ok l ↔ fs.target other = .ok l := by
  have file : fs'.node? place ≠ some .directory := by
    rw [replaced.file]
    intro same
    cases same
  rw [FileSystem.target_eq_ok_iff, FileSystem.target_eq_ok_iff]
  constructor
  · intro leads
    exact leads.of_others (fun l other => (replaced.others l other).symm) replaced.working.symm file free
  · intro leads
    exact leads.of_others replaced.others replaced.working free file

/-- Where a path leads to a file, the content of the file is what is read. -/
theorem read_of_target (writable : fs.target path = .ok place)
    (file : fs.node? place = some (.file content)) : fs.read path = .ok content := by
  cases target_eq_ok_iff.mp writable with
  | @intro before name l sound parts plain short follows directory free =>
    have idle : ¬Path.isIdle name := by simp [Path.isIdle, plain]
    have resolved : fs.resolve path = .ok (l ++ [name]) := by
      rw [resolve, sound]
      dsimp only
      rw [parts, follow_append, follows, Except.bind, follow, directory]
      simp only [if_neg idle, if_neg plain.2.2, if_neg (Nat.not_lt.mpr short), file, follow]
    have opened : fs.openFile path = .ok (.ok content) := by
      simp only [openFile, resolved, bind, Except.bind, file]
      rfl
    rw [read, opened]
    rfl

/-- Where a path leads to the file of a text, the text is what is read. -/
theorem readText_of_target {text : String} (writable : fs.target path = .ok place)
    (file : fs.node? place = some (.file (Bytes.ofText text))) : fs.readText path = .ok text := by
  simp only [FileSystem.readText, read_of_target writable file, bind, Except.bind, Bytes.text?_ofText]
  rfl

end FileSystem

/-! ## 5. Scripts -/

namespace Script

variable {α β : Type}

theorem run_andThen (s : Script α) (f : α → Script β) (fs : FileSystem) :
    (s.andThen f).run fs =
      { (f (s.run fs).value).run (s.run fs).files with
        log := (s.run fs).log ++ ((f (s.run fs).value).run (s.run fs).files).log } := by
  induction s generalizing fs with
  | done value => rfl
  | readText path next ih => exact ih _ fs
  | write path content next ih =>
    simp only [andThen, run]
    cases fs.write path (Bytes.ofText content) with
    | ok changed => exact ih _ changed
    | error e => exact ih _ fs
  | log record next ih =>
    simp only [andThen, run, ih]
    rfl

@[simp] theorem run_bind_value (s : Script α) (f : α → Script β) (fs : FileSystem) :
    ((s >>= f).run fs).value = ((f (s.run fs).value).run (s.run fs).files).value := by
  change ((s.andThen f).run fs).value = _
  rw [run_andThen]

@[simp] theorem run_bind_files (s : Script α) (f : α → Script β) (fs : FileSystem) :
    ((s >>= f).run fs).files = ((f (s.run fs).value).run (s.run fs).files).files := by
  change ((s.andThen f).run fs).files = _
  rw [run_andThen]

end Script

end ModelLoading.Files
