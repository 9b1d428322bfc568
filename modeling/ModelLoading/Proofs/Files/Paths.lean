import Mathlib.Data.List.Induction
import Mathlib.Data.List.Nodup
import ModelLoading.Proofs.Files.Writing

/-!
# Paths that continue by a name

A path is cut at its slashes. So a path that is continued by a name has the name behind its parts
(`Path.parts_join`), and leads from where the path led to what has the name there (`resolve_join`).

`Sound` says that the entries of a file system form a tree: every location has one entry, in a directory, and
the names can be written in paths. In such a file system a directory is listed exactly (`mem_namesIn_iff`).
-/

namespace ModelLoading

/-- A text is cut at each place of a character, whatever stands around it. -/
theorem Text.pieces_append_cons (c : Char) (a b : List Char) :
    pieces [c] (a ++ c :: b) = pieces [c] a ++ pieces [c] b := by
  have cut : ∀ piece, splitFrom [c] piece 0 (a ++ c :: b) =
      splitFrom [c] piece 0 a ++ splitFrom [c] [] 0 b := by
    induction a with
    | nil =>
      intro piece
      simp [splitFrom]
    | cons d a ih =>
      intro piece
      rw [List.cons_append, splitFrom, splitFrom]
      by_cases here : c = d
      · subst here
        simpa using ih []
      · simpa [here] using ih (d :: piece)
  exact cut []

theorem Text.pieces_of_not_mem {c : Char} {a : List Char} (absent : c ∉ a) : pieces [c] a = [a] := by
  have whole : ∀ piece, splitFrom [c] piece 0 a = [piece.reverse ++ a] := by
    induction a with
    | nil =>
      intro piece
      simp [splitFrom]
    | cons d a ih =>
      intro piece
      rw [List.mem_cons, not_or] at absent
      rw [splitFrom, if_neg (by simp [absent.1]), ih absent.2]
      simp
  exact whole []

namespace Files

/-! ## 1. Names and parts -/

namespace Path

variable {path name : String}

theorem parts_append_slash (a b : String) : parts (a ++ "/" ++ b) = parts a ++ parts b := by
  have split : (a ++ "/" ++ b).toList = a.toList ++ '/' :: b.toList := by simp
  rw [parts, split, Text.pieces_append_cons, List.map_append]
  rfl

theorem parts_of_name (named : isName name = true) : parts name = [name] := by
  rw [parts, Text.pieces_of_not_mem (isName_iff.mp named).2.1, List.map_singleton, String.ofList_toList]

/-- A path that is continued by a name has that name behind its parts, but for a blank one at the end. -/
theorem parts_join (filled : path ≠ "") (named : isName name = true) :
    ∃ before, parts (join path name) = before ++ [name] ∧
      (parts path = before ∨ parts path = before ++ [""]) := by
  unfold join
  rw [if_neg (not_isAbsolute_of_name named)]
  split
  · rename_i ends
    have slash : path.toList.getLast? = some '/' := ends.resolve_left (by simpa using filled)
    obtain ⟨front, split⟩ := List.getLast?_eq_some_iff.mp slash
    obtain rfl : path = String.ofList front ++ "/" := by
      rw [← String.toList_inj, split]
      simp
    refine ⟨parts (String.ofList front), ?_, .inr ?_⟩
    · rw [parts_append_slash, parts_of_name named]
    · have blank := parts_append_slash (String.ofList front) ""
      rw [String.append_empty] at blank
      rw [blank]
      rfl
  · exact ⟨parts path, by rw [parts_append_slash, parts_of_name named], .inl rfl⟩

theorem toList_join (path : String) (named : isName name = true) : ∃ middle, (join path name).toList =
    path.toList ++ middle ++ name.toList ∧ ∀ c ∈ middle, c = '/' := by
  unfold join
  rw [if_neg (not_isAbsolute_of_name named)]
  split
  · exact ⟨[], by simp, by simp⟩
  · exact ⟨['/'], by simp, by simp⟩

end Path

namespace FileSystem

variable {fs : FileSystem} {path name : String} {l k p : Location} {n : Node} {content : Bytes}

/-! ## 2. Following a name -/

/-- A path that can be followed is not blank and short, and has no zero. -/
theorem pathFault?_eq_none_iff : pathFault? path = none ↔
    '\x00' ∉ path.toList ∧ path ≠ "" ∧ path.utf8ByteSize < pathLimit := by
  unfold pathFault?
  split
  · rename_i zero
    simp [show '\x00' ∈ path.toList by simpa using zero]
  · rename_i zero
    have zero : '\x00' ∉ path.toList := by simpa using zero
    split
    · rename_i blank
      simp [show path = "" by simpa using blank]
    · rename_i blank
      have blank : path ≠ "" := by simpa using blank
      split
      · rename_i long
        simp [Nat.not_lt.mpr long]
      · rename_i short
        simp [zero, blank, Nat.lt_of_not_le short]

theorem directory_eq_ok_iff :
    fs.directory path = .ok l ↔ fs.resolve path = .ok l ∧ fs.node? l = some .directory := by
  unfold directory
  cases fs.resolve path with
  | error e => simp [bind, Except.bind]
  | ok k =>
    simp only [bind, Except.bind]
    constructor
    · intro found
      split at found
      · rename_i dir
        obtain rfl := Except.ok.inj found
        exact ⟨rfl, dir⟩
      · cases found
      · cases found
    · rintro ⟨same, dir⟩
      obtain rfl := Except.ok.inj same
      rw [dir]
      rfl

theorem isDirectory_iff : fs.isDirectory path = true ↔ ∃ l, fs.directory path = .ok l := by
  unfold isDirectory
  cases fs.directory path <;> simp [Except.isOk, Except.toBool]

theorem isFile_iff : fs.isFile path = true ↔ ∃ content, fs.openFile path = .ok (.ok content) := by
  unfold isFile
  split
  · rename_i content opened
    simp [opened]
  · rename_i other
    simpa using other

theorem openFile_eq_ok_iff : fs.openFile path = .ok (.ok content) ↔
    ∃ l, fs.resolve path = .ok l ∧ fs.node? l = some (.file content) := by
  unfold openFile
  cases fs.resolve path with
  | error e => simp [bind, Except.bind]
  | ok k =>
    simp only [bind, Except.bind]
    constructor
    · intro found
      split at found
      · rename_i file
        obtain rfl := Except.ok.inj (Except.ok.inj found)
        exact ⟨k, rfl, file⟩
      · cases Except.ok.inj found
      · cases found
    · rintro ⟨l, same, file⟩
      obtain rfl := Except.ok.inj same
      rw [file]
      rfl

theorem follow_blank (dir : fs.node? l = some .directory) : fs.follow l [""] = .ok l := by
  simp [follow, dir, Path.isIdle]

/-- From a directory a name leads to what has it. -/
theorem follow_name (dir : fs.node? l = some .directory) (named : Path.isName name = true)
    (short : name.utf8ByteSize ≤ nameLimit) :
    fs.follow l [name] = if (fs.node? (l ++ [name])).isSome then .ok (l ++ [name]) else .error .notFound := by
  obtain ⟨plain, -⟩ := Path.isName_iff.mp named
  have idle : ¬Path.isIdle name := by simp [Path.isIdle, plain]
  rw [follow, dir]
  simp only [if_neg idle, if_neg plain.2.2, if_neg (Nat.not_lt.mpr short), follow]
  cases fs.node? (l ++ [name]) <;> rfl

section Joined

variable (found : fs.directory path = .ok l) (named : Path.isName name = true)

include found named

/-- A path continued by a name can be followed if it is not too long. -/
theorem pathFault?_join : pathFault? (Path.join path name) = none ↔
    (Path.join path name).utf8ByteSize < pathLimit := by
  have sound : pathFault? path = none := by
    obtain ⟨resolved, -⟩ := directory_eq_ok_iff.mp found
    unfold resolve at resolved
    split at resolved
    · cases resolved
    · assumption
  obtain ⟨zero, some, -⟩ := pathFault?_eq_none_iff.mp sound
  obtain ⟨-, -, zero'⟩ := Path.isName_iff.mp named
  obtain ⟨middle, spelled, slashes⟩ := Path.toList_join path named
  rw [pathFault?_eq_none_iff]
  refine ⟨fun h => h.2.2, fun short => ⟨?_, ?_, short⟩⟩
  · rw [spelled, List.mem_append, List.mem_append, not_or, not_or]
    exact ⟨⟨zero, fun inside => absurd (slashes _ inside) (by decide)⟩, zero'⟩
  · intro blank
    rw [blank] at spelled
    simp [some] at spelled

/-- A path continued by a name leads from where the path led. -/
theorem resolve_join (short : (Path.join path name).utf8ByteSize < pathLimit) :
    fs.resolve (Path.join path name) = fs.follow l [name] := by
  obtain ⟨resolved, dir⟩ := directory_eq_ok_iff.mp found
  have fault := (pathFault?_join found named).mpr short
  unfold resolve at resolved
  split at resolved
  · cases resolved
  rename_i sound
  obtain ⟨-, some, -⟩ := pathFault?_eq_none_iff.mp sound
  have start : fs.origin (Path.join path name) = fs.origin path := by
    have first : (Path.join path name).toList.head? = path.toList.head? := by
      obtain ⟨middle, spelled, -⟩ := Path.toList_join path named
      obtain ⟨c, rest, split⟩ := List.exists_cons_of_ne_nil (l := path.toList) (by simpa using some)
      rw [spelled, split]
      rfl
    rw [origin, origin, Path.isAbsolute, Path.isAbsolute, first]
  obtain ⟨before, parts, whole | ended⟩ := Path.parts_join some named
  · rw [resolve, fault]
    dsimp only
    rw [start, parts, follow_append, ← whole, resolved]
    rfl
  · -- a slash at the end of the path leads nowhere else
    rw [ended, follow_append] at resolved
    cases follows : fs.follow (fs.origin path) before with
    | error e =>
      rw [follows] at resolved
      cases resolved
    | ok k =>
      rw [follows, Except.bind] at resolved
      have last : fs.node? k = Option.some .directory := directory_of_follow resolved dir
      rw [follow_blank last] at resolved
      obtain rfl := Except.ok.inj resolved
      rw [resolve, fault]
      dsimp only
      rw [start, parts, follow_append, follows]
      rfl

theorem resolve_join_eq_ok_iff (small : name.utf8ByteSize ≤ nameLimit) :
    fs.resolve (Path.join path name) = .ok k ↔ k = l ++ [name] ∧ (fs.node? (l ++ [name])).isSome ∧
      (Path.join path name).utf8ByteSize < pathLimit := by
  by_cases short : (Path.join path name).utf8ByteSize < pathLimit
  · rw [resolve_join found named short, follow_name (directory_eq_ok_iff.mp found).2 named small]
    split
    · rename_i there
      simp [there, short, eq_comm]
    · rename_i absent
      simp [absent]
  · have fault : pathFault? (Path.join path name) ≠ none :=
      fun none => short ((pathFault?_join found named).mp none)
    obtain ⟨e, fault⟩ := Option.ne_none_iff_exists'.mp fault
    simp [resolve, fault, short]

theorem directory_join_iff (small : name.utf8ByteSize ≤ nameLimit) :
    fs.directory (Path.join path name) = .ok k ↔ k = l ++ [name] ∧
      fs.node? (l ++ [name]) = some .directory ∧ (Path.join path name).utf8ByteSize < pathLimit := by
  rw [directory_eq_ok_iff, resolve_join_eq_ok_iff found named small]
  constructor
  · rintro ⟨⟨rfl, -, short⟩, dir⟩
    exact ⟨rfl, dir, short⟩
  · rintro ⟨rfl, dir, short⟩
    exact ⟨⟨rfl, by simp [dir], short⟩, dir⟩

theorem openFile_join_iff (small : name.utf8ByteSize ≤ nameLimit) :
    fs.openFile (Path.join path name) = .ok (.ok content) ↔
      fs.node? (l ++ [name]) = some (.file content) ∧ (Path.join path name).utf8ByteSize < pathLimit := by
  rw [openFile_eq_ok_iff]
  simp only [resolve_join_eq_ok_iff found named small]
  constructor
  · rintro ⟨_, ⟨rfl, -, short⟩, file⟩
    exact ⟨file, short⟩
  · rintro ⟨file, short⟩
    exact ⟨_, ⟨rfl, by simp [file], short⟩, file⟩

end Joined

/-! ## 3. Trees -/

/-- The entries of a file system form a tree of directories and files. -/
structure Sound (fs : FileSystem) : Prop where
  /-- A location has one entry. -/
  distinct : (fs.entries.map (·.1)).Nodup
  /-- The root has none. -/
  inner : ∀ e ∈ fs.entries, e.1 ≠ []
  /-- What has an entry stands in a directory. -/
  within : ∀ e ∈ fs.entries, fs.node? e.1.dropLast = some .directory
  /-- The names can be written in paths. -/
  named : ∀ e ∈ fs.entries, ∀ name ∈ e.1, Path.isName name = true ∧ name.utf8ByteSize ≤ nameLimit

namespace Sound

variable (sound : fs.Sound)

include sound

theorem node?_eq_some_iff (inner : l ≠ []) : fs.node? l = some n ↔ (l, n) ∈ fs.entries := by
  rw [node?_of_ne_nil inner, Option.map_eq_some_iff]
  constructor
  · rintro ⟨⟨place, n⟩, here, rfl⟩
    obtain rfl : place = l := by simpa using List.find?_some here
    exact List.mem_of_find?_eq_some here
  · intro inside
    have first : (fs.entries.find? (·.1 = l)).isSome := List.find?_isSome.mpr ⟨_, inside, by simp⟩
    obtain ⟨⟨place, n'⟩, found⟩ := Option.isSome_iff_exists.mp first
    obtain rfl : place = l := by simpa using List.find?_some found
    have same := List.inj_on_of_nodup_map sound.distinct (List.mem_of_find?_eq_some found) inside rfl
    exact ⟨_, found, congrArg Prod.snd same⟩

/-- The names on the way to something can be written in paths. -/
theorem name_of_node? (there : fs.node? l = some n) :
    ∀ name ∈ l, Path.isName name = true ∧ name.utf8ByteSize ≤ nameLimit := by
  intro name inside
  have entry := (sound.node?_eq_some_iff (List.ne_nil_of_mem inside)).mp there
  exact sound.named _ entry name inside

/-- On the way to something there are directories. -/
theorem directory_of_node? (further : p ≠ []) (there : fs.node? (l ++ p) = some n) :
    fs.node? l = some .directory := by
  induction p using List.reverseRecOn generalizing n with
  | nil => exact absurd rfl further
  | append_singleton p name ih =>
    rw [← List.append_assoc] at there
    have entry := (sound.node?_eq_some_iff (by simp)).mp there
    have parent := sound.within _ entry
    rw [List.dropLast_concat] at parent
    cases p with
    | nil => simpa using parent
    | cons first p => exact ih (by simp) parent

/-- A directory is listed exactly. -/
theorem mem_namesIn_iff : name ∈ fs.namesIn l ↔ ∃ n, fs.node? (l ++ [name]) = some n := by
  have entry : ∀ n, fs.node? (l ++ [name]) = some n ↔ (l ++ [name], n) ∈ fs.entries :=
    fun n => sound.node?_eq_some_iff (by simp)
  simp only [entry]
  constructor
  · intro listed
    obtain ⟨⟨place, n⟩, inside, found⟩ := List.mem_filterMap.mp listed
    simp only [Option.filter_eq_some_iff, decide_eq_true_eq] at found
    obtain ⟨last, rfl, -⟩ := found
    refine ⟨n, ?_⟩
    obtain ⟨front, rfl⟩ := List.getLast?_eq_some_iff.mp last
    rwa [List.dropLast_concat]
  · rintro ⟨n, inside⟩
    refine List.mem_filterMap.mpr ⟨_, inside, ?_⟩
    have named := (sound.named _ inside name (by simp)).1
    simp [named]

theorem nodup_namesIn (l : Location) : (fs.namesIn l).Nodup := by
  have places : fs.namesIn l = (fs.entries.map (·.1)).filterMap fun place =>
      place.getLast?.filter fun name => place.dropLast = l ∧ Path.isName name := by
    rw [List.filterMap_map]
    rfl
  rw [places]
  refine sound.distinct.filterMap fun place place' name found found' => ?_
  have whole : ∀ {place : Location},
      name ∈ (place.getLast?.filter fun name => place.dropLast = l ∧ Path.isName name) →
        place = l ++ [name] := by
    intro place found
    simp only [Option.mem_def, Option.filter_eq_some_iff, decide_eq_true_eq] at found
    obtain ⟨last, rfl, -⟩ := found
    obtain ⟨front, rfl⟩ := List.getLast?_eq_some_iff.mp last
    rw [List.dropLast_concat]
  rw [whole found, whole found']

end Sound

end FileSystem

end Files

end ModelLoading
