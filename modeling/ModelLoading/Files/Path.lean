import ModelLoading.Text.Split

/-!
# Paths

A path is a text whose parts are separated by slashes. It is absolute when it starts with one.
-/

namespace ModelLoading.Files.Path

/-- The parts of a path between its slashes; there is an empty one before the slash of an absolute
path, after a slash at the end, and between two slashes in a row. -/
def parts (path : String) : List String :=
  (Text.pieces ['/'] path.toList).map .ofList

/-- Whether a path starts at the root. -/
def isAbsolute (path : String) : Bool := path.toList.head? = some '/'

/-- Continues a path by another. An absolute path takes the place of what it continues. -/
def join (base path : String) : String :=
  if isAbsolute path then path
  else if base.isEmpty ∨ base.toList.getLast? = some '/' then base ++ path
  else base ++ "/" ++ path

/-- Whether a part of a path leads nowhere. -/
def isIdle (part : String) : Bool := part.isEmpty ∨ part = "."

/-- Whether a text can be the name of something in a directory. -/
def isName (name : String) : Bool :=
  !isIdle name && name != ".." && name.toList.all fun c => c != '/' && c != '\x00'

/-- What a name is: neither blank nor one or two dots, without slashes and zeros. -/
theorem isName_iff {name : String} : isName name = true ↔
    (name ≠ "" ∧ name ≠ "." ∧ name ≠ "..") ∧ '/' ∉ name.toList ∧ '\x00' ∉ name.toList := by
  have blank : isIdle name = true ↔ name = "" ∨ name = "." := by simp [isIdle]
  simp only [isName, Bool.and_eq_true, Bool.not_eq_true', Bool.eq_false_iff, ne_eq, blank, not_or,
    bne_iff_ne, List.all_eq_true]
  constructor
  · rintro ⟨⟨named, up⟩, plain⟩
    exact ⟨⟨named.1, named.2, up⟩, fun slash => (plain _ slash).1 rfl, fun zero => (plain _ zero).2 rfl⟩
  · rintro ⟨⟨some, dot, up⟩, slash, zero⟩
    exact ⟨⟨⟨some, dot⟩, up⟩, fun c inside => ⟨fun same => slash (same ▸ inside), fun same => zero (same ▸ inside)⟩⟩

theorem not_isAbsolute_of_name {name : String} (named : isName name = true) : ¬isAbsolute name = true := by
  intro absolute
  have first : '/' ∈ name.toList := List.mem_of_head? (by simpa [isAbsolute] using absolute)
  exact (isName_iff.mp named).2.1 first

/-- A path that continues by a name is longer. -/
theorem size_lt_join {name : String} (base : String) (named : isName name = true) :
    base.utf8ByteSize < (join base name).utf8ByteSize := by
  have longer : 0 < name.utf8ByteSize := by
    rw [Nat.pos_iff_ne_zero]
    simpa using (isName_iff.mp named).1.1
  unfold join
  rw [if_neg (not_isAbsolute_of_name named)]
  split
  · rw [String.utf8ByteSize_append]
    omega
  · rw [String.utf8ByteSize_append, String.utf8ByteSize_append]
    omega

/-- Parts without those at the end that lead nowhere. -/
def withoutIdleEnd (l : List String) : List String := (l.reverse.dropWhile isIdle).reverse

/-- The path without its last part that leads somewhere. A single dot at the start of a relative path
counts as such a part. -/
def parent? (path : String) : Option String :=
  let root := if isAbsolute path then "/" else ""
  let body := if isAbsolute path then (parts path).drop 1 else parts path
  let lead := if !isAbsolute path ∧ body.head? = some "." then ["."] else []
  match withoutIdleEnd (body.drop lead.length) with
  | [] => if lead.isEmpty then none else some ""
  | rest => some (root ++ "/".intercalate (lead ++ withoutIdleEnd rest.dropLast))

end ModelLoading.Files.Path
