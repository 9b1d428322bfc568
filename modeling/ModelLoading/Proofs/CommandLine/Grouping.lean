import Mathlib.Data.List.Perm.Basic
import ModelLoading.CommandLine.Arguments

/-!
# Groups of words on the command line

The words of a command line split from left to right into groups that each say one thing: a flag with its value,
a request for help, or a path. There is one such splitting, and it ends at the first word that begins no group
(`exists_splitting`, `splitting_unique`). Reading takes one group after another (`read_group`), so what is read
depends on the last group of each flag, on the paths in their order, and on nothing else.
-/

namespace ModelLoading.CommandLine

open Arguments (asksHelp looksLikeFlag)

/-! ## 1. Words -/

@[simp] theorem looksLikeFlag_word (flag : Flag) : looksLikeFlag flag.word = true := by
  cases flag <;> decide

@[simp] theorem asksHelp_word (flag : Flag) : asksHelp flag.word = false := by
  cases flag <;> decide

@[simp] theorem ofWord?_word (flag : Flag) : Flag.ofWord? flag.word = some flag := by
  cases flag <;> decide

theorem eq_word_of_ofWord? {flag : Flag} {w : String} (h : Flag.ofWord? w = some flag) : w = flag.word := by
  have := List.find?_some h
  exact (of_decide_eq_true this).symm

theorem ofWord?_eq_none_iff {w : String} : Flag.ofWord? w = none ↔ ∀ flag : Flag, w ≠ flag.word := by
  constructor
  · rintro none flag rfl
    rw [ofWord?_word] at none
    cases none
  · intro other
    rw [← Option.not_isSome_iff_eq_none, Option.isSome_iff_exists]
    rintro ⟨flag, found⟩
    exact other flag (eq_word_of_ofWord? found)

/-! ## 2. Groups -/

/-- Words that say one thing together. -/
inductive Group where
  /-- A flag and the word behind it, whatever that is. -/
  | value (flag : Flag) (value : String)
  /-- A request for help. -/
  | help (word : String) (asks : asksHelp word = true)
  /-- A path, which does not look like a flag. -/
  | path (word : String) (plain : looksLikeFlag word = false) (silent : asksHelp word = false)
  deriving DecidableEq

namespace Group

/-- The words of a group. -/
def words : Group → List String
  | value flag v => [flag.word, v]
  | help w _ => [w]
  | path w _ _ => [w]

/-- The value that a group gives a flag. -/
def valueOf? (flag : Flag) : Group → Option String
  | value other v => if other = flag then some v else none
  | _ => none

/-- The path that a group is. -/
def path? : Group → Option String
  | path w _ _ => some w
  | _ => none

/-- Whether a group asks for help. -/
def isHelp : Group → Bool
  | help _ _ => true
  | _ => false

/-- Adds what a group says. -/
def addTo (a : Arguments) : Group → Arguments
  | value flag v => a.set v flag
  | help _ _ => { a with help := true }
  | path w _ _ => { a with positional := a.positional ++ [w] }

end Group

/-- The words of groups one after another. -/
def written (groups : List Group) : List String := groups.flatMap Group.words

@[simp] theorem written_cons (g : Group) (groups : List Group) : written (g :: groups) = g.words ++ written groups :=
  List.flatMap_cons

/-- Words that begin no group, and what is wrong with the first of them. -/
inductive Stops : List String → ArgumentError → Prop
  /-- A flag is the last word. -/
  | valueMissing (flag : Flag) : Stops [flag.word] (.valueMissing flag)
  /-- A word looks like a flag and is none. -/
  | unknownFlag {w : String} (looks : looksLikeFlag w = true) (silent : asksHelp w = false)
      (other : ∀ flag : Flag, w ≠ flag.word) (rest : List String) : Stops (w :: rest) (.unknownFlag w)

/-! ## 3. Reading -/

namespace Arguments

/-- The value of a flag. -/
def get (a : Arguments) : Flag → Option String
  | .config => a.config
  | .payloadType => a.payloadType
  | .className => a.className
  | .bytesFile => a.bytesFile
  | .namespaceName => a.namespaceName
  | .report => a.report

theorem get_set (a : Arguments) (v : String) (flag flag' : Flag) :
    (a.set v flag).get flag' = if flag = flag' then some v else a.get flag' := by
  cases flag <;> cases flag' <;> rfl

@[simp] theorem positional_set (a : Arguments) (v : String) (flag : Flag) :
    (a.set v flag).positional = a.positional := by
  cases flag <;> rfl

@[simp] theorem help_set (a : Arguments) (v : String) (flag : Flag) : (a.set v flag).help = a.help := by
  cases flag <;> rfl

/-- Arguments are the values of the flags, the paths, and whether help was asked for. -/
theorem eq_of_get {a b : Arguments} (get : ∀ flag, a.get flag = b.get flag)
    (positional : a.positional = b.positional) (help : a.help = b.help) : a = b := by
  cases a
  cases b
  simp only [mk.injEq]
  exact ⟨get .config, positional, get .payloadType, get .className, get .bytesFile, get .namespaceName,
    get .report, help⟩

/-- Reading takes a group at once. -/
theorem read_group (a : Arguments) (g : Group) (rest : List String) :
    a.read (g.words ++ rest) = (g.addTo a).read rest := by
  cases g with
  | value flag v => simp [Group.words, Group.addTo, read, ofWord?_word]
  | help w asks =>
    have none : Flag.ofWord? w = none := by
      rw [ofWord?_eq_none_iff]
      rintro flag rfl
      rw [asksHelp_word] at asks
      cases asks
    simp [Group.words, Group.addTo, read, none, asks]
  | path w plain silent =>
    have none : Flag.ofWord? w = none := by
      rw [ofWord?_eq_none_iff]
      rintro flag rfl
      rw [looksLikeFlag_word] at plain
      cases plain
    simp [Group.words, Group.addTo, read, none, plain, silent]

theorem read_written (a : Arguments) (groups : List Group) (rest : List String) :
    a.read (written groups ++ rest) = (groups.foldl Group.addTo a).read rest := by
  induction groups generalizing a with
  | nil => rfl
  | cons g groups ih =>
    rw [written_cons, List.append_assoc, read_group]
    exact ih _

theorem read_of_stops {rest : List String} {e : ArgumentError} (stops : Stops rest e) (a : Arguments) :
    a.read rest = .error e := by
  cases stops with
  | valueMissing flag => simp [read, ofWord?_word]
  | unknownFlag looks silent other rest => simp [read, ofWord?_eq_none_iff.mpr other, silent, looks]

/-- The last group of a flag decides its value. -/
theorem get_foldl_addTo (groups : List Group) (a : Arguments) (flag : Flag) :
    (groups.foldl Group.addTo a).get flag =
      (groups.filterMap (·.valueOf? flag)).getLast?.or (a.get flag) := by
  induction groups generalizing a with
  | nil => rfl
  | cons g groups ih =>
    rw [List.foldl_cons, ih]
    cases g with
    | value other v =>
      rw [Group.addTo, get_set]
      by_cases same : other = flag
      · have first : (Group.value other v).valueOf? flag = some v := if_pos same
        rw [if_pos same, List.filterMap_cons_some first, List.getLast?_cons]
        cases (groups.filterMap (·.valueOf? flag)).getLast? <;> rfl
      · have first : (Group.value other v).valueOf? flag = none := if_neg same
        rw [if_neg same, List.filterMap_cons_none first]
    | help => cases flag <;> rfl
    | path => cases flag <;> rfl

theorem positional_foldl_addTo (groups : List Group) (a : Arguments) :
    (groups.foldl Group.addTo a).positional = a.positional ++ groups.filterMap Group.path? := by
  induction groups generalizing a with
  | nil => simp
  | cons g groups ih =>
    rw [List.foldl_cons, ih]
    cases g <;> simp [Group.addTo, Group.path?, List.filterMap_cons]

theorem help_foldl_addTo (groups : List Group) (a : Arguments) :
    (groups.foldl Group.addTo a).help = (a.help || groups.any Group.isHelp) := by
  induction groups generalizing a with
  | nil => simp
  | cons g groups ih =>
    rw [List.foldl_cons, ih]
    cases g <;> simp [Group.addTo, Group.isHelp]

/-- What the words of groups say. -/
theorem parse_written (groups : List Group) : ∃ a, parse (written groups) = .ok a ∧
    (∀ flag, a.get flag = (groups.filterMap (·.valueOf? flag)).getLast?) ∧
    a.positional = groups.filterMap Group.path? ∧ a.help = groups.any Group.isHelp := by
  refine ⟨groups.foldl Group.addTo {}, ?_, fun flag => ?_, ?_, ?_⟩
  · have all := read_written {} groups []
    rwa [List.append_nil, read] at all
  · rw [get_foldl_addTo]
    cases flag <;> exact Option.or_none
  · exact positional_foldl_addTo groups {}
  · exact help_foldl_addTo groups {}

end Arguments

/-! ## 4. Splittings -/

/-- Words that hold no further group: none at all, or words that begin no group. -/
def Ends (rest : List String) : Prop := rest = [] ∨ ∃ e, Stops rest e

/-- Words split as reading takes them. -/
theorem exists_splitting (words : List String) : ∃ groups rest, words = written groups ++ rest ∧ Ends rest := by
  fun_induction Arguments.read {} words with
  | case1 a => exact ⟨[], [], rfl, .inl rfl⟩
  | case2 a w flag v rest found ih =>
    obtain ⟨groups, rest, rfl, ends⟩ := ih
    exact ⟨.value flag v :: groups, rest, by rw [eq_word_of_ofWord? found]; rfl, ends⟩
  | case3 a w flag found =>
    exact ⟨[], [w], rfl, .inr ⟨_, eq_word_of_ofWord? found ▸ Stops.valueMissing flag⟩⟩
  | case4 a w rest found asks ih =>
    obtain ⟨groups, rest, rfl, ends⟩ := ih
    exact ⟨.help w asks :: groups, rest, rfl, ends⟩
  | case5 a w rest found silent looks =>
    refine ⟨[], w :: rest, rfl, .inr ⟨_, .unknownFlag looks ?_ (ofWord?_eq_none_iff.mp found) rest⟩⟩
    simpa using silent
  | case6 a w rest found silent plain ih =>
    obtain ⟨groups, rest, rfl, ends⟩ := ih
    exact ⟨.path w (by simpa using plain) (by simpa using silent) :: groups, rest, rfl, ends⟩

/-- The first word tells which group it begins. -/
theorem group_unique {g g' : Group} {x x' : List String} (same : g.words ++ x = g'.words ++ x') :
    g = g' ∧ x = x' := by
  cases g <;> cases g' <;> grind [Group.words, asksHelp_word, looksLikeFlag_word, ofWord?_word]

theorem not_ends_group (g : Group) (x : List String) : ¬Ends (g.words ++ x) := by
  rintro (nothing | ⟨e, stops⟩)
  · cases g <;> cases nothing
  · generalize same : g.words ++ x = rest at stops
    cases stops with
    | valueMissing flag =>
      cases g <;> grind [Group.words, asksHelp_word, looksLikeFlag_word]
    | unknownFlag looks silent other rest =>
      cases g <;> grind [Group.words]

/-- Words split in one way only. -/
theorem splitting_unique {groups groups' : List Group} {rest rest' : List String}
    (same : written groups ++ rest = written groups' ++ rest') (ends : Ends rest) (ends' : Ends rest') :
    groups = groups' ∧ rest = rest' := by
  induction groups generalizing groups' with
  | nil =>
    cases groups' with
    | nil => exact ⟨rfl, same⟩
    | cons g groups' =>
      rw [written_cons, List.append_assoc] at same
      have begins : rest = g.words ++ (written groups' ++ rest') := same
      exact absurd (begins ▸ ends) (not_ends_group g _)
  | cons g groups ih =>
    rw [written_cons, List.append_assoc] at same
    cases groups' with
    | nil =>
      have begins : rest' = g.words ++ (written groups ++ rest) := same.symm
      exact absurd (begins ▸ ends') (not_ends_group g _)
    | cons g' groups' =>
      rw [written_cons, List.append_assoc] at same
      obtain ⟨rfl, later⟩ := group_unique same
      obtain ⟨rfl, rfl⟩ := ih later
      exact ⟨rfl, rfl⟩

/-! ## 5. What is read -/

namespace Arguments

theorem parse_eq_error_iff {words : List String} {e : ArgumentError} :
    parse words = .error e ↔ ∃ groups rest, words = written groups ++ rest ∧ Stops rest e := by
  constructor
  · intro refused
    obtain ⟨groups, rest, rfl, ends⟩ := exists_splitting words
    rw [parse, read_written] at refused
    rcases ends with rfl | ⟨e', stops⟩
    · cases refused
    · rw [read_of_stops stops] at refused
      cases refused
      exact ⟨groups, rest, rfl, stops⟩
  · rintro ⟨groups, rest, rfl, stops⟩
    rw [parse, read_written, read_of_stops stops]

/-- The order of groups does not matter, as long as the paths keep theirs and the values of each flag keep
theirs. -/
theorem parse_written_of_perm {groups groups' : List Group} (perm : groups'.Perm groups)
    (paths : groups'.filterMap Group.path? = groups.filterMap Group.path?)
    (values : ∀ flag, groups'.filterMap (·.valueOf? flag) = groups.filterMap (·.valueOf? flag)) :
    parse (written groups') = parse (written groups) := by
  obtain ⟨a, parsed, get, positional, help⟩ := parse_written groups
  obtain ⟨a', parsed', get', positional', help'⟩ := parse_written groups'
  rw [parsed, parsed']
  refine congrArg _ (eq_of_get (fun flag => ?_) ?_ ?_)
  · rw [get, get', values]
  · rw [positional, positional', paths]
  · rw [help, help', perm.any_eq]

end Arguments

/-- **Arguments are read group by group.** The words of groups are always read: each flag has the value in its last
group, the paths are in their order, and help is asked for if a group asks for it. So groups may change places, as
long as the paths and the groups of one flag keep their order. All words split in one way into groups and words
that begin no group, and they are refused exactly for the first of the latter: a flag without a value at the
end, or an unknown word that looks like a flag. -/
theorem arguments_are_read_by_groups :
    (∀ groups, ∃ a, Arguments.parse (written groups) = .ok a ∧
      (∀ flag, a.get flag = (groups.filterMap (·.valueOf? flag)).getLast?) ∧
      a.positional = groups.filterMap Group.path? ∧ a.help = groups.any Group.isHelp) ∧
    (∀ groups groups' : List Group, groups'.Perm groups →
      groups'.filterMap Group.path? = groups.filterMap Group.path? →
      (∀ flag, groups'.filterMap (·.valueOf? flag) = groups.filterMap (·.valueOf? flag)) →
      Arguments.parse (written groups') = Arguments.parse (written groups)) ∧
    (∀ words, ∃! split : List Group × List String, words = written split.1 ++ split.2 ∧ Ends split.2) ∧
    ∀ words e, Arguments.parse words = .error e ↔
      ∃ groups rest, words = written groups ++ rest ∧ Stops rest e := by
  refine ⟨Arguments.parse_written, fun _ _ => Arguments.parse_written_of_perm, fun words => ?_,
    fun _ _ => Arguments.parse_eq_error_iff⟩
  obtain ⟨groups, rest, split, ends⟩ := exists_splitting words
  refine ⟨(groups, rest), ⟨split, ends⟩, ?_⟩
  rintro ⟨groups', rest'⟩ ⟨split', ends'⟩
  exact Prod.ext_iff.mpr (splitting_unique (split'.symm.trans split) ends' ends)

/-- A flag may take another flag for its value, and a flag may come twice. -/
theorem arguments_are_read_by_groups_of_job :
    let groups : List Group := [.value .report "--type", .path "in.cs" (by decide) (by decide),
      .value .className "A", .help "-h" (by decide), .value .className "--class",
      .path "out.cs" (by decide) (by decide)]
    let groups' : List Group := [.value .className "A", .path "in.cs" (by decide) (by decide),
      .path "out.cs" (by decide) (by decide), .value .className "--class", .value .report "--type",
      .help "-h" (by decide)]
    groups'.Perm groups ∧ groups'.filterMap Group.path? = groups.filterMap Group.path? ∧
      (∀ flag, groups'.filterMap (·.valueOf? flag) = groups.filterMap (·.valueOf? flag)) ∧
      Arguments.parse (written groups') = Arguments.parse (written groups) := by
  intro groups groups'
  have perm : groups'.Perm groups := by decide
  have paths : groups'.filterMap Group.path? = groups.filterMap Group.path? := by decide
  have values : ∀ flag, groups'.filterMap (·.valueOf? flag) = groups.filterMap (·.valueOf? flag) := by
    intro flag
    cases flag <;> decide
  exact ⟨perm, paths, values, arguments_are_read_by_groups.2.1 groups groups' perm paths values⟩

end ModelLoading.CommandLine
