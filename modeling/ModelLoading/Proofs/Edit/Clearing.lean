import ModelLoading.Proofs.Edit.Effects
import ModelLoading.Proofs.Text.Placed

/-!
# Occurrences that stay away

Effects one after another leave no occurrence of a text if one of them looks for it at every place and
none after it brings it back (`Ran.cleared`). Whether an effect brings forth an occurrence is decided
from its texts (`Wording.safe`). An effect whose text in front contains something that never occurs does
nothing, whatever it could bring forth (`Wording.idle`).
-/

namespace ModelLoading.Edit

open Text (Sweep Bounds Begins Occurs Safe Item Spells free exactly)

variable {e : Effect} {effects : List Effect} {b : Bounds} {w s t : List Char} {items : List Item}
  {guards : List (List Char)} {count : Nat}

/-! ## 1. Single effects -/

/-- Whether a wording has a text, in front of what is kept or behind, that does not occur. -/
def Wording.misses (s : List Char) (e : Wording) : Bool :=
  decide (¬e.front <:+: s) || decide (¬e.back <:+: s)

/-- An effect turns a text into another one. -/
def Effect.Turns (e : Effect) (s t : List Char) : Prop :=
  ∀ u count, Sweep e.swap e.leaves none s u count → u = t

/-- Nothing is found where one of the texts of an effect does not occur. -/
theorem Effect.eq_of_misses (misses : e.toWording.misses s = true) (h : Sweep e.swap e.leaves none s t count) :
    t = s ∧ count = 0 := by
  refine h.eq_of_nowhere ?_
  rintro l _ _ rest rfl ⟨text, -, rfl, -⟩
  rw [Wording.misses, Bool.or_eq_true, decide_eq_true_eq, decide_eq_true_eq] at misses
  rcases misses with front | back
  · exact front ⟨l, text ++ (e.back ++ rest), by simp⟩
  · exact back ⟨l ++ (e.front ++ text), rest, by simp⟩

theorem Effect.turns_of_misses (misses : e.toWording.misses s = true) : e.Turns s s := fun _ _ h =>
  (Effect.eq_of_misses misses h).1

/-- Nothing happens where no text begins that has the form of what an effect looks for. -/
theorem Effect.turns_of_clear (clear : Text.clear false items none s = true)
    (spells : ∀ before text rest, e.finds before text rest → Spells items (e.front ++ (text ++ e.back)))
    (some : e.front ≠ []) : e.Turns s s := by
  intro t count h
  refine (h.eq_of_nowhere ?_).1
  rintro l _ _ rest rfl ⟨text, found, rfl, -⟩
  refine Text.not_occurs_of_clear (b := free) clear (spells _ _ _ found) (by simp [some]) ?_
  exact Text.occurs_free.mpr ⟨l, rest, by simp⟩

/-- Where the text in front of what is kept stands at one place, and something is found there, that is
changed. -/
theorem Effect.turns_of_once {x z result : List Char} (some : e.front ≠ [])
    (once : ¬e.front <:+: x ++ e.front.dropLast ∧ ¬e.front <:+: (e.front ++ z).tail)
    (leaves : ¬e.leaves x.getLast? (e.front ++ z))
    (changes : ∀ before text rest, e.finds before text rest → text ++ (e.back ++ rest) = z →
      e.newFront ++ (text ++ (e.newBack ++ rest)) = result) :
    e.Turns (x ++ (e.front ++ z)) (x ++ result) := by
  intro u count h
  refine h.eq_of_once some ?_ once.1 once.2 (by rwa [Option.or_none]) ?_
  · rintro _ _ _ _ ⟨text, -, rfl, -⟩
    exact List.prefix_append ..
  · rintro _ _ _ rest ⟨text, found, rfl, rfl⟩ split
    have behind : text ++ (e.back ++ rest) = z := by simpa using split
    simpa using changes _ _ _ found behind

/-- An effect that replaces a text between boundaries. -/
structure Effect.Replaces (e : Effect) (b : Bounds) (what new : List Char) : Prop where
  wording : e.toWording = { front := what, newFront := new }
  finds : ∀ before text rest, e.finds before text rest → text = [] ∧ Begins b what before (what ++ rest)
  leaves : ∀ before s, e.leaves before s → ¬Begins b what before s

namespace Effect.Replaces

variable {what new : List Char}

theorem of_word {what replacement : String} :
    (wordEffect b what replacement).Replaces b what.toList replacement.toList where
  wording := rfl
  finds _ _ _ := id
  leaves _ _ := id

theorem of_literal {what replacement : String} :
    (literalEffect what replacement).Replaces free what.toList replacement.toList where
  wording := rfl
  finds _ _ rest found := ⟨found, rest, rfl, by simp [free], by simp [free]⟩
  leaves _ _ stay := fun ⟨rest, split, _⟩ => stay ⟨rest, split.symm⟩

variable (h : e.Replaces b what new)

include h

/-- Nothing happens where the text does not occur. -/
theorem turns_self (absent : ¬Occurs b what s) : e.Turns s s := by
  intro t count swept
  refine (swept.eq_of_nowhere ?_).1
  rintro l _ _ rest rfl ⟨_, found, rfl, -⟩
  obtain ⟨rfl, begins⟩ := h.finds _ _ _ found
  rw [h.wording] at absent
  exact absent ⟨l, what ++ rest, by simp, by simpa using begins⟩

/-- The text is replaced where it stands at one place. -/
theorem turns {x z : List Char} (some : what ≠ [])
    (once : ¬what <:+: x ++ what.dropLast ∧ ¬what <:+: (what ++ z).tail)
    (begins : Begins b what x.getLast? (what ++ z)) : e.Turns (x ++ (what ++ z)) (x ++ (new ++ z)) := by
  have turned := @Effect.turns_of_once e x z (new ++ z)
  rw [h.wording] at turned
  refine turned some once (fun stay => h.leaves _ _ stay begins) fun before text rest found split => ?_
  obtain ⟨rfl, -⟩ := h.finds _ _ _ found
  exact congrArg (new ++ ·) split

end Effect.Replaces

/-- Nothing happens where a text does not occur that is replaced between boundaries. -/
theorem word_turns {what replacement : String} (absent : ¬Occurs b what.toList s) :
    (wordEffect b what replacement).Turns s s := Effect.Replaces.of_word.turns_self absent

/-- Whether a wording brings forth no occurrence of a text of a form, in front of what is kept or behind. -/
def Wording.safe (b : Bounds) (items : List Item) (e : Wording) : Bool :=
  Text.harmless b items e.front e.newFront && Text.harmless b items e.back e.newBack

/-- An effect brings forth no occurrence of a text if putting its new texts in the place of the old ones
does not. -/
theorem Effect.keeps_of_safe (front : Safe b w e.front e.newFront) (back : Safe b w e.back e.newBack) :
    e.Keeps fun s => ¬Occurs b w s := by
  intro s t count h absent
  refine h.keeps (P := fun t => ¬Occurs b w t) (x := []) ?_ absent
  rintro _ _ _ rest x ⟨text, -, rfl, rfl⟩ absent occurs
  refine absent ?_
  have behind := front x (text ++ (e.newBack ++ rest)) (by simpa using occurs)
  have whole := back (x ++ (e.front ++ text)) rest (by simpa using behind)
  simpa using whole

theorem Wording.keeps (safe : e.toWording.safe b items = true) (spells : Spells items w) :
    e.Keeps fun s => ¬Occurs b w s := by
  obtain ⟨front, back⟩ := Bool.and_eq_true_iff.mp safe
  exact Effect.keeps_of_safe (Safe.of_harmless front spells) (Safe.of_harmless back spells)

/-- The wording of an effect the other way round. -/
def Wording.reversed (e : Wording) : Wording :=
  { front := e.newFront, back := e.newBack, newFront := e.front, newBack := e.back }

/-- An effect ends no occurrence of a text if putting its old texts in the place of the new ones brings forth
none. -/
theorem Effect.keeps_occurs_of_safe (front : Safe b w e.newFront e.front) (back : Safe b w e.newBack e.back) :
    e.Keeps (Occurs b w) := by
  intro s t count h occurs
  refine h.keeps (P := Occurs b w) (x := []) ?_ occurs
  rintro _ _ _ rest x ⟨text, -, rfl, rfl⟩ occurs
  have begun := front x (text ++ (e.back ++ rest)) (by simpa using occurs)
  have whole := back (x ++ (e.newFront ++ text)) rest (by simpa using begun)
  simpa using whole

theorem Wording.keeps_occurs (safe : e.toWording.reversed.safe b items = true) (spells : Spells items w) :
    e.Keeps (Occurs b w) := by
  obtain ⟨front, back⟩ := Bool.and_eq_true_iff.mp safe
  exact Effect.keeps_occurs_of_safe (Safe.of_harmless front spells) (Safe.of_harmless back spells)

section Literals

variable {what replacement : String}

theorem literal_sweep
    (h : Sweep (literalEffect what replacement).swap (literalEffect what replacement).leaves none s t count) :
    Sweep (Text.literalSwap what.toList replacement.toList) (Text.literalStay what.toList) none s t count := by
  refine h.mono ?_ fun _ _ => id
  rintro _ _ _ _ ⟨_, rfl, rfl, rfl⟩
  exact ⟨List.append_nil _, List.append_nil _⟩

/-- Replacing a text keeps what it does not overlap. -/
theorem literal_keeps (apart : Text.Apart false w what.toList) :
    (literalEffect what replacement).Keeps (Occurs free w) :=
  Effect.keeps_occurs_of_safe (Safe.of_apart apart (by simp [free]) (by simp [free])) (Safe.refl _ _ _)

/-- A text is replaced behind a context that it is detached from. -/
theorem literal_infix_replaced {a : List Char} (detached : Text.Detached a what.toList)
    (h : Sweep (literalEffect what replacement).swap (literalEffect what replacement).leaves none s t count)
    (occurs : a ++ what.toList <:+: s) : a ++ replacement.toList <:+: t :=
  (literal_sweep h).infix_replaced detached (c := none) .nil occurs

/-- Putting something in front of words keeps a text that does not have the word and ends differently. -/
theorem word_keeps_infix (new : String) (same : replacement = new ++ what) (some : what.toList ≠ []) {z : Char}
    (last : w.getLast? = Option.some z) (lacks : z ∉ what.toList) (absent : ¬Occurs b what.toList w) :
    (wordEffect b what replacement).Keeps (w <:+: ·) := by
  subst same
  obtain ⟨d, ends⟩ := Option.ne_none_iff_exists'.mp (mt List.getLast?_eq_none_iff.mp some)
  intro s t count h occurs
  refine h.keeps_behind (P := (w <:+: ·)) (x := []) ?_ ?_ rfl occurs
  · rintro _ _ rest x ⟨_, ⟨rfl, begins⟩, rfl, rfl⟩ occurs
    have kept := Occurs.of_inserted last lacks absent begins (by simpa [wordEffect] using occurs) new.toList
    simpa [wordEffect] using kept
  · rintro _ _ _ _ ⟨_, ⟨rfl, -⟩, rfl, rfl⟩
    simp [wordEffect, List.getLast?_append, ends]

end Literals

/-- Effects of which none does anything leave a text. -/
theorem Ran.eq_of_turns (h : Ran effects s t) (each : ∀ e ∈ effects, e.Turns s s) : t = s := by
  induction h with
  | nil => rfl
  | cons first _ ih =>
    rw [List.forall_mem_cons] at each
    obtain rfl := each.1 _ _ first
    exact ih each.2

/-- Effects that all miss a text do nothing. -/
theorem turns_of_misses (misses : (effects.map (·.toWording)).all (·.misses s) = true) :
    ∀ e ∈ effects, e.Turns s s := fun _ member =>
  Effect.turns_of_misses (List.all_eq_true.mp misses _ (List.mem_map_of_mem member))

/-- Effects of which one turns a text into another one, and the others do nothing. -/
theorem Ran.eq_of_one {k : Nat} {u : List Char} (h : Ran effects s t) (here : effects[k]? = some e)
    (before : ∀ e ∈ effects.take k, e.Turns s s) (turns : e.Turns s u)
    (after : ((effects.map (·.toWording)).drop (k + 1)).all (·.misses u) = true) : t = u := by
  obtain ⟨s', u', count, first, swept, rest⟩ := h.at here
  obtain rfl := first.eq_of_turns before
  obtain rfl := turns _ _ swept
  exact rest.eq_of_turns (turns_of_misses (by rwa [List.map_drop]))

/-- Whether a wording neither brings forth nor ends an occurrence of a text. -/
def Wording.neutral (b : Bounds) (items : List Item) (e : Wording) : Bool :=
  e.safe b items && e.reversed.safe b items

/-- Where effects neither bring forth nor end an occurrence, there is one if there was one. -/
theorem Ran.occurs_iff (h : Ran effects s t)
    (neutral : (effects.map (·.toWording)).all (·.neutral b items) = true) (spells : Spells items w) :
    Occurs b w s ↔ Occurs b w t := by
  have each : ∀ e ∈ effects, e.toWording.safe b items = true ∧ e.toWording.reversed.safe b items = true :=
    fun e member => Bool.and_eq_true_iff.mp (List.all_eq_true.mp neutral _ (List.mem_map_of_mem member))
  constructor
  · exact fun occurs => h.keeps (fun e member => Wording.keeps_occurs (each e member).2 spells) occurs
  · exact fun occurs => by_contra fun absent =>
      h.keeps (fun e member => Wording.keeps (each e member).1 spells) absent occurs

/-! ## 2. Guards -/

/-- Texts that do not occur. -/
def Lacks (guards : List (List Char)) (s : List Char) : Prop := ∀ g ∈ guards, ¬g <:+: s

/-- Whether a wording looks for something that contains one of several texts. -/
def Wording.idle (guards : List (List Char)) (e : Wording) : Bool :=
  guards.any fun g => decide (g <:+: e.front)

/-- An effect does nothing where a text does not occur that its text in front contains. -/
theorem Effect.keeps_of_idle (idle : e.toWording.idle guards = true) (P : List Char → Prop) :
    e.Keeps fun s => Lacks guards s ∧ P s := by
  rintro s t count h ⟨lacks, start⟩
  obtain ⟨g, member, inside⟩ := List.any_eq_true.mp idle
  have absent : ¬e.front <:+: s := fun occurs =>
    lacks g member ((of_decide_eq_true inside).trans occurs)
  rw [Effect.turns_of_misses (by simp [Wording.misses, absent]) t count h]
  exact ⟨lacks, start⟩

/-- Whether a wording brings forth none of several texts. -/
def Wording.spares (guards : List (List Char)) (e : Wording) : Bool :=
  guards.all fun g => e.safe free (exactly g)

theorem Effect.keeps_lacks (spares : e.toWording.spares guards = true) : e.Keeps (Lacks guards) := by
  intro s t count h lacks g member
  have safe := List.all_eq_true.mp spares g member
  have absent : ¬Occurs free g s := fun occurs => lacks g member (Text.occurs_free.mp occurs)
  exact fun occurs =>
    Wording.keeps safe (Text.spells_exactly g) s t count h absent (Text.occurs_free.mpr occurs)

theorem lacks_nil (s : List Char) : Lacks [] s := fun _ member => absurd member (by simp)

theorem keeps_nothing (e : Effect) : e.Keeps (Lacks []) := fun _ t _ _ _ => lacks_nil t

/-- Effects bring forth none of several texts if none of their wordings does. -/
theorem keeps_lacks_of_spares (spares : (effects.map (·.toWording)).all (·.spares guards) = true) :
    ∀ e ∈ effects, e.Keeps (Lacks guards) := fun _ member =>
  Effect.keeps_lacks (List.all_eq_true.mp spares _ (List.mem_map_of_mem member))

/-- Effects bring forth no occurrence of a text if each of them brings forth none, or does nothing for
lack of a guard. -/
theorem Ran.not_occurs (h : Ran effects s t) (each : ∀ e ∈ effects, e.Keeps (Lacks guards))
    (safe : (effects.map (·.toWording)).all (fun e => e.idle guards || e.safe b items) = true)
    (spells : Spells items w) (lacks : Lacks guards s) (absent : ¬Occurs b w s) : ¬Occurs b w t := by
  refine (h.keeps (P := fun s => Lacks guards s ∧ ¬Occurs b w s) (fun e he => ?_) ⟨lacks, absent⟩).2
  have here := List.all_eq_true.mp safe _ (List.mem_map_of_mem he)
  rcases Bool.or_eq_true _ _ ▸ here with idle | safe
  · exact Effect.keeps_of_idle idle _
  · exact fun s t count first both =>
      ⟨each e he s t count first both.1, Wording.keeps safe spells s t count first both.2⟩

/-! ## 3. Clearing -/

/-- An effect that looks for a text at every place and puts nothing in the place of something that the
text could overlap. -/
structure Effect.Clears (e : Effect) (b : Bounds) (w : List Char) : Prop where
  some : w ≠ []
  absent : ∀ before s, e.leaves before s → ¬Begins b w before s
  evades : e.swap.Evades b w

/-- Effects leave no occurrence of a text if one of them clears it and none after it brings it back. -/
theorem Ran.cleared {k : Nat} (h : Ran effects s t) (here : effects[k]? = some e) (clears : e.Clears b w)
    (each : ∀ e ∈ effects, e.Keeps (Lacks guards))
    (safe : ((effects.map (·.toWording)).drop (k + 1)).all (fun e => e.idle guards || e.safe b items) = true)
    (spells : Spells items w) (lacks : Lacks guards s) : ¬Occurs b w t := by
  obtain ⟨u, v, count, before, first, after⟩ := h.at here
  have absent := first.not_occurs clears.some clears.absent clears.evades
  have lacks := before.keeps (fun e he => each e (List.mem_of_mem_take he)) lacks
  have lacks := each e (List.mem_of_getElem? here) u v count first lacks
  refine after.not_occurs (fun e he => each e (List.mem_of_mem_drop he)) ?_ spells lacks absent
  rwa [← List.map_drop] at safe

/-- An effect that replaces a text, and looks for it at every place. -/
structure Effect.Seeks (e : Effect) (b : Bounds) : Prop where
  some : e.front ≠ []
  back : e.back = [] ∧ e.newBack = []
  finds : ∀ before text rest, e.finds before text rest → text = []
  leaves : ∀ before s, e.leaves before s → ¬Begins b e.front before s

theorem Effect.Replaces.seeks {what new : List Char} (h : e.Replaces b what new) (some : what ≠ []) :
    e.Seeks b where
  some := by rwa [h.wording]
  back := by simp [h.wording]
  finds _ _ _ found := (h.finds _ _ _ found).1
  leaves := by
    rw [h.wording]
    exact h.leaves

theorem seeks_literal {what replacement : String} (some : what.toList ≠ []) :
    (literalEffect what replacement).Seeks free := Effect.Replaces.of_literal.seeks some

theorem seeks_word {what replacement : String} (some : what.toList ≠ []) :
    (wordEffect b what replacement).Seeks b := Effect.Replaces.of_word.seeks some

/-- What an effect looks for is cleared if its own occurrences do not meet what takes their place. -/
theorem Effect.Seeks.clears (seeks : e.Seeks b)
    (safe : Text.safe b (exactly e.front) e.front e.newFront = true) : e.Clears b e.front where
  some := seeks.some
  absent := seeks.leaves
  evades := by
    rintro before old new rest ⟨text, found, rfl, rfl⟩
    obtain rfl := seeks.finds _ _ _ found
    rw [seeks.back.1, seeks.back.2, List.nil_append, List.append_nil, List.append_nil]
    exact Text.of_safe_eq_true safe (Text.spells_exactly _)

/-- Whether the text that the wording at a place looks for is cleared there and not brought back. -/
def clearedAt (guards : List (List Char)) (b : Bounds) (k : Nat) (wordings : List Wording) : Bool :=
  match wordings.drop k with
  | [] => false
  | e :: later => Text.safe b (exactly e.front) e.front e.newFront &&
      later.all fun e' => e'.idle guards || e'.safe b (exactly e.front)

/-- Effects leave no occurrence of what one of them looks for. -/
theorem Ran.front_cleared {k : Nat} (h : Ran effects s t) (here : effects[k]? = some e)
    (seeks : e.Seeks b) (check : clearedAt guards b k (effects.map (·.toWording)) = true)
    (each : ∀ e ∈ effects, e.Keeps (Lacks guards)) (lacks : Lacks guards s) : ¬Occurs b e.front t := by
  obtain ⟨inside, same⟩ := List.getElem?_eq_some_iff.mp here
  rw [clearedAt, ← List.map_drop, List.drop_eq_getElem_cons inside, same, List.map_cons,
    Bool.and_eq_true] at check
  refine h.cleared here (seeks.clears check.1) each ?_ (Text.spells_exactly _) lacks
  rw [← List.map_drop]
  exact check.2

end ModelLoading.Edit
