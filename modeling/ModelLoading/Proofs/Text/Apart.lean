import Mathlib.Data.List.Infix
import ModelLoading.Proofs.Text.Sweeping
import ModelLoading.Text.Word

/-!
# Texts that do not meet

Whether putting a text in the place of another can bring forth an occurrence of a third one is a
question about how the texts overlap. `apart` decides that no occurrence overlaps a text at all, and
`safe` that each occurrence around a new text was there around the old one. Both are decided for all
texts of a form at once, such as a name between two brackets (`Item`, `Spells`), and an occurrence can be
asked to be a whole word (`Bounds`).

`Safe` is about one change. For a sweep, `Sweep.not_occurs` says that a text that is looked for at every
place is gone.
-/

namespace ModelLoading.Text

/-! ## 1. Occurrences -/

/-- At which of its ends an occurrence may not touch a word. -/
structure Bounds where
  left : Bool := false
  right : Bool := false

/-- An occurrence may stand between any characters. -/
def free : Bounds := {}

/-- An occurrence may not continue a word. -/
def fromWord : Bounds := { left := true }

/-- An occurrence may neither continue a word nor be continued. -/
def wholeWord : Bounds := { left := true, right := true }

/-- Whether a character is there and can be part of a word. -/
def inWord (c : Option Char) : Bool := c.any isWord

variable {b : Bounds} {w x y l r n o s t : List Char} {before : Option Char}

/-- A text stands at the beginning of another one, behind a character. -/
def Begins (b : Bounds) (w : List Char) (before : Option Char) (s : List Char) : Prop :=
  ∃ r, s = w ++ r ∧ (b.left → inWord before = false) ∧ (b.right → inWord r.head? = false)

/-- A text stands somewhere in another one. -/
def Occurs (b : Bounds) (w s : List Char) : Prop := ∃ l r, s = l ++ r ∧ Begins b w l.getLast? r

theorem occurs_free : Occurs free w s ↔ w <:+: s := by
  constructor
  · rintro ⟨l, -, rfl, r, rfl, -, -⟩
    exact List.infix_append' l w r
  · rintro ⟨l, r, rfl⟩
    exact ⟨l, w ++ r, by simp, r, rfl, by simp [free]⟩

theorem Occurs.infix (h : Occurs b w s) : w <:+: s := by
  obtain ⟨l, -, rfl, r, rfl, -, -⟩ := h
  exact List.infix_append' l w r

/-! ## 2. Forms -/

/-- A part of a form. -/
inductive Item where
  /-- One character of a class. -/
  | one (ok : Char → Bool)
  /-- Any number of characters of a class. -/
  | run (ok : Char → Bool)

/-- A text has a form. -/
inductive Spells : List Item → List Char → Prop
  | nil : Spells [] []
  | one {ok : Char → Bool} {c : Char} {items : List Item} {w : List Char} (here : ok c = true)
      (rest : Spells items w) : Spells (.one ok :: items) (c :: w)
  | stop {ok : Char → Bool} {items : List Item} {w : List Char} (rest : Spells items w) :
      Spells (.run ok :: items) w
  | more {ok : Char → Bool} {c : Char} {items : List Item} {w : List Char} (here : ok c = true)
      (rest : Spells (.run ok :: items) w) : Spells (.run ok :: items) (c :: w)

/-- The form of a given text. -/
def exactly (w : List Char) : List Item := w.map fun c => .one (· == c)

/-- A text and then a text of a form. -/
theorem Spells.exactly_append {items : List Item} (h : Spells items w) (u : List Char) :
    Spells (exactly u ++ items) (u ++ w) := by
  induction u with
  | nil => exact h
  | cons c u ih => exact .one (beq_self_eq_true c) ih

theorem spells_exactly (w : List Char) : Spells (exactly w) w := by
  simpa using Spells.exactly_append .nil w

/-- A run, and then a text of a form. -/
theorem Spells.run {ok : Char → Bool} {items : List Item} (h : Spells items w) {u : List Char}
    (all : ∀ c ∈ u, ok c = true) : Spells (.run ok :: items) (u ++ w) := by
  induction u with
  | nil => exact .stop h
  | cons c u ih => exact .more (all c (by simp)) (ih fun c hc => all c (by simp [hc]))

/-- A text of a form, and then a text of another one. -/
theorem Spells.append {items items' : List Item} {u : List Char} (h : Spells items w) (h' : Spells items' u) :
    Spells (items ++ items') (w ++ u) := by
  induction h with
  | nil => exact h'
  | one here _ ih => exact .one here ih
  | stop _ ih => exact .stop ih
  | more here _ ih => exact .more here ih

/-- The end of a text of a form has the form of an end. -/
theorem Spells.tail {items : List Item} (h : Spells items w) :
    ∀ {u v : List Char}, w = u ++ v → ∃ end_, end_ <:+ items ∧ Spells end_ v := by
  induction h with
  | nil =>
    intro u v split
    obtain ⟨rfl, rfl⟩ := List.append_eq_nil_iff.mp split.symm
    exact ⟨[], List.suffix_rfl, .nil⟩
  | @one ok c items w here rest ih =>
    intro u v split
    cases u with
    | nil =>
      obtain rfl : _ = v := split
      exact ⟨_, List.suffix_rfl, .one here rest⟩
    | cons d u =>
      obtain ⟨end_, suffix, spells⟩ := ih (List.cons.inj split).2
      exact ⟨end_, suffix.trans (List.suffix_cons ..), spells⟩
  | @stop ok items w rest ih =>
    intro u v split
    obtain ⟨end_, suffix, spells⟩ := ih split
    exact ⟨end_, suffix.trans (List.suffix_cons ..), spells⟩
  | @more ok c items w here rest ih =>
    intro u v split
    cases u with
    | nil =>
      obtain rfl : _ = v := split
      exact ⟨_, List.suffix_rfl, .more here rest⟩
    | cons d u => exact ih (List.cons.inj split).2

/-- Whether a run, and then what comes after it, can begin as a text does, or the text as it does. -/
def runMeets (ok : Char → Bool) (next : List Char → Bool) : List Char → Bool
  | [] => true
  | c :: s => next (c :: s) || (ok c && runMeets ok next s)

/-- Whether a text of a form can begin as a given text does, as far as both go. -/
def meets : List Item → List Char → Bool
  | [], _ => true
  | .one _ :: _, [] => true
  | .one ok :: items, c :: s => ok c && meets items s
  | .run ok :: items, s => runMeets ok (meets items) s

/-- Two texts of which one begins the other. -/
def Agree (u v : List Char) : Prop := u <+: v ∨ v <+: u

theorem Agree.of_cons {c d : Char} {u v : List Char} (h : Agree (c :: u) (d :: v)) :
    c = d ∧ Agree u v := by
  rcases h with h | h
  · exact ⟨(List.cons_prefix_cons.mp h).1, .inl (List.cons_prefix_cons.mp h).2⟩
  · exact ⟨(List.cons_prefix_cons.mp h).1.symm, .inr (List.cons_prefix_cons.mp h).2⟩

theorem runMeets_of_next {ok : Char → Bool} {next : List Char → Bool} (h : next s = true) :
    runMeets ok next s = true := by
  cases s with
  | nil => rfl
  | cons c s => simp [runMeets, h]

theorem Spells.meets {items : List Item} (h : Spells items w) {s : List Char} (agree : Agree w s) :
    meets items s = true := by
  induction h generalizing s with
  | nil => rfl
  | one here rest ih =>
    cases s with
    | nil => rfl
    | cons c s =>
      obtain ⟨rfl, rest⟩ := agree.of_cons
      simp [Text.meets, here, ih rest]
  | stop rest ih => exact runMeets_of_next (ih agree)
  | more here rest ih =>
    cases s with
    | nil => rfl
    | cons c s =>
      obtain ⟨rfl, others⟩ := agree.of_cons
      have later := ih others
      rw [Text.meets] at later
      simp [Text.meets, runMeets, here, later]

/-! ## 3. Texts apart -/

/-- Whether no text of a form begins inside a text, where it could stand. -/
def clear (left : Bool) (items : List Item) : (before : Option Char) → List Char → Bool
  | _, [] => true
  | before, c :: n =>
    (!meets items (c :: n) || (left && inWord before)) && clear left items (some c) n

/-- Whether no occurrence of a text of a form overlaps a text: none reaches into it from before, and
none begins in it. -/
def apart (left : Bool) (items : List Item) (n : List Char) : Bool :=
  (items.tails.all fun end_ => end_.isEmpty || !meets end_ n) && clear left items none n

/-- No occurrence of a text overlaps another one: it stands before it or behind it. -/
def Apart (left : Bool) (w n : List Char) : Prop := ∀ x y l r,
  x ++ (n ++ y) = l ++ (w ++ r) → (left → inWord l.getLast? = false) →
    (∃ k, x = l ++ (w ++ k) ∧ r = k ++ (n ++ y)) ∨ ∃ k, y = k ++ (w ++ r) ∧ l = x ++ (n ++ k)

theorem agree_of_append_eq {u v a b : List Char} (h : u ++ a = v ++ b) : Agree u v := by
  rcases List.append_eq_append_iff.mp h with ⟨k, rfl, -⟩ | ⟨k, rfl, -⟩
  · exact .inl (List.prefix_append ..)
  · exact .inr (List.prefix_append ..)

/-- Nothing begins inside a text that is clear. -/
theorem not_agree_of_clear {left : Bool} {items : List Item} (h : clear left items before n = true)
    (spells : Spells items w) {n₁ n₂ : List Char} (split : n = n₁ ++ n₂) (some : n₂ ≠ [])
    (bound : left → inWord (n₁.getLast?.or before) = false) : ¬Agree w n₂ := by
  induction n generalizing before n₁ with
  | nil => exact absurd (List.append_eq_nil_iff.mp split.symm).2 some
  | cons c n ih =>
    rw [clear, Bool.and_eq_true] at h
    cases n₁ with
    | nil =>
      intro agree
      obtain rfl : c :: n = n₂ := split
      have := spells.meets agree
      cases left with
      | false => simp [this] at h
      | true => simp [this, show inWord before = false by simpa using bound rfl] at h
    | cons d n₁ =>
      obtain ⟨rfl, rest⟩ := List.cons.inj split
      refine ih h.2 rest fun isLeft => ?_
      have := bound isLeft
      rw [List.getLast?_cons] at this
      cases hlast : n₁.getLast? <;> simpa [hlast] using this

/-- Nothing occurs in a text that is clear. -/
theorem not_occurs_of_clear {items : List Item} (h : clear b.left items none s = true) (spells : Spells items w)
    (some : w ≠ []) : ¬Occurs b w s := by
  rintro ⟨l, -, rfl, r, rfl, left, -⟩
  refine not_agree_of_clear h spells rfl (by simp [some]) (fun isLeft => ?_)
    (.inl (List.prefix_append w r))
  rw [Option.or_none]
  exact left isLeft

/-- Whether a text is a part of no text of a form. -/
def absent (items : List Item) (n : List Char) : Bool :=
  items.tails.all fun end_ => end_.isEmpty || !meets end_ n

theorem not_infix_of_absent {items : List Item} (h : absent items n = true) (spells : Spells items w)
    (some : n ≠ []) : ¬n <:+: w := by
  rintro ⟨l, r, split⟩
  obtain ⟨end_, suffix, spells⟩ := spells.tail (u := l) (v := n ++ r) (by simpa using split.symm)
  have checked := List.all_eq_true.mp h end_ ((List.mem_tails ..).mpr suffix)
  rw [spells.meets (.inr (List.prefix_append n r))] at checked
  cases end_ with
  | nil =>
    cases hs : n ++ r with
    | nil => exact some (List.append_eq_nil_iff.mp hs).1
    | cons => rw [hs] at spells; cases spells
  | cons i end_ => simp at checked

/-- No occurrence overlaps a text in which none begins and which no end of the occurrence agrees with. -/
theorem Apart.of_clear {left : Bool} {items : List Item} (inside : clear left items none n = true)
    (spells : Spells items w) (ends : ∀ u v, w = u ++ v → v ≠ [] → ¬Agree v n) : Apart left w n := by
  intro x y l r split bound
  rcases List.append_eq_append_iff.mp split with ⟨k, hl, hn⟩ | ⟨k, hx, hw⟩
  · -- it begins behind what stands before
    rcases List.append_eq_append_iff.mp hn with ⟨m, hk, hy⟩ | ⟨m, hn, hw⟩
    · exact .inr ⟨m, hy, by rw [hl, hk]⟩
    · by_cases empty : m = []
      · subst empty
        exact .inr ⟨[], by simpa using hw.symm, by rw [hl, hn]; simp⟩
      · refine absurd (agree_of_append_eq hw) (not_agree_of_clear inside spells hn empty ?_)
        intro isLeft
        have := bound isLeft
        rw [hl, List.getLast?_append] at this
        cases hk : k.getLast? with
        | none => rfl
        | some c => simpa [hk] using this
  · rcases List.append_eq_append_iff.mp hw with ⟨m, hk, hr⟩ | ⟨m, hw, hn⟩
    · exact .inl ⟨m, by rw [hx, hk], hr⟩
    · by_cases empty : m = []
      · subst empty
        exact .inl ⟨[], by rw [hx, hw]; simp, by simpa using hn.symm⟩
      · exact absurd (agree_of_append_eq hn.symm) (ends k m hw empty)

theorem Apart.of_apart {left : Bool} {items : List Item} (h : apart left items n = true)
    (spells : Spells items w) : Apart left w n := by
  rw [apart, Bool.and_eq_true, List.all_eq_true] at h
  obtain ⟨tails, inside⟩ := h
  refine of_clear inside spells fun u v split some agree => ?_
  obtain ⟨end_, suffix, spells⟩ := spells.tail split
  have := tails end_ ((List.mem_tails ..).mpr suffix)
  rw [spells.meets agree] at this
  cases end_ with
  | nil => cases spells; exact some rfl
  | cons i end_ => simp at this

theorem Apart.of_exactly {left : Bool} (h : apart left (exactly w) n = true) : Apart left w n :=
  of_apart h (spells_exactly w)

/-- A text overlaps no occurrence if it is no part of one, none begins in it, and it has not the last
character of one. -/
theorem Apart.of_not_infix {left : Bool} {items : List Item} (inside : clear left items none n = true)
    (spells : Spells items w) {z : Char} (last : w.getLast? = some z) (lacks : z ∉ n)
    (absent : ¬n <:+: w) : Apart left w n := by
  refine of_clear inside spells ?_
  rintro u v rfl some (front | whole)
  · have behind : v.getLast? = Option.some z := by
      obtain ⟨c, v, rfl⟩ := List.exists_cons_of_ne_nil some
      rwa [List.getLast?_append, List.getLast?_cons, Option.some_or, ← List.getLast?_cons] at last
    exact lacks (front.subset (List.mem_of_getLast? behind))
  · exact absent (whole.isInfix.trans (List.suffix_append u v).isInfix)

/-- An occurrence ends before a text that its last character does not occur in. -/
theorem exists_of_lacks {z : Char} (last : w.getLast? = some z) {front k : List Char} (lacks : z ∉ front)
    (split : x ++ front = l ++ (w ++ k)) : ∃ m, x = l ++ (w ++ m) ∧ k = m ++ front := by
  rw [← List.append_assoc] at split
  rcases List.append_eq_append_iff.mp split with ⟨m, hw, hm⟩ | ⟨m, hx, hk⟩
  · cases m with
    | nil => exact ⟨[], by simpa using hw.symm, by simpa using hm.symm⟩
    | cons c m =>
      refine absurd ?_ lacks
      have ends : (l ++ w).getLast? = some z := by rw [List.getLast?_append, last]; rfl
      rw [hw, List.getLast?_append] at ends
      have inside : z ∈ c :: m := List.mem_of_getLast? (by
        rw [List.getLast?_cons] at ends ⊢
        simpa using ends)
      rw [hm]
      exact List.mem_append_left _ inside
  · exact ⟨m, by simpa using hx, hk⟩

/-- A text that the last character of another one does not occur in may stand in front. -/
theorem Apart.append {left : Bool} (h : Apart left w n) {z : Char} (last : w.getLast? = some z)
    {front : List Char} (lacks : z ∉ front) : Apart left w (front ++ n) := by
  intro x y l r split bound
  rw [List.append_assoc, ← List.append_assoc x] at split
  rcases h _ _ _ _ split bound with ⟨k, hx, hr⟩ | ⟨k, hy, hl⟩
  · obtain ⟨m, before, rfl⟩ := exists_of_lacks last lacks hx
    exact .inl ⟨m, before, by simp [hr]⟩
  · exact .inr ⟨k, hy, by simp [hl]⟩

theorem Apart.not_infix (h : Apart false w n) (some : w ≠ []) : ¬w <:+: n := by
  rintro ⟨l, r, split⟩
  rcases h [] [] l r (by simpa using split.symm) (by simp) with ⟨k, none, -⟩ | ⟨k, none, -⟩ <;>
    simp [some] at none

/-- Whether no occurrence of a text overlaps another one. -/
def alone (w : List Char) : Bool := clear false (exactly w) none w.tail

theorem not_agree_of_alone (h : alone w = true) {u v : List Char} (split : w = u ++ v) (front : u ≠ [])
    (some : v ≠ []) : ¬Agree w v := by
  obtain ⟨c, u, rfl⟩ := List.exists_cons_of_ne_nil front
  have behind : w.tail = u ++ v := by rw [split]; rfl
  exact not_agree_of_clear h (spells_exactly w) behind some (by simp)

/-- Two occurrences of a text that is never overlapped by itself are one after the other, or the same. -/
theorem cases_of_alone (h : alone w = true) (split : x ++ (w ++ y) = l ++ (w ++ r)) :
    (∃ k, x = l ++ (w ++ k)) ∨ (x = l ∧ y = r) ∨ ∃ k, y = k ++ (w ++ r) := by
  -- the first of them ends before the other begins, or they begin together
  have ordered : ∀ {x y l r : List Char}, x ++ (w ++ y) = l ++ (w ++ r) → ∀ k, l = x ++ k →
      (x = l ∧ y = r) ∨ ∃ m, y = m ++ (w ++ r) ∧ l = x ++ (w ++ m) := by
    rintro x y - r split k rfl
    rw [List.append_assoc] at split
    rcases List.append_eq_append_iff.mp (List.append_cancel_left split) with ⟨m, rfl, hy⟩ | ⟨m, hw, hr⟩
    · exact .inr ⟨m, hy, rfl⟩
    · by_cases together : k = []
      · subst together
        exact .inl ⟨by simp, by simpa using split⟩
      · by_cases behind : m = []
        · subst behind
          exact .inr ⟨[], by simpa using hr.symm, by simp [hw]⟩
        · exact absurd (agree_of_append_eq hr) (not_agree_of_alone h hw together behind)
  rcases List.append_eq_append_iff.mp split with ⟨k, later, -⟩ | ⟨k, earlier, -⟩
  · rcases ordered split k later with same | ⟨m, hy, -⟩
    · exact .inr (.inl same)
    · exact .inr (.inr ⟨m, hy⟩)
  · rcases ordered split.symm k earlier with ⟨hl, hr⟩ | ⟨m, -, hx⟩
    · exact .inr (.inl ⟨hl.symm, hr.symm⟩)
    · exact .inl ⟨m, hx⟩

/-! ## 4. Changes -/

/-- Whether a character that touches a word is put only where one was that touches it. -/
def edge (old new : Option Char) : Bool := old.isSome && new.isSome && (!inWord old || inWord new)

/-- Whether putting a text in the place of another brings forth no occurrence of a text of a form. -/
def safe (b : Bounds) (items : List Item) (o n : List Char) : Bool :=
  apart b.left items n && (!b.left || edge o.getLast? n.getLast?) && (!b.right || edge o.head? n.head?)

theorem edge_eq_true {old new : Option Char} : edge old new = true ↔
    ∃ x y, old = some x ∧ new = some y ∧ (isWord x = true → isWord y = true) := by
  cases old <;> cases new <;> simp [edge, inWord, imp_iff_not_or]

/-- What ends with a word character ends so also with something else in the place of its end. -/
theorem inWord_of_edge {o n : List Char} (h : edge o.getLast? n.getLast? = true) (x k : List Char) :
    inWord (x ++ (o ++ k)).getLast? = true → inWord (x ++ (n ++ k)).getLast? = true := by
  obtain ⟨c, d, old, new, words⟩ := edge_eq_true.mp h
  simp only [List.getLast?_append, old, new]
  cases k.getLast? with
  | some c => exact id
  | none => exact words

/-- What begins with a word character begins so also with something else in the place of its beginning. -/
theorem inWord_of_edge_head {o n : List Char} (h : edge o.head? n.head? = true)
    (k y y' : List Char) :
    inWord (k ++ (o ++ y)).head? = true → inWord (k ++ (n ++ y')).head? = true := by
  obtain ⟨c, d, old, new, words⟩ := edge_eq_true.mp h
  simp only [List.head?_append, old, new]
  cases k.head? with
  | some c => exact id
  | none => exact words

/-- Putting a text in the place of another brings forth no occurrence of a third one. -/
def Safe (b : Bounds) (w o n : List Char) : Prop :=
  ∀ x y, Occurs b w (x ++ (n ++ y)) → Occurs b w (x ++ (o ++ y))

theorem Safe.refl (b : Bounds) (w n : List Char) : Safe b w n n := fun _ _ h => h

/-- It is safe to put a text that an occurrence cannot overlap, and that touches a word only where the old
text did. -/
theorem Safe.of_apart (apart : Apart b.left w n) (last : b.left → edge o.getLast? n.getLast? = true)
    (head : b.right → edge o.head? n.head? = true) : Safe b w o n := by
  rintro x y ⟨l, -, split, r, rfl, left, right⟩
  rcases apart _ _ _ _ split left with ⟨k, rfl, rfl⟩ | ⟨k, rfl, rfl⟩
  · refine ⟨l, w ++ (k ++ (o ++ y)), by simp, k ++ (o ++ y), rfl, left, fun isRight => ?_⟩
    exact Bool.eq_false_iff.mpr fun old =>
      Bool.eq_false_iff.mp (right isRight) (inWord_of_edge_head (head isRight) k y y old)
  · refine ⟨x ++ (o ++ k), w ++ r, by simp, r, rfl, fun isLeft => ?_, right⟩
    exact Bool.eq_false_iff.mpr fun old =>
      Bool.eq_false_iff.mp (left isLeft) (inWord_of_edge (last isLeft) x k old)

/-- What `safe` decides. -/
theorem of_safe_eq_true {items : List Item} (h : safe b items o n = true) (spells : Spells items w) :
    Apart b.left w n ∧ (b.left → edge o.getLast? n.getLast? = true) ∧
      (b.right → edge o.head? n.head? = true) := by
  simp only [safe, Bool.and_eq_true, Bool.or_eq_true, Bool.not_eq_true'] at h
  obtain ⟨⟨apart, last⟩, head⟩ := h
  exact ⟨Apart.of_apart apart spells, fun isLeft => last.resolve_left (by simp [isLeft]),
    fun isRight => head.resolve_left (by simp [isRight])⟩

theorem Safe.of_safe {items : List Item} (h : safe b items o n = true) (spells : Spells items w) :
    Safe b w o n :=
  have ⟨apart, last, head⟩ := of_safe_eq_true h spells
  of_apart apart last head

/-- What stands around both texts does not count. -/
theorem Safe.around (h : Safe b w o n) (u v : List Char) :
    Safe b w (u ++ (o ++ v)) (u ++ (n ++ v)) := by
  intro x y occurs
  have := h (x ++ u) (v ++ y) (by simpa using occurs)
  simpa using this

/-- What is left of two texts without what both begin with. -/
def stripped : List Char → List Char → List Char × List Char
  | c :: o, d :: n => if c = d then stripped o n else (c :: o, d :: n)
  | o, n => (o, n)

theorem exists_stripped (o n : List Char) :
    ∃ u, o = u ++ (stripped o n).1 ∧ n = u ++ (stripped o n).2 := by
  fun_induction stripped o n with
  | case1 o d n ih =>
    obtain ⟨u, old, new⟩ := ih
    exact ⟨d :: u, congrArg (d :: ·) old, congrArg (d :: ·) new⟩
  | case2 c o d n _ => exact ⟨[], rfl, rfl⟩
  | case3 o n _ => exact ⟨[], rfl, rfl⟩

/-- What is left of two texts without what both begin and end with. -/
def core (o n : List Char) : List Char × List Char :=
  let (o, n) := stripped o n
  let (o, n) := stripped o.reverse n.reverse
  (o.reverse, n.reverse)

theorem exists_core (o n : List Char) :
    ∃ u v, o = u ++ ((core o n).1 ++ v) ∧ n = u ++ ((core o n).2 ++ v) := by
  obtain ⟨u, old, new⟩ := exists_stripped o n
  obtain ⟨v, old', new'⟩ := exists_stripped (stripped o n).1.reverse (stripped o n).2.reverse
  have old' := congrArg List.reverse old'
  have new' := congrArg List.reverse new'
  simp only [List.reverse_reverse, List.reverse_append] at old' new'
  exact ⟨u, v.reverse, old.trans (congrArg (u ++ ·) old'), new.trans (congrArg (u ++ ·) new')⟩

/-- Whether putting a text in the place of another is safe, as a whole or between what both begin and end
with. -/
def harmless (b : Bounds) (items : List Item) (o n : List Char) : Bool :=
  o == n || safe b items o n || safe b items (core o n).1 (core o n).2

theorem Safe.of_harmless {items : List Item} (h : harmless b items o n = true) (spells : Spells items w) :
    Safe b w o n := by
  rw [harmless, Bool.or_eq_true, Bool.or_eq_true] at h
  rcases h with (same | whole) | between
  · exact beq_iff_eq.mp same ▸ Safe.refl b w o
  · exact Safe.of_safe whole spells
  · obtain ⟨u, v, old, new⟩ := exists_core o n
    have whole := (Safe.of_safe between spells).around u v
    rwa [← old, ← new] at whole

/-! ## 5. Sweeps -/

/-- What a sweep puts in the place of something is not overlapped by a text, and touches a word only
where the old text did. -/
def Swap.Evades (swap : Swap) (b : Bounds) (w : List Char) : Prop := ∀ before old new rest,
  swap before old new rest → Apart b.left w new ∧
    (b.left → edge old.getLast? new.getLast? = true) ∧ (b.right → edge old.head? new.head? = true)

theorem inWord_or {c d : Option Char} (touch : inWord c = true → inWord d = true) (l : List Char)
    (after : inWord (l.getLast?.or d) = false) : inWord (l.getLast?.or c) = false := by
  cases last : l.getLast? with
  | some x => simpa [last] using after
  | none =>
    simp only [last, Option.none_or] at after ⊢
    exact Bool.eq_false_iff.mpr fun old => Bool.eq_false_iff.mp after (touch old)

/-- What holds at every place in a text that was kept, behind a character and before what is still to come. -/
def Kept (P : Stay) (c : Option Char) (k s : List Char) : Prop :=
  ∀ k₁ k₂, k = k₁ ++ k₂ → k₂ ≠ [] → P (k₁.getLast?.or c) (k₂ ++ s)

theorem Kept.nil {P : Stay} {c : Option Char} {s : List Char} : Kept P c [] s :=
  fun _ _ split some => absurd (List.append_eq_nil_iff.mp split.symm).2 some

/-- One more character is kept. -/
theorem Kept.snoc {P : Stay} {k : List Char} {c : Option Char} {x : Char} (h : Kept P c k (x :: s))
    (here : P (k.getLast?.or c) (x :: s)) : Kept P c (k ++ [x]) s := by
  intro k₁ k₂ split some
  rcases List.append_eq_append_iff.mp split with ⟨m, rfl, single⟩ | ⟨m, rfl, rfl⟩
  · -- the character is the last one that was kept
    cases m with
    | nil =>
      obtain rfl : [x] = k₂ := by simpa using single
      simpa using here
    | cons y m =>
      exact absurd (List.append_eq_nil_iff.mp (List.cons.inj single).2.symm).2 some
  · by_cases empty : m = []
    · subst empty
      simpa using here
    · simpa using h k₁ m rfl empty

/-- What begins in the text that was kept, or in what is still to come, began there before. Here `k` was
kept since the last change; `c` stood before it, and `d` stands before it now. -/
theorem Sweep.not_begins {swap : Swap} {stay : Stay} {count : Nat} (some : w ≠ [])
    (absent : ∀ before s, stay before s → ¬Begins b w before s) (evades : swap.Evades b w)
    (h : Sweep swap stay before s t count) {k : List Char} {c d : Option Char}
    (place : before = k.getLast?.or c) (touch : b.left → inWord c = true → inWord d = true)
    (kept : Kept (fun before s => ¬Begins b w before s) c k s) :
    ∀ l r, k ++ t = l ++ r → ¬Begins b w (l.getLast?.or d) r := by
  induction h generalizing k c d with
  | done =>
    rintro l - split ⟨r, rfl, left, right⟩
    rw [List.append_nil] at split
    refine kept l (w ++ r) split (by simp [some]) ⟨r, by simp, fun isLeft => ?_, right⟩
    exact inWord_or (touch isLeft) l (left isLeft)
  | @keep before x s t count here rest ih =>
    intro l r split
    exact ih (k := k ++ [x]) (c := c) (d := d) (by simp) touch
      (kept.snoc (place ▸ absent _ _ here)) l r (by simpa using split)
  | @swap before old new s t count here _ rest ih =>
    rintro l - split ⟨r, rfl, left, right⟩
    obtain ⟨apart, last, head⟩ := evades _ _ _ _ here
    have bound : b.left → inWord l.getLast? = false := by
      intro isLeft
      have := left isLeft
      cases hl : l.getLast? with
      | none => rfl
      | some x => simpa [hl] using this
    rcases apart _ _ _ _ split bound with ⟨m, rfl, rfl⟩ | ⟨m, rfl, rfl⟩
    · refine kept l (w ++ m) rfl (by simp [some]) ⟨m ++ (old ++ s), by simp, fun isLeft => ?_,
        fun isRight => ?_⟩
      · exact inWord_or (touch isLeft) l (left isLeft)
      · exact Bool.eq_false_iff.mpr fun before =>
          Bool.eq_false_iff.mp (right isRight) (inWord_of_edge_head (head isRight) m s t before)
    · -- it begins behind the change, where nothing was kept yet
      have context : (k ++ (new ++ m)).getLast?.or d = m.getLast?.or (new.getLast?.or (k.getLast?.or d)) := by
        simp only [List.getLast?_append, Option.or_assoc]
      refine ih (k := []) (c := old.getLast?.or before) (d := new.getLast?.or (k.getLast?.or d)) rfl
        (fun isLeft => ?_) .nil m (w ++ r) rfl ⟨r, rfl, fun isLeft => context ▸ left isLeft, right⟩
      obtain ⟨x, y, hold, hnew, words⟩ := edge_eq_true.mp (last isLeft)
      rw [hold, hnew]
      exact words

/-- A text is gone after a sweep that looks for it at every place and puts nothing in the place of
something that it overlaps. -/
theorem Sweep.not_occurs {swap : Swap} {stay : Stay} {count : Nat} (some : w ≠ [])
    (absent : ∀ before s, stay before s → ¬Begins b w before s) (evades : swap.Evades b w)
    (h : Sweep swap stay none s t count) : ¬Occurs b w t := by
  rintro ⟨l, r, rfl, begins⟩
  exact h.not_begins some absent evades (k := []) (c := none) (d := none) rfl (fun _ => id) .nil l r rfl
    (by simpa using begins)

/-! ## 6. Chains -/

section Chains

variable {a f c : List Char} {z : Char} (last : f.getLast? = some z) (once : z ∉ f.dropLast)
  (apart : Apart false (a ++ f) c)

include last once apart

/-- An occurrence of `a ++ f` that meets `f ++ c` shares the `f` with it. -/
theorem eq_of_chain (split : x ++ (f ++ (c ++ y)) = l ++ ((a ++ f) ++ r)) :
    (∃ k, x = l ++ ((a ++ f) ++ k)) ∨ x = l ++ a ∨ ∃ k, y = k ++ ((a ++ f) ++ r) := by
  obtain ⟨front, rfl⟩ := List.getLast?_eq_some_iff.mp last
  rw [← List.append_assoc] at split
  rcases apart _ _ _ _ split (by simp) with ⟨k, hx, -⟩ | ⟨k, hy, -⟩
  · -- it ends where `f` does, or before `f` begins
    rcases List.eq_nil_or_concat k with rfl | ⟨k, d, rfl⟩
    · exact .inr (.inl (List.append_cancel_right (by simpa using hx)))
    · have whole : (x ++ front) ++ [z] = (l ++ ((a ++ (front ++ [z])) ++ k)) ++ [d] := by simpa using hx
      have shorter := List.append_inj_left' whole rfl
      rw [List.dropLast_concat] at once
      obtain ⟨m, before, -⟩ := exists_of_lacks (w := a ++ (front ++ [z])) (by simp) once shorter
      exact .inl ⟨m, before⟩
  · exact .inr (.inr ⟨k, hy⟩)

/-- Replacing `a ++ f` by `f ++ c` leaves no occurrence of it where there was none behind another `a`. Here
`k` was kept since the last change. -/
theorem Sweep.not_chain {swap : Swap} {stay : Stay} {count : Nat} (h : Sweep swap stay before s t count)
    (swaps : ∀ before old new rest, swap before old new rest → old = a ++ f ∧ new = f ++ c)
    (stays : ∀ before s, stay before s → ¬Begins free (a ++ f) before s) {k : List Char}
    (kept : Kept (fun before s => ¬Begins free (a ++ f) before s) none k s)
    (chain : ¬a ++ (a ++ f) <:+: k ++ s) : ¬a ++ f <:+: k ++ t := by
  have begins : ∀ {before : Option Char} {r : List Char}, Begins free (a ++ f) before ((a ++ f) ++ r) :=
    fun {_ r} => ⟨r, rfl, by simp [free]⟩
  have some : ∀ r, (a ++ f) ++ r ≠ [] := by
    intro r empty
    simp only [List.append_eq_nil_iff] at empty
    simp [empty.1.2] at last
  induction h generalizing k with
  | done =>
    rintro ⟨l, r, split⟩
    rw [List.append_nil] at split
    refine kept l ((a ++ f) ++ r) (by simpa using split.symm) (some r) ?_
    simpa using begins
  | @keep before x s t count here rest ih =>
    have goesOn := ih (k := k ++ [x]) (kept.snoc ?_) (by simpa using chain)
    · simpa using goesOn
    · exact fun ⟨r, split, _⟩ => stays before _ here ⟨r, split, by simp [free]⟩
  | @swap before old new s t count here _ rest ih =>
    obtain ⟨rfl, rfl⟩ := swaps _ _ _ _ here
    rintro ⟨l, r, split⟩
    have split : k ++ (f ++ (c ++ t)) = l ++ ((a ++ f) ++ r) := by simpa using split.symm
    rcases eq_of_chain last once apart split with ⟨m, rfl⟩ | rfl | ⟨m, rfl⟩
    · refine kept l ((a ++ f) ++ m) rfl (some m) ?_
      simpa using begins
    · exact chain ⟨l, s, by simp⟩
    · refine ih (k := []) .nil ?_ ⟨m, r, by simp⟩
      exact fun occurs => chain (occurs.trans ⟨k ++ (a ++ f), [], by simp⟩)

end Chains

end ModelLoading.Text
