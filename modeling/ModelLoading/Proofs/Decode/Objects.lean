import Mathlib.Data.List.Chain
import ModelLoading.Decode.Program

/-!
# What an object table holds

A sequence of accesses to an object table, failed ones included, is followed entry by entry (`entries`). What
a slot holds is told by the entries alone: the object that the last entry to change the slot stored there
(`Held`). `Tracks` says that the table agrees with the entries so far; every access keeps it, so every answer
in a sequence is the one that the entries before it call for (`Entry.Exact`).

An access either changes nothing or alters one slot or adds one (`perform_cases`); the rest is about lists
of entries.
-/

namespace ModelLoading.Decode

variable {κ : Type} [ObjectKind κ]

/-! ## 1. Objects and slots -/

theorem Object.as?_eq_some_iff {o : Object κ} {k : κ} {v : ObjectKind.Value k} :
    o.as? k = some v ↔ o = ⟨k, v⟩ := by
  obtain ⟨kind, value⟩ := o
  unfold as?
  by_cases same : kind = k
  · subst same
    simp
  · simp [same]

theorem Object.as?_eq_none_iff {o : Object κ} {k : κ} : o.as? k = none ↔ o.kind ≠ k := by
  simp [as?]

namespace ObjectTable

variable {t : ObjectTable κ} {k : κ} {o : Object κ} {index i : Nat} {slot : Option (Object κ)}

@[simp] theorem size_push : (t.push o).size = t.size + 1 := by simp [push, size]

@[simp] theorem size_put : (t.put index slot).size = t.size := by simp [put, size]

theorem slots_push : (t.push o).slots[i]? = if i = t.size then some (some o) else t.slots[i]? :=
  Array.getElem?_push

theorem slots_put (inside : index < t.size) :
    (t.put index slot).slots[i]? = if i = index then some slot else t.slots[i]? := by
  unfold size at inside
  by_cases same : i = index
  · subst same
    simp [put, inside]
  · simp [put, same, Array.getElem?_setIfInBounds_ne (Ne.symm same)]

theorem put_put (first : Option (Object κ)) : (t.put index first).put index slot = t.put index slot := by
  simp [put, Array.setIfInBounds_setIfInBounds]

/-- A slot that gets what it has is as it was. -/
theorem put_self (here : t.slots[index]? = some slot) : t.put index slot = t := by
  obtain ⟨slots⟩ := t
  obtain ⟨inside, rfl⟩ := Array.getElem?_eq_some_iff.mp here
  simp [put, Array.setIfInBounds, inside]

theorem lt_size (here : t.slots[index]? = some slot) : index < t.size :=
  (Array.getElem?_eq_some_iff.mp here).1

/-! Each access to an index is decided by its slot. -/

theorem get_of_present (here : t.slots[index]? = some (some o)) :
    t.get o.kind index = .ok o.value := by
  have as? : o.as? o.kind = some o.value := Object.as?_eq_some_iff.mpr rfl
  simp only [get, here, as?]

theorem get_of_other (here : t.slots[index]? = some (some o)) (other : o.kind ≠ k) :
    t.get k index = .error (.objectType index (ObjectKind.name k)) := by
  simp only [get, here, Object.as?_eq_none_iff.mpr other]

theorem get_of_absent (absent : ¬∃ o, t.slots[index]? = some (some o)) :
    t.get k index = .error (.missingObject index) := by
  unfold get
  split
  · rename_i o here
    exact absurd ⟨o, here⟩ absent
  · rfl

/-- An object is taken out where it could be read. -/
theorem take_of_present (here : t.slots[index]? = some (some o)) :
    t.take o.kind index = (.ok o.value, t.put index none) := by
  have as? : o.as? o.kind = some o.value := Object.as?_eq_some_iff.mpr rfl
  simp only [take, here, as?]

/-- Where an object cannot be read, it cannot be taken out either, and the table is as it was. -/
theorem take_of_get_error {e : Error} (fails : t.get k index = .error e) :
    t.take k index = (.error e, t) := by
  unfold get at fails
  unfold take
  split at fails
  · rename_i o here
    rw [here]
    cases as? : o.as? k with
    | some v => simp [as?] at fails
    | none =>
      simp only [as?, Except.error.injEq] at fails
      simp only [fails, put_put, put_self here, as?]
  · rename_i absent
    cases Except.error.inj fails
    split
    · rfl
    · rename_i slot here
      cases slot with
      | some o => exact absurd here (absent o)
      | none => simp only [put_self here]

end ObjectTable

/-! ## 2. Accesses -/

/-- An access to an object table. -/
inductive Access (κ : Type) [ObjectKind κ] where
  /-- Stores an object in a new slot. -/
  | push (o : Object κ)
  /-- Announces a number of objects. -/
  | reserve (count : Nat)
  /-- Reads an object of a kind. -/
  | get (k : κ) (index : Nat)
  /-- Overwrites an object by one of its kind. -/
  | set (o : Object κ) (index : Nat)
  /-- Moves an object of a kind out of the table. -/
  | take (k : κ) (index : Nat)

/-- The answer to an access. -/
inductive Answer (κ : Type) [ObjectKind κ] where
  /-- It was done, and there is nothing to return. -/
  | done
  /-- The index of a new object. -/
  | index (n : Nat)
  /-- An object. -/
  | object (o : Object κ)
  /-- The access failed. -/
  | refused (cause : Error)

/-- The answer to an access that may fail. -/
def Answer.of {α : Type} (make : α → Answer κ) : Except Error α → Answer κ
  | .ok v => make v
  | .error cause => .refused cause

/-- Performs an access. -/
def ObjectTable.perform (t : ObjectTable κ) : Access κ → Answer κ × ObjectTable κ
  | .push o => (.index t.size, t.push o)
  | .reserve count => (.done, t.reserve count)
  | .get k index => (.of (fun v => .object ⟨k, v⟩) (t.get k index), t)
  | .set o index => (.of (fun _ => .done) (t.set o index).1, (t.set o index).2)
  | .take k index => (.of (fun v => .object ⟨k, v⟩) (t.take k index).1, (t.take k index).2)

namespace Access

/-- The kind and the index that an access names. -/
def names? : Access κ → Option (κ × Nat)
  | push _ | reserve _ => none
  | get k index | take k index => some (k, index)
  | set o index => some (o.kind, index)

/-- The answer to an access that names an object of its own kind. -/
def granted : Access κ → Object κ → Answer κ
  | set .., _ => .done
  | _, o => .object o

theorem granted_ne_refused (a : Access κ) {o : Object κ} {cause : Error} :
    a.granted o ≠ .refused cause := by
  cases a <;> exact fun same => by cases same

end Access

/-- One access of a sequence: the table before, the answer, and the table behind it. -/
structure Entry (κ : Type) [ObjectKind κ] where
  access : Access κ
  before : ObjectTable κ
  answer : Answer κ
  after : ObjectTable κ

namespace Entry

/-- The entry of an access to a table. -/
def of (t : ObjectTable κ) (a : Access κ) : Entry κ := ⟨a, t, (t.perform a).1, (t.perform a).2⟩

/-- Whether a new slot was made. -/
def pushes (e : Entry κ) : Bool :=
  match e.access with
  | .push _ => true
  | _ => false

/-- The object that was stored, and its index. -/
def stored? (e : Entry κ) : Option (Nat × Object κ) :=
  match e.access, e.answer with
  | .push o, .index n => some (n, o)
  | .set o index, .done => some (index, o)
  | _, _ => none

/-- Whether the object of an index was moved out. -/
def takes (index : Nat) (e : Entry κ) : Bool :=
  match e.access, e.answer with
  | .take _ place, .object _ => place == index
  | _, _ => false

/-- Whether the slot of an index was changed. -/
def changes (index : Nat) (e : Entry κ) : Bool :=
  e.takes index || e.stored?.any (·.1 == index)

end Entry

/-- Accesses one after another, behind failed ones too. -/
def entries : List (Access κ) → ObjectTable κ → List (Entry κ)
  | [], _ => []
  | a :: accesses, t => .of t a :: entries accesses (Entry.of t a).after

/-- By what happened so far, the slot of an index holds an object: the last entry that changed the slot
stored it there. -/
def Held (past : List (Entry κ)) (index : Nat) (o : Object κ) : Prop :=
  ∃ e, (past.filter (·.changes index)).getLast? = some e ∧ e.stored? = some (index, o)

/-- By what happened so far, the object of an index was moved out. -/
def Taken (past : List (Entry κ)) (index : Nat) : Prop := ∃ e ∈ past, e.takes index

/-- What is true of an entry behind others, whatever was asked for. -/
structure Entry.Exact (past : List (Entry κ)) (e : Entry κ) : Prop where
  /-- The entry is that of its access to the table before. -/
  made : e = .of e.before e.access
  /-- There is one slot for each object that was pushed. -/
  counted : e.before.size = past.countP pushes
  /-- A new object gets the next index. -/
  pushed : ∀ o, e.access = .push o →
    e.answer = .index e.before.size ∧ e.after.size = e.before.size + 1
  /-- No other access makes or removes a slot. -/
  unpushed : e.pushes = false → e.after.size = e.before.size
  /-- An announcement changes nothing. -/
  reserved : ∀ count, e.access = .reserve count → e.answer = .done ∧ e.after = e.before
  /-- A slot was handed out, and then it holds its object or its object was taken, and not both. -/
  present : ∀ index, (∃ o, Held past index o) ↔ index < e.before.size ∧ ¬Taken past index
  /-- The slot of an index that holds an object holds no other. -/
  single : ∀ index o o', Held past index o → Held past index o' → o = o'
  /-- An object of the kind that is asked for is the answer, or is overwritten. -/
  granted : ∀ k index, e.access.names? = some (k, index) →
    ∀ o, Held past index o → o.kind = k → e.answer = e.access.granted o
  /-- Another kind is refused, and nothing else is refused for its kind. -/
  other : ∀ k index, e.access.names? = some (k, index) →
    (e.answer = .refused (.objectType index (ObjectKind.name k)) ↔ ∃ o, Held past index o ∧ o.kind ≠ k)
  /-- What is not there, or no more, is missing for every kind, and nothing else is. -/
  missing : ∀ k index, e.access.names? = some (k, index) →
    (e.answer = .refused (.missingObject index) ↔ e.before.size ≤ index ∨ Taken past index)
  /-- A failed access leaves all slots as they were. -/
  refused : ∀ cause, e.answer = .refused cause → e.after = e.before

/-! ## 3. What one access does -/

section Accesses

variable {t : ObjectTable κ} {past : List (Entry κ)} {e : Entry κ} {k : κ} {index i : Nat} {o : Object κ}

/-- An access to an index is granted for the object there, if it has the kind, and refused otherwise. -/
inductive Reached (t : ObjectTable κ) (a : Access κ) (k : κ) (index : Nat) : Prop
  | granted (o : Object κ) (here : t.slots[index]? = some (some o)) (same : o.kind = k)
      (answer : (t.perform a).1 = a.granted o)
  | other (o : Object κ) (here : t.slots[index]? = some (some o)) (other : o.kind ≠ k)
      (answer : (t.perform a).1 = .refused (.objectType index (ObjectKind.name k)))
      (after : (t.perform a).2 = t)
  | missing (absent : ¬∃ o, t.slots[index]? = some (some o))
      (answer : (t.perform a).1 = .refused (.missingObject index)) (after : (t.perform a).2 = t)

theorem ObjectTable.perform_of_get_error {a : Access κ} (names : a.names? = some (k, index)) {cause : Error}
    (fails : t.get k index = .error cause) : t.perform a = (.refused cause, t) := by
  cases a with
  | push | reserve => cases names
  | get =>
    cases names
    simp only [perform, fails, Answer.of]
  | set =>
    cases names
    simp only [perform, set, fails, Answer.of]
  | take =>
    cases names
    simp only [perform, take_of_get_error fails, Answer.of]

theorem ObjectTable.fst_perform_of_present {a : Access κ} (names : a.names? = some (k, index))
    (here : t.slots[index]? = some (some o)) (same : o.kind = k) : (t.perform a).1 = a.granted o := by
  cases a with
  | push | reserve => cases names
  | get =>
    cases names
    subst same
    simp only [perform, get_of_present here, Answer.of, Access.granted]
  | set new =>
    cases names
    have reads : ∃ old, t.get new.kind index = .ok old := same ▸ ⟨_, get_of_present here⟩
    obtain ⟨old, reads⟩ := reads
    simp only [perform, set, reads, Answer.of, Access.granted]
  | take =>
    cases names
    subst same
    simp only [perform, take_of_present here, Answer.of, Access.granted]

theorem ObjectTable.reached (t : ObjectTable κ) {a : Access κ} (names : a.names? = some (k, index)) :
    Reached t a k index := by
  by_cases present : ∃ o, t.slots[index]? = some (some o)
  · obtain ⟨o, here⟩ := present
    by_cases same : o.kind = k
    · exact .granted o here same (fst_perform_of_present names here same)
    · have refused := perform_of_get_error names (get_of_other here same)
      exact .other o here same (congrArg Prod.fst refused) (congrArg Prod.snd refused)
  · have refused := perform_of_get_error names (get_of_absent present)
    exact .missing present (congrArg Prod.fst refused) (congrArg Prod.snd refused)

/-- What an entry did to the table: nothing, or a slot was added, or one that held an object was altered. -/
inductive Entry.Did (e : Entry κ) : Prop
  | nothing (pushes : e.pushes = false) (stored : e.stored? = none) (takes : ∀ i, e.takes i = false)
      (after : e.after = e.before)
  | added (o : Object κ) (pushes : e.pushes = true) (stored : e.stored? = some (e.before.size, o))
      (takes : ∀ i, e.takes i = false) (after : e.after = e.before.push o)
  | altered (index : Nat) (old : Object κ) (slot : Option (Object κ))
      (present : e.before.slots[index]? = some (some old)) (pushes : e.pushes = false)
      (stored : e.stored? = slot.map fun o => (index, o))
      (takes : ∀ i, e.takes i = (slot.isNone && index == i)) (after : e.after = e.before.put index slot)

theorem Entry.did_of (t : ObjectTable κ) (a : Access κ) : (Entry.of t a).Did := by
  cases a with
  | push o => exact .added o rfl rfl (fun _ => rfl) rfl
  | reserve count => exact .nothing rfl rfl (fun _ => rfl) rfl
  | get k index =>
    refine .nothing rfl ?_ (fun _ => rfl) rfl
    unfold stored?
    split <;> simp_all [Entry.of]
  | set o index =>
    cases reads : t.get o.kind index with
    | ok old =>
      have done : t.perform (.set o index) = (.done, t.put index (some o)) := by
        simp only [ObjectTable.perform, ObjectTable.set, reads, Answer.of]
      obtain ⟨old, present⟩ : ∃ old, t.slots[index]? = some (some old) := by
        by_contra absent
        rw [ObjectTable.get_of_absent absent] at reads
        cases reads
      have entry : Entry.of t (.set o index) = ⟨.set o index, t, .done, t.put index (some o)⟩ := by
        rw [Entry.of, done]
      rw [entry]
      exact .altered index old (some o) present rfl rfl (fun _ => rfl) rfl
    | error cause =>
      have entry : Entry.of t (.set o index) = ⟨.set o index, t, .refused cause, t⟩ := by
        rw [Entry.of, ObjectTable.perform_of_get_error rfl reads]
      rw [entry]
      exact .nothing rfl rfl (fun _ => rfl) rfl
  | take k index =>
    rcases t.reached (a := .take k index) rfl with ⟨o, here, rfl, -⟩ | ⟨-, -, -, answer, after⟩ | ⟨-, answer, after⟩
    · have entry : Entry.of t (.take o.kind index) =
          ⟨.take o.kind index, t, .object o, t.put index none⟩ := by
        rw [Entry.of]
        simp only [ObjectTable.perform, ObjectTable.take_of_present here, Answer.of]
      rw [entry]
      exact .altered index o none here rfl rfl (fun _ => rfl) rfl
    · rw [Entry.of, answer, after]
      exact .nothing rfl rfl (fun _ => rfl) rfl
    · rw [Entry.of, answer, after]
      exact .nothing rfl rfl (fun _ => rfl) rfl

end Accesses

/-! ## 4. What the entries so far tell -/

section Histories

variable {past : List (Entry κ)} {t : ObjectTable κ} {e : Entry κ} {i : Nat} {o : Object κ}

/-- Behind a further entry a slot holds what that entry stored there, or what it held. -/
theorem held_concat : Held (past ++ [e]) i o ↔
    if e.changes i then e.stored? = some (i, o) else Held past i o := by
  unfold Held
  rw [List.filter_append]
  cases changed : e.changes i with
  | true => simp [changed]
  | false => simp [changed]

theorem taken_concat : Taken (past ++ [e]) i ↔ Taken past i ∨ e.takes i := by
  simp [Taken, or_and_right, exists_or]

/-- A table agrees with the entries so far. -/
structure Tracks (past : List (Entry κ)) (t : ObjectTable κ) : Prop where
  size : t.size = past.countP Entry.pushes
  holds : ∀ i o, t.slots[i]? = some (some o) ↔ Held past i o
  empty : ∀ i, t.slots[i]? = some none ↔ Taken past i
  once : ∀ i, past.countP (Entry.takes i) ≤ 1

theorem tracks_nil : Tracks [] ({} : ObjectTable κ) where
  size := rfl
  holds := by simp [Held]
  empty := by simp [Taken]
  once := by simp

namespace Tracks

variable (h : Tracks past t)

include h

/-- An object that is there was not taken. -/
theorem not_taken (here : t.slots[i]? = some (some o)) : ¬Taken past i := by
  intro taken
  rw [(h.empty i).mpr taken] at here
  cases here

theorem countP_takes (here : t.slots[i]? = some (some o)) : past.countP (Entry.takes i) = 0 :=
  List.countP_eq_zero.mpr fun e inside takes => h.not_taken here ⟨e, inside, takes⟩

/-- A further entry that takes nothing out leaves the counts. -/
theorem once_concat (takes : ∀ i, e.takes i = false) (i : Nat) :
    (past ++ [e]).countP (Entry.takes i) ≤ 1 := by
  simpa [List.countP_append, takes i] using h.once i

/-- A table agrees with the entries up to the last access. -/
theorem concat (a : Access κ) : Tracks (past ++ [.of t a]) (Entry.of t a).after := by
  have before : (Entry.of t a).before = t := rfl
  generalize entry : Entry.of t a = e at before
  have did : e.Did := entry ▸ Entry.did_of t a
  subst before
  rcases did with ⟨pushes, stored, takes, after⟩ | ⟨o, pushes, stored, takes, after⟩ |
    ⟨index, old, slot, present, pushes, stored, takes, after⟩
  · -- nothing was changed
    have changes : ∀ i, e.changes i = false := fun i => by simp [Entry.changes, stored, takes]
    rw [after]
    refine ⟨?_, fun i o => ?_, fun i => ?_, h.once_concat takes⟩
    · simp [h.size, List.countP_append, pushes]
    · simpa [held_concat, changes] using h.holds i o
    · simpa [taken_concat, takes] using h.empty i
  · -- a slot was added
    have changes : ∀ i, e.changes i = (e.before.size == i) := fun i => by
      simp [Entry.changes, stored, takes]
    have none : e.before.slots[e.before.size]? = none := Array.getElem?_size
    rw [after]
    refine ⟨?_, fun i o' => ?_, fun i => ?_, h.once_concat takes⟩
    · simp [h.size, List.countP_append, pushes]
    · rw [held_concat, changes, stored, ObjectTable.slots_push]
      by_cases same : i = e.before.size
      · simp [same]
      · simpa [same, Ne.symm same] using h.holds i o'
    · rw [taken_concat, takes, ObjectTable.slots_push, ← h.empty i]
      by_cases same : i = e.before.size
      · simp [same, none]
      · simp [same]
  · -- a slot that held an object was overwritten or emptied
    have changes : ∀ i, e.changes i = (index == i) := fun i => by
      cases slot <;> simp [Entry.changes, stored, takes]
    have inside := ObjectTable.lt_size present
    rw [after]
    refine ⟨?_, fun i o' => ?_, fun i => ?_, fun i => ?_⟩
    · simp [h.size, List.countP_append, pushes]
    · rw [held_concat, changes, stored, ObjectTable.slots_put inside]
      by_cases same : i = index
      · simp [same]
      · simpa [same, Ne.symm same] using h.holds i o'
    · rw [taken_concat, takes, ObjectTable.slots_put inside, ← h.empty i]
      by_cases same : i = index
      · simp [same, present]
      · simp [same, Ne.symm same]
    · rw [List.countP_append, List.countP_singleton, takes]
      by_cases same : index = i
      · subst same
        cases slot <;> simp [h.countP_takes present]
      · simpa [same] using h.once i

/-- There is no object under an index that was not handed out or whose object was taken. -/
theorem absent_iff : (¬∃ o, t.slots[i]? = some (some o)) ↔ t.size ≤ i ∨ Taken past i := by
  rw [← h.empty i]
  constructor
  · intro absent
    rcases Nat.lt_or_ge i t.size with inside | outside
    · obtain ⟨slot, here⟩ : ∃ slot, t.slots[i]? = some slot := ⟨_, Array.getElem?_eq_getElem inside⟩
      cases slot with
      | none => exact .inr here
      | some o => exact absurd ⟨o, here⟩ absent
    · exact .inl outside
  · rintro (outside | empty) ⟨o, here⟩
    · exact absurd (ObjectTable.lt_size here) (Nat.not_lt.mpr outside)
    · exact absurd (here.symm.trans empty) (by simp)

/-- What an entry behind others does is what they call for. -/
theorem exact (a : Access κ) : (Entry.of t a).Exact past := by
  constructor
  case made => rfl
  case counted => exact h.size
  case pushed =>
    rintro o ⟨⟩
    exact ⟨rfl, ObjectTable.size_push⟩
  case unpushed =>
    intro old
    rcases Entry.did_of t a with ⟨-, -, -, after⟩ | ⟨_, pushes, -⟩ | ⟨_, _, _, -, -, -, -, after⟩
    · rw [after]
    · rw [pushes] at old
      cases old
    · rw [after, ObjectTable.size_put]
  case reserved =>
    rintro count ⟨⟩
    exact ⟨rfl, rfl⟩
  case present =>
    intro index
    simp only [← h.holds index]
    rw [← not_iff_not, h.absent_iff, not_and_or, not_not, Nat.not_lt]
    rfl
  case single =>
    intro index o o' held held'
    have same := ((h.holds index o).mpr held).symm.trans ((h.holds index o').mpr held')
    exact Option.some.inj (Option.some.inj same)
  case granted =>
    intro k index names o held same
    exact ObjectTable.fst_perform_of_present names ((h.holds index o).mpr held) same
  case other =>
    intro k index names
    simp only [← h.holds index]
    rcases t.reached names with ⟨o, here, same, answer⟩ | ⟨o, here, other, answer, -⟩ | ⟨missing, answer, -⟩
    · refine iff_of_false (fun refused => a.granted_ne_refused (answer.symm.trans refused)) ?_
      rintro ⟨o', here', other⟩
      obtain rfl : o = o' := Option.some.inj (Option.some.inj (here.symm.trans here'))
      exact other same
    · exact iff_of_true answer ⟨o, here, other⟩
    · refine iff_of_false (fun refused => ?_) fun ⟨o, here, _⟩ => missing ⟨o, here⟩
      cases answer.symm.trans refused
  case missing =>
    intro k index names
    change _ ↔ t.size ≤ index ∨ _
    rw [← h.absent_iff]
    rcases t.reached names with ⟨o, here, same, answer⟩ | ⟨o, here, other, answer, -⟩ | ⟨missing, answer, -⟩
    · exact iff_of_false (fun refused => a.granted_ne_refused (answer.symm.trans refused))
        (not_not.mpr ⟨o, here⟩)
    · refine iff_of_false (fun refused => ?_) (not_not.mpr ⟨o, here⟩)
      cases answer.symm.trans refused
    · exact iff_of_true answer missing
  case refused =>
    intro cause refused
    cases names : a.names? with
    | none =>
      cases a with
      | push | reserve => cases refused
      | get | set | take => cases names
    | some place =>
      rcases t.reached names with ⟨o, -, -, answer⟩ | ⟨-, -, -, -, after⟩ | ⟨-, -, after⟩
      · exact absurd (answer.symm.trans refused) a.granted_ne_refused
      · exact after
      · exact after

end Tracks

/-! ## 5. Sequences of accesses -/

theorem access_entries (accesses : List (Access κ)) (t : ObjectTable κ) :
    (entries accesses t).map (·.access) = accesses := by
  induction accesses generalizing t with
  | nil => rfl
  | cons a accesses ih =>
    rw [entries, List.map_cons, ih]
    rfl

theorem before_of_mem_head? {accesses : List (Access κ)} :
    ∀ e ∈ (entries accesses t).head?, e.before = t := by
  intro e first
  cases accesses with
  | nil => cases first
  | cons a accesses =>
    cases first
    rfl

theorem isChain_entries (accesses : List (Access κ)) (t : ObjectTable κ) :
    (entries accesses t).IsChain fun a b => b.before = a.after := by
  induction accesses generalizing t with
  | nil => exact List.IsChain.nil
  | cons a accesses ih =>
    rw [entries, List.isChain_cons]
    exact ⟨before_of_mem_head?, ih _⟩

/-- A table that agrees with the entries before a sequence agrees with those up to any of its accesses. -/
theorem Tracks.entries {accesses : List (Access κ)} (h : Tracks past t) {front rest : List (Entry κ)}
    (split : Decode.entries accesses t = front ++ rest) :
    (∃ u, Tracks (past ++ front) u) ∧ ∀ e ∈ rest.head?, e.Exact (past ++ front) := by
  induction accesses generalizing past t front with
  | nil =>
    obtain ⟨rfl, rfl⟩ := List.append_eq_nil_iff.mp split.symm
    exact ⟨⟨t, by simpa using h⟩, by simp⟩
  | cons a accesses ih =>
    rw [Decode.entries] at split
    cases front with
    | nil =>
      refine ⟨⟨t, by simpa using h⟩, fun e first => ?_⟩
      obtain rfl : Entry.of t a = e := by
        rw [List.nil_append] at split
        rw [← split] at first
        exact Option.some.inj first
      simpa using h.exact a
    | cons d front =>
      obtain ⟨rfl, behind⟩ := List.cons.inj split
      simpa using ih (h.concat a) behind

/-- **A table neither loses nor doubles an object.** In every sequence of accesses, each to the table that the
one before it left, every answer is the one that the entries before it call for, behind failed accesses too,
and no object is moved out twice. -/
theorem objects_are_kept_exactly (accesses : List (Access κ)) :
    let log := entries accesses {}
    (log.map (·.access) = accesses ∧ (∀ e ∈ log.head?, e.before = {}) ∧
      log.IsChain fun a b => b.before = a.after) ∧
    (∀ past e rest, log = past ++ e :: rest → e.Exact past) ∧
    ∀ index, log.countP (·.takes index) ≤ 1 := by
  intro log
  refine ⟨⟨access_entries accesses {}, before_of_mem_head?, isChain_entries accesses {}⟩,
    fun past e rest split => ?_, fun index => ?_⟩
  · have exact := (tracks_nil.entries split).2 e rfl
    rwa [List.nil_append] at exact
  · obtain ⟨u, tracks⟩ := (tracks_nil.entries (List.append_nil log).symm).1
    rw [List.nil_append] at tracks
    exact tracks.once index

end Histories

/-- An object that was asked for under another kind is still there, and is moved out once. -/
theorem objects_are_kept_exactly_of_other_kind :
    let accesses : List (Access Kind) :=
      [.push ⟨.int32, (5 : Int32)⟩, .take .text 0, .take .int32 0, .take .boolean 0]
    ∃ first second third fourth, entries accesses {} = [first, second, third, fourth] ∧
      second.answer = .refused (.objectType 0 "alloc::string::String") ∧
      third.answer = .object ⟨.int32, (5 : Int32)⟩ ∧ fourth.answer = .refused (.missingObject 0) := by
  intro accesses
  obtain ⟨-, exact, -⟩ := objects_are_kept_exactly accesses
  refine ⟨_, _, _, _, rfl, ?_, ?_, ?_⟩
  · exact ((exact [_] _ _ rfl).other .text 0 rfl).mpr ⟨_, ⟨_, rfl, rfl⟩, by decide⟩
  · exact (exact [_, _] _ _ rfl).granted .int32 0 rfl _ ⟨_, rfl, rfl⟩ rfl
  · exact ((exact [_, _, _] _ _ rfl).missing .boolean 0 rfl).mpr (.inr
      ⟨_, List.mem_cons_of_mem _ (List.mem_cons_of_mem _ List.mem_cons_self), rfl⟩)

end ModelLoading.Decode
