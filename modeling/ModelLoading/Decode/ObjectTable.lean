import ModelLoading.Decode.Error

/-!
# The object table

A decoder keeps every object it creates in a table, so that later records can refer to earlier ones
by index. Objects have one of several kinds; an access names the kind it expects. Indices are handed
out one after another and never again: taking an object out leaves its slot empty.
-/

namespace ModelLoading.Decode

/-- A family of object types: its kinds, the type of each, and the name of each in messages. -/
class ObjectKind (κ : Type) extends BEq κ, LawfulBEq κ where
  /-- The type of the objects of a kind. -/
  Value : κ → Type
  /-- The name of a kind in messages. -/
  name : κ → String

/-- An object together with its kind. -/
structure Object (κ : Type) [ObjectKind κ] where
  kind : κ
  value : ObjectKind.Value kind

/-- The value of an object, if it has the expected kind. -/
def Object.as? {κ : Type} [ObjectKind κ] (o : Object κ) (k : κ) : Option (ObjectKind.Value k) :=
  if h : o.kind == k then some (eq_of_beq h ▸ o.value) else none

/-- A table of objects; an empty slot is one whose object was taken. -/
structure ObjectTable (κ : Type) [ObjectKind κ] where
  /-- The slots, by index. -/
  slots : Array (Option (Object κ)) := #[]

namespace ObjectTable

variable {κ : Type} [ObjectKind κ]

/-- The number of slots, empty ones included. -/
def size (t : ObjectTable κ) : Nat := t.slots.size

/-- Stores an object in a new slot, whose index is the old size. -/
def push (t : ObjectTable κ) (o : Object κ) : ObjectTable κ :=
  ⟨t.slots.push (some o)⟩

/-- The object under an index, as a value of the expected kind. -/
def get (t : ObjectTable κ) (k : κ) (index : Nat) : Except Error (ObjectKind.Value k) :=
  match t.slots[index]? with
  | some (some o) =>
    match o.as? k with
    | some v => .ok v
    | none => .error (.objectType index (ObjectKind.name k))
  | _ => .error (.missingObject index)

/-- Announces how many objects will follow. Room for them is no part of the table: no slot is created. -/
def reserve (t : ObjectTable κ) (_count : Nat) : ObjectTable κ := t

/-- The same table with another content in the slot of an index. -/
def put (t : ObjectTable κ) (index : Nat) (slot : Option (Object κ)) : ObjectTable κ :=
  ⟨t.slots.setIfInBounds index slot⟩

/-- Overwrites the object under an index by another of the same kind. -/
def set (t : ObjectTable κ) (o : Object κ) (index : Nat) : Except Error Unit × ObjectTable κ :=
  match t.get o.kind index with
  | .ok _ => (.ok (), t.put index (some o))
  | .error e => (.error e, t)

/-- Moves an object out of the table. Its slot is emptied before its kind is known; an object of another
kind goes back where it was. -/
def take (t : ObjectTable κ) (k : κ) (index : Nat) :
    Except Error (ObjectKind.Value k) × ObjectTable κ :=
  match t.slots[index]? with
  | none => (.error (.missingObject index), t)
  | some slot =>
    let emptied := t.put index none
    match slot with
    | none => (.error (.missingObject index), emptied)
    | some o =>
      match o.as? k with
      | some v => (.ok v, emptied)
      | none => (.error (.objectType index (ObjectKind.name k)), emptied.put index (some o))

end ObjectTable

end ModelLoading.Decode
