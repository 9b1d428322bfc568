import ModelLoading.Decode.Field
import ModelLoading.Decode.ObjectTable

/-!
# Decoders written as data

A `Context` is what one decoding run works on: the name of the loader, a reader and an object table.
A `Program` is a list of steps over a context. Running it gives one datum per step; the first error
or panic ends the run.
-/

namespace ModelLoading.Decode

/-- The kinds of objects that a program can store. -/
inductive Kind where
  | int32
  | int64
  | boolean
  | text
  | block
  deriving DecidableEq, Repr

/-- The type of the objects of a kind. -/
@[reducible] def Kind.Value : Kind → Type
  | int32 => Int32
  | int64 => Int64
  | boolean => Bool
  | text => String
  | block => Bytes

/-- The name of a kind in messages. -/
def Kind.name : Kind → String
  | int32 => "i32"
  | int64 => "i64"
  | boolean => "bool"
  | text => "alloc::string::String"
  | block => "alloc::vec::Vec<u8>"

instance : ObjectKind Kind where
  Value := Kind.Value
  name := Kind.name

/-- An object of a kind as a datum. -/
def Kind.datum : (k : Kind) → k.Value → Datum
  | int32, v => .integer v.toInt
  | int64, v => .integer v.toInt
  | boolean, v => .boolean v
  | text, v => .text v
  | block, v => .block v

/-- A datum as an object of a kind, when it fits. -/
def Kind.ofDatum? : (k : Kind) → Datum → Option k.Value
  | int32, .integer n => some (Int32.ofInt n)
  | int64, .integer n => some (Int64.ofInt n)
  | boolean, .boolean b => some b
  | text, .text s => some s
  | block, .block b => some b
  | _, _ => none

/-- What one decoding run works on. -/
structure Context where
  /-- The name of the loader whose bytes are decoded. -/
  name : String
  reader : Reader
  objects : ObjectTable Kind := {}

/-- A context over a buffer, with an empty object table. -/
def Context.start (name : String) (data : Bytes) : Context :=
  { name, reader := .ofBytes data }

/-- A computation on a context; a fault keeps the context that was reached. -/
abbrev Decoding := ExceptT Fault (StateM Context)

/-- A read as a computation on a context. -/
def Decoding.ofRead {α : Type} (read : Read α) : Decoding α := fun c =>
  match read c.reader with
  | (.ok v, r) => (.ok v, { c with reader := r })
  | (.error e, r) => (.error (.error e), { c with reader := r })

/-- The outcome of an access to the object table as a computation. -/
def Decoding.ofExcept {α : Type} : Except Error α → Decoding α
  | .ok v => pure v
  | .error e => throw (.error e)

/-- A number that a step works with. -/
inductive Count where
  /-- The number is part of the program. -/
  | fixed (n : Nat)
  /-- The number is read from the buffer as a length. -/
  | stored
  deriving DecidableEq, Repr

/-- One step of a program. -/
inductive Step where
  /-- Reads a value. -/
  | read (field : Field)
  /-- Returns the name of the loader. -/
  | name
  /-- Returns the number of slots of the object table. -/
  | count
  /-- Announces how many objects will follow; no slot is created. -/
  | reserve (size : Count)
  /-- Stores an object and returns its index. -/
  | push (object : Object Kind)
  /-- Reads a value, stores it as an object of a kind, and returns its index. -/
  | pushRead (kind : Kind) (field : Field)
  /-- Returns an object. -/
  | get (kind : Kind) (index : Count)
  /-- Overwrites an object. -/
  | set (object : Object Kind) (index : Count)
  /-- Moves an object out of the table and returns it. -/
  | take (kind : Kind) (index : Count)
  /-- Runs further steps a number of times and returns the values of each round. -/
  | each (rounds : Count) (body : List Step)
  /-- Fails with a message. -/
  | fail (message : String)
  /-- Panics. -/
  | panic (message : Option String)

/-- A decoder written as data. -/
abbrev Program := List Step

/-- The number that a step works with. -/
def Count.resolve : Count → Decoding Nat
  | fixed n => pure n
  | stored => .ofRead Reader.length

/-- The context that was reached. -/
def Decoding.context : Decoding Context := fun c => (.ok c, c)

/-- Replaces the object table. -/
def Decoding.withObjects (objects : ObjectTable Kind) : Decoding Unit := fun c =>
  (.ok (), { c with objects })

/-- Stores an object and returns its index. -/
def Decoding.push (o : Object Kind) : Decoding Datum := fun c =>
  (.ok (.integer c.objects.size), { c with objects := c.objects.push o })

/-- Runs a computation a number of times and collects its values. -/
def Decoding.collect {α : Type} (once : Decoding α) : Nat → Decoding (List α)
  | 0 => pure []
  | n + 1 => do
    let v ← once
    return v :: (← collect once n)

mutual

/-- Runs one step. -/
def Step.run : Step → Decoding Datum
  | .read field => return field.datum (← .ofRead field.read)
  | .name => return .text (← .context).name
  | .count => return .integer (← .context).objects.size
  | .reserve size => do
    let n ← size.resolve
    .withObjects ((← .context).objects.reserve n)
    return .nothing
  | .push object => .push object
  | .pushRead kind field => do
    let v ← Decoding.ofRead field.read
    match kind.ofDatum? (field.datum v) with
    | some value => .push ⟨kind, value⟩
    | none => throw (.error (.custom s!"the value read is not a {kind.name}"))
  | .get kind index => do
    let i ← index.resolve
    return kind.datum (← .ofExcept ((← .context).objects.get kind i))
  | .set object index => do
    let i ← index.resolve
    let (outcome, objects) := (← .context).objects.set object i
    .withObjects objects
    .ofExcept outcome
    return .nothing
  | .take kind index => do
    let i ← index.resolve
    let (outcome, objects) := (← .context).objects.take kind i
    .withObjects objects
    return kind.datum (← .ofExcept outcome)
  | .each rounds body => do
    let n ← rounds.resolve
    return .list ((← Decoding.collect (runAll body) n).map .list)
  | .fail message => throw (.error (.custom message))
  | .panic message => throw (.panic message)

/-- Runs steps one after another. -/
def Step.runAll : List Step → Decoding (List Datum)
  | [] => pure []
  | s :: rest => do
    let v ← s.run
    return v :: (← runAll rest)

end

/-- Decodes a buffer: the data of the steps, or the first fault. -/
def Program.decode (p : Program) (name : String) (data : Bytes) : Except Fault (List Datum) :=
  (Step.runAll p (.start name data)).1

end ModelLoading.Decode
