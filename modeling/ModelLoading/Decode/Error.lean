/-!
# Why decoding stops

A decoder either reports an `Error` or panics. An error names the cause and the place; its wording
is `Error.message`. A `Fault` is either of the two, and its text is what a failed load keeps.
-/

namespace ModelLoading.Decode

/-- The cause of a failed read, or of a failed access to the object table. -/
inductive Error where
  /-- More bytes were asked for than are left. -/
  | unexpectedEnd (offset needed remaining : Nat)
  /-- A length or a 7-bit number that starts at `offset` is negative or malformed. -/
  | invalidLength (offset : Nat) (length : Int)
  /-- The text that starts at `offset` is not UTF-8. -/
  | invalidUtf8 (offset : Nat)
  /-- No object was ever stored under the index, or it was taken. -/
  | missingObject (index : Nat)
  /-- The object under the index has another type. -/
  | objectType (index : Nat) (expected : String)
  /-- A failure that the decoder words itself. -/
  | custom (message : String)
  deriving DecidableEq, Repr

/-- The wording of an error. -/
def Error.message : Error → String
  | unexpectedEnd offset needed remaining =>
    s!"Unexpected end of data at offset {offset}: needed {needed} bytes, {remaining} remaining"
  | invalidLength offset length => s!"Invalid length {length} at offset {offset}"
  | invalidUtf8 offset => s!"Invalid UTF-8 string at offset {offset}"
  | missingObject index => s!"No object at index {index}"
  | objectType index expected => s!"Object at index {index} is not a {expected}"
  | custom message => message

/-- How a decoder ends without a model. -/
inductive Fault where
  /-- It reported an error. -/
  | error (cause : Error)
  /-- It panicked; the message is absent when the panic carried something that is no text. -/
  | panic (message : Option String)
  deriving DecidableEq, Repr

/-- The text kept for a fault. -/
def Fault.message : Fault → String
  | error cause => cause.message
  | panic (some message) => s!"panicked: {message}"
  | panic none => "panicked"

end ModelLoading.Decode
