import ModelLoading.Text.Ranges

/-!
# Encoded characters

UTF-8 writes a character as a lead byte and up to three bytes of six bits each. `encodings` says
which bytes write the characters of a set: as few sequences of byte ranges as possible, in increasing
order, none of which begins another.
-/

namespace ModelLoading.Text

/-- A closed range of bytes. -/
abbrev ByteRange := Nat × Nat

/-- The code points whose encodings have the same length. -/
structure EncodingBlock where
  low : Nat
  high : Nat
  /-- The number of bytes after the lead byte. -/
  more : Nat
  /-- What is added to the highest bits to give the lead byte. -/
  lead : Nat

/-- All characters; the surrogates between the third block and the fourth are none. -/
def encodingBlocks : List EncodingBlock :=
  [⟨0, 0x7F, 0, 0⟩, ⟨0x80, 0x7FF, 1, 0xC0⟩, ⟨0x800, 0xD7FF, 2, 0xE0⟩, ⟨0xE000, 0xFFFF, 2, 0xE0⟩,
    ⟨0x10000, 0x10FFFF, 3, 0xF0⟩]

/-- The encodings of the numbers from `low` to `high`: a byte to which `lead` is added, and `more`
bytes of six bits. Numbers that share the first byte but not all of the rest come first and last. -/
def encodingsOf (lead low high : Nat) : (more : Nat) → List (List ByteRange)
  | 0 => [[(lead + low, lead + high)]]
  | more + 1 =>
    let block := Nat.pow 64 (more + 1)
    let below (first last low high : Nat) : List (List ByteRange) :=
      (encodingsOf 0x80 low high more).map ((lead + first, lead + last) :: ·)
    let first := low / block
    let last := high / block
    if first = last then below first last (low % block) (high % block)
    else
      let startsFull : Bool := low % block = 0
      let endsFull : Bool := high % block = block - 1
      let first' := if startsFull then first else first + 1
      let last' := if endsFull then last else last - 1
      (if startsFull then [] else below first first (low % block) (block - 1))
        ++ (if first' ≤ last' then below first' last' 0 (block - 1) else [])
        ++ (if endsFull then [] else below last last 0 (high % block))

/-- The encodings of the characters of a set. -/
def encodings (ranges : Ranges) : List (List ByteRange) :=
  ranges.flatMap fun (low, high) => encodingBlocks.flatMap fun b =>
    if low ≤ b.high ∧ b.low ≤ high then encodingsOf b.lead (max low b.low) (min high b.high) b.more
    else []

/-- The bytes that encode a character. -/
def encoded (c : Nat) : List Nat := (encodings [(c, c)]).flatMap (·.map (·.1))

end ModelLoading.Text
