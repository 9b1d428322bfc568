/-!
# Sets of code points

A property of characters is stored as a list of closed ranges of code points, in increasing order.
Sets in this form are closed under complement, union and intersection.
-/

namespace ModelLoading.Text

/-- A set of code points: closed ranges in increasing order. -/
abbrev Ranges := List (Nat × Nat)

namespace Ranges

/-- Whether a character lies in one of the ranges. -/
def contains (ranges : Ranges) (c : Char) : Bool :=
  ranges.any fun (low, high) => low ≤ c.toNat && c.toNat ≤ high

/-- The greatest code point. -/
def last : Nat := 0x10FFFF

/-- The code points from `next` on that lie in none of the ranges. -/
def gaps (next : Nat) : Ranges → Ranges
  | [] => if next ≤ last then [(next, last)] else []
  | (low, high) :: rest =>
    if next < low then (next, low - 1) :: gaps (high + 1) rest else gaps (high + 1) rest

/-- All other code points. -/
def complement (ranges : Ranges) : Ranges := ranges.gaps 0

/-- Ranges in the order of their lower ends, after a first one; those that touch become one. -/
def joinFrom (low high : Nat) : Ranges → Ranges
  | [] => [(low, high)]
  | (low', high') :: rest =>
    if low' ≤ high + 1 then joinFrom low (max high high') rest
    else (low, high) :: joinFrom low' high' rest

/-- Any ranges as a set. -/
def ofList (ranges : List (Nat × Nat)) : Ranges :=
  match ranges.mergeSort fun a b => a.1 ≤ b.1 with
  | [] => []
  | (low, high) :: rest => joinFrom low high rest

/-- The code points of either set. -/
def union (a b : Ranges) : Ranges := ofList (a ++ b)

/-- The code points of both sets. -/
def inter (a b : Ranges) : Ranges := complement (union a.complement b.complement)

end Ranges

end ModelLoading.Text
