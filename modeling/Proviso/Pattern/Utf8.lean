/- # Proviso.Pattern.Utf8 -- ranges of characters as rows of byte ranges

In UTF-8 a character is a row of one to four bytes.  A range of characters is cut into ranges whose
bytes vary independently of each other: of such a range the first bytes are a range, the second
bytes are a range, and so on. -/
import Proviso.Pattern.CharSet

namespace Proviso

set_option autoImplicit false

/-- Ranges of bytes, one after another. -/
abbrev ByteRow := List (Nat × Nat)

namespace ByteRow

/-! ## Cuts -/

/-- The greatest code points of one, two and three bytes. -/
def lengthBounds : List Nat := [0x7f, 0x7ff, 0xffff]

/-- Where to cut a range so that both parts agree in all but the last `6 * count` bits, or consist
of whole blocks of that size.  The code point is the last one before the cut. -/
def blockCut? (first last count : Nat) : Option Nat :=
  let size := Nat.pow 2 (6 * count)
  if first / size = last / size then none
  else if first % size ≠ 0 then some (first / size * size + (size - 1))
  else if last % size ≠ size - 1 then some (last / size * size - 1)
  else none

/-- Where to cut a range: between characters of different lengths, or else between blocks of as many
characters as the last bytes tell apart.  The code point is the last one before the cut. -/
def cut? (first last : Nat) : Option Nat :=
  match lengthBounds.find? fun bound => first ≤ bound && bound < last with
  | some bound => some bound
  | none => if last ≤ 0x7f then none else [1, 2, 3].findSome? (blockCut? first last)

/-- The parts of a range that need no further cut.  Every part is smaller than the range, so as many
rounds as there are characters are enough. -/
def cutUp : Nat → Nat → Nat → List (Nat × Nat)
  | 0, first, last => [(first, last)]
  | rounds + 1, first, last =>
    match cut? first last with
    | some middle => cutUp rounds first middle ++ cutUp rounds (middle + 1) last
    | none => [(first, last)]

/-- A range without the surrogates, which are no characters. -/
def withoutSurrogates (first last : Nat) : List (Nat × Nat) :=
  if first ≤ 0xd7ff ∧ 0xe000 ≤ last then [(first, 0xd7ff), (0xe000, last)] else [(first, last)]

/-! ## Rows -/

def bytes (c : Char) : List Nat := (String.utf8EncodeChar c).map UInt8.toNat

/-- The row of a range that needs no cut. -/
def ofRange (first last : Nat) : ByteRow := (bytes (Char.ofNat first)).zip (bytes (Char.ofNat last))

def ofSet (set : CharSet) : List ByteRow :=
  let ranges := set.ranges.flatMap fun range => withoutSurrogates range.1 range.2
  let ranges := ranges.flatMap fun range => cutUp (range.2 - range.1) range.1 range.2
  ranges.map fun range => ofRange range.1 range.2

example : ofSet (.range 0x61 0x7ff) = [[(0x61, 0x7f)], [(0xc2, 0xdf), (0x80, 0xbf)]] := by
  decide +kernel

end ByteRow

end Proviso
