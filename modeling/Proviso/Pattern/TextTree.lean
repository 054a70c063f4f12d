/- # Proviso.Pattern.TextTree -- the states of a choice between texts

The automaton of a choice between texts is a tree in which texts that start alike share their start.
A text that ends within the tree keeps the texts before it apart from those after it. -/
import Proviso.Pattern.AutomatonSize

namespace Proviso

set_option autoImplicit false

namespace TextTree

/-- Texts by the byte they start with. -/
abbrev Branches := List (Nat × List (List Nat))

/-- Adds the rest of a text that starts with a byte. -/
def add (first : Nat) (rest : List Nat) : Branches → Branches
  | [] => [(first, [rest])]
  | (byte, rests) :: branches =>
    if byte = first then (byte, rests ++ [rest]) :: branches
    else (byte, rests) :: add first rest branches

/-- The branches between the texts that end at the root; the last branches come first. -/
def runs (texts : List (List Nat)) : List Branches :=
  texts.foldl (fun runs text =>
    match runs, text with
    | run :: earlier, first :: rest => add first rest run :: earlier
    | [], first :: rest => [add first rest []]
    | runs, [] => if 2 ≤ runs.length ∧ runs.all (·.isEmpty) then runs else [] :: runs) [[]]

/-- The states and the extra bytes of a tree of a given height. -/
def size : Nat → List (List Nat) → Nat × Nat
  | 0, _ => (0, 0)
  | height + 1, texts =>
    let runs := runs texts
    let filled := runs.filter (!·.isEmpty)
    let ways := filled.length + (runs.length - 1)
    let branches := filled.flatMap id
    let ranges := ((filled.map (·.length)).filter (2 ≤ ·)).sum
    let inner := (branches.filter (·.2.any (!·.isEmpty))).map fun branch => size height branch.2
    (filled.length + 1 + (inner.map (·.1)).sum,
      ranges * AutomatonSize.bytesPerRange + ways * AutomatonSize.bytesPerWay +
        (inner.map (·.2)).sum)

end TextTree

end Proviso
