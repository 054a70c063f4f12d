/- # Proviso.Schema.Reachable -- the types that a type leads to

The types that records of a type can lead to, breadth first: fields in their order, and each type
once, where it is first found.  The list of types found is also the list of types still to be
looked at, from a position on. -/
import Proviso.Value.Catalog

namespace Proviso

set_option autoImplicit false

namespace Catalog

variable (catalog : Catalog)

/-- Adds the types that are new to a list of types found. -/
def discover (found new : List catalog.TypeId) : List catalog.TypeId :=
  new.foldl (fun found type => if type ∈ found then found else found ++ [type]) found

/-- Looks at the types found from a position on.  Each round looks at one, and each type is found
once, so as many rounds as there are types are enough. -/
def explore : Nat → Nat → List catalog.TypeId → List catalog.TypeId
  | 0, _, found => found
  | rounds + 1, position, found =>
    match found[position]? with
    | none => found
    | some type =>
      explore rounds (position + 1) (catalog.discover found (catalog.type type).elements)

/-- The type and all that it leads to, breadth first. -/
def reachable (root : catalog.TypeId) : List catalog.TypeId :=
  catalog.explore catalog.size 0 [root]

end Catalog

end Proviso
