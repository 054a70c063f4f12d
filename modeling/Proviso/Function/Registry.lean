/- # Proviso.Function.Registry -- functions by name

A registry binds names to functions.  Registering a function under a name that is taken replaces
the one that was there. -/
import Proviso.Function.Contact
import Proviso.Function.Membership
import Proviso.Function.Text

namespace Proviso

set_option autoImplicit false

structure Registry where
  functions : List Function

namespace Registry

def empty : Registry := ⟨[]⟩

def register (registry : Registry) (function : Function) : Registry :=
  ⟨function :: registry.functions.filter (·.name != function.name)⟩

def lookup? (registry : Registry) (name : String) : Option Function :=
  registry.functions.find? (·.name == name)

/-- The registered names in ascending order. -/
def names (registry : Registry) : List String :=
  (registry.functions.map (·.name)).mergeSort fun a b => decide (a ≤ b)

def builtins : Registry :=
  [Function.len, .mblen, .regexp, .sprintf, .oneOf, .within, .email, .phone].foldl register empty

def outline (registry : Registry) : String :=
  outlineParts "Registry" [("functions", outlineList (registry.names.map quoted))]

theorem lookup?_register (registry : Registry) (function : Function) :
    (registry.register function).lookup? function.name = some function := by
  simp [register, lookup?]

theorem lookup?_register_of_ne (registry : Registry) (function : Function) {name : String}
    (other : name ≠ function.name) :
    (registry.register function).lookup? name = registry.lookup? name := by
  simp only [register, lookup?]
  rw [List.find?_cons_of_neg (by simpa using fun same => other same.symm), List.find?_filter]
  congr 1
  funext candidate
  by_cases named : candidate.name = name
  · simp [named, other]
  · simp [named]

end Registry

end Proviso
