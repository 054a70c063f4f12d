/- # Proviso.Pattern.AutomatonSize -- how large an automaton may be

An automaton that follows a pattern goes byte by byte through a text, or back through it.  Its size
is counted in bytes: every state takes the same number of them, and some take more.  A fork is a
state with any number of ways on, each of which takes space of its own. -/

namespace Proviso

set_option autoImplicit false

/-- Which way an automaton goes through a text. -/
inductive Direction where
  | forward
  | backward
  deriving DecidableEq, Repr

/-! ## Sizes -/

structure AutomatonSize where
  states : Nat
  /-- The bytes that states take in addition to what each of them takes. -/
  extra : Nat
  deriving DecidableEq, Repr

namespace AutomatonSize

def empty : AutomatonSize := ⟨0, 0⟩

def bytesPerState : Nat := 32

/-- What a way from a fork takes. -/
def bytesPerWay : Nat := 4

/-- What one of several ranges of bytes takes that a state tells apart. -/
def bytesPerRange : Nat := 8

def maxBytes : Nat := 10 * 1024 * 1024

def bytes (size : AutomatonSize) : Nat := size.states * bytesPerState + size.extra

/-- The size with some more states and bytes, unless that is too large. -/
def grow? (size : AutomatonSize) (states extra : Nat) : Option AutomatonSize :=
  let size : AutomatonSize := ⟨size.states + states, size.extra + extra⟩
  if size.bytes ≤ maxBytes then some size else none

theorem bytes_le_of_grow? {size grown : AutomatonSize} {states extra : Nat}
    (fits : size.grow? states extra = some grown) : grown.bytes ≤ maxBytes := by
  simp only [grow?] at fits
  split at fits
  next bounded => exact Option.some.inj fits ▸ bounded
  next => cases fits

end AutomatonSize

end Proviso
