/- # Proviso.Pattern.SetSize -- the states of a set of characters

A set whose characters take more than one byte makes up an automaton of its own, which goes through
the rows of byte ranges of the set.  States that lead the same way are shared.  They are looked up
by what they are made from, in a table in which a new entry displaces the one before it that has the
same hash; so not all that could be shared are. -/
import Proviso.Pattern.AutomatonSize
import Proviso.Pattern.Utf8
import Std.Data.HashMap

namespace Proviso

set_option autoImplicit false

/-! ## Shared states -/

/-- What a state is made from: ranges of bytes, each with the state that it leads to. -/
abbrev StateKey := List (Nat × Nat × Nat)

/-- States by what they are made from, under the hash of that. -/
abbrev SharedStates := Std.HashMap Nat (StateKey × Nat)

abbrev SetCount (α : Type) := StateT (SharedStates × AutomatonSize) Option α

namespace SetCount

def mix (hash : UInt64) (part : Nat) : UInt64 := (hash ^^^ part.toUInt64) * 1099511628211

/-- The hash of a key, out of a number of hashes. -/
def hashOf (hashes : Nat) (key : StateKey) : Nat :=
  let hash := key.foldl (fun hash (a, b, c) => mix (mix (mix hash a) b) c) 14695981039346656037
  hash.toNat % hashes

/-- Takes bytes for ways from a state that is there already. -/
def pay (extra : Nat) : SetCount Unit := fun (shared, size) =>
  (size.grow? 0 extra).map fun size => ((), shared, size)

def state (extra : Nat) : SetCount Nat := fun (shared, size) =>
  (size.grow? 1 extra).map fun grown => (size.states, shared, grown)

/-- The state of a key, which is new unless it is found among the shared ones. -/
def share (hashes : Nat) (key : StateKey) (extra : Nat) : SetCount Nat := do
  let hash := hashOf hashes key
  match (← get).1[hash]? with
  | some (key', state) => if key' = key then return state
  | none => pure ()
  let state ← state extra
  modify fun (shared, size) => (shared.insert hash (key, state), size)
  return state

/-! ### Forward

The rows come in ascending order.  The states along the last row stay open, each with the range that
leads to the next one, until a row leaves that path. -/

/-- A state along the last row: the ranges before the last one with the states they lead to, and the
last one. -/
structure OpenState where
  done : StateKey
  last : Nat × Nat

/-- What the state is made from once it is known where its last range leads. -/
def OpenState.close (node : OpenState) (next : Nat) : StateKey :=
  node.done ++ [(node.last.1, node.last.2, next)]

def forwardHashes : Nat := 10000

/-- Closes the states along a path that ends in a given state. -/
def closePath (target : Nat) : List OpenState → SetCount Nat
  | [] => return target
  | node :: path => do
    let next ← closePath target path
    let key := node.close next
    share forwardHashes key (key.length * AutomatonSize.bytesPerRange)

def addRow (target : Nat) : List OpenState → ByteRow → SetCount (List OpenState)
  | node :: path, range :: row => do
    if node.last = range then return node :: (← addRow target path row)
    else
      let next ← closePath target path
      return ⟨node.close next, range⟩ :: row.map (⟨[], ·⟩)
  | _, row => return row.map (⟨[], ·⟩)

def forward (rows : List ByteRow) : SetCount Unit := do
  let target ← state 0
  let _ ← closePath target (← rows.foldlM (addRow target) [])

/-! ### Backward

Every row is a path of its own from a fork, up to the states at its end that it shares. -/

def backwardHashes : Nat := 1000

def backward (rows : List ByteRow) : SetCount Unit := do
  let _ ← state 0
  let target ← state 0
  for row in rows do
    let _ ← row.foldlM (fun next range => share backwardHashes [(next, range.1, range.2)] 0) target
    pay AutomatonSize.bytesPerWay

end SetCount

end Proviso
