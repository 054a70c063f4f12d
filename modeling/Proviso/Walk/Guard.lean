/- # Proviso.Walk.Guard -- the objects on the way

A walk over objects that form cycles ends because no object is entered again while it is on the
way.  The guard knows which objects those are, each once. -/

namespace Proviso

set_option autoImplicit false

/-- The objects that have been entered and not left, the latest first. -/
structure Guard (size : Nat) where
  entered : List (Fin size)
  distinct : entered.Nodup

namespace Guard

variable {size : Nat}

def empty : Guard size := ⟨[], .nil⟩

def depth (guard : Guard size) : Nat := guard.entered.length

/-- Enters an object, if it is not on the way already. -/
def enter? (guard : Guard size) (id : Fin size) : Option (Guard size) :=
  if h : id ∈ guard.entered then none
  else some ⟨id :: guard.entered, List.nodup_cons.mpr ⟨h, guard.distinct⟩⟩

def leave (guard : Guard size) (id : Fin size) : Guard size :=
  ⟨guard.entered.erase id, guard.distinct.erase id⟩

theorem leave_of_enter? {guard inner : Guard size} {id : Fin size}
    (entering : guard.enter? id = some inner) : inner.leave id = guard := by
  simp only [enter?] at entering
  split at entering
  · cases entering
  · cases entering
    simp [leave]

theorem entered_of_enter? {guard inner : Guard size} {id : Fin size}
    (entering : guard.enter? id = some inner) : inner.entered = id :: guard.entered := by
  simp only [enter?] at entering
  split at entering
  · cases entering
  · cases entering
    rfl

end Guard

end Proviso
