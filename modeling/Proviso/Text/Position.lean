/- # Proviso.Text.Position -- lines and columns

A place in a text is known by what stands before it.  Lines end with a line feed or with a carriage
return and a line feed; a carriage return alone is an ordinary character.  Lines and columns count
from one, columns in characters. -/

namespace Proviso

set_option autoImplicit false

/-- A line and a column, both counted from one. -/
structure Position where
  line : Nat
  column : Nat
  deriving DecidableEq, Repr

namespace Position

def start : Position := ⟨1, 1⟩

/-- The place reached from another one past the given characters. -/
def advance : List Char → Position → Position
  | [], place => place
  | '\r' :: '\n' :: rest, place => advance rest ⟨place.line + 1, 1⟩
  | '\n' :: rest, place => advance rest ⟨place.line + 1, 1⟩
  | _ :: rest, place => advance rest ⟨place.line, place.column + 1⟩

/-- The place just past the given characters of a text. -/
def after (before : List Char) : Position := advance before start

/-- Within a line every character is one column. -/
theorem advance_of_no_break {before : List Char}
    (plain : ∀ c ∈ before, c ≠ '\n') (place : Position) :
    advance before place = ⟨place.line, place.column + before.length⟩ := by
  induction before generalizing place with
  | nil => simp [advance]
  | cons c rest ih =>
    have rest_plain : ∀ d ∈ rest, d ≠ '\n' :=
      fun d member => plain d (List.mem_cons_of_mem _ member)
    have c_plain : c ≠ '\n' := plain c List.mem_cons_self
    rw [advance]
    · rw [ih rest_plain]
      simp [Nat.add_comm, Nat.add_left_comm]
    · rintro tail rfl rfl
      exact rest_plain '\n' List.mem_cons_self rfl
    · exact fun h => c_plain h

example : after "ab\ncd".toList = ⟨2, 3⟩ := by decide

example : after "ab\r".toList = ⟨1, 4⟩ := by decide

end Position

end Proviso
