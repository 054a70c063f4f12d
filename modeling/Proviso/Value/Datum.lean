/- # Proviso.Value.Datum -- what expressions compute with

A datum is a scalar, nothing at all, or a composite object.  Expressions never look inside an
object, so a datum keeps of one only what can be told: which object it is and what it is called or
how long it is.

Whole numbers are compared exactly with each other; as soon as a float takes part, both sides are
compared as doubles.  Equality of composites is identity, whatever they hold. -/
import Proviso.Expr.Basic
import Proviso.Text.Quoted

namespace Proviso

set_option autoImplicit false

/-! ## Kinds -/

inductive Kind where
  | nil
  | bool
  | integer
  | float
  | string
  | record
  | sequence
  | map
  deriving DecidableEq, Repr

def Kind.label : Kind → String
  | .nil => "nil"
  | .bool => "bool"
  | .integer => "integer"
  | .float => "float"
  | .string => "string"
  | .record => "record"
  | .sequence => "sequence"
  | .map => "map"

/-! ## Data -/

inductive Datum where
  | nil
  | bool (value : Bool)
  | int (value : Int64)
  | float (value : Binary64)
  | str (value : String)
  /-- An object with a record type of the given name. -/
  | record (id : Nat) (typeName : String)
  | sequence (id : Nat) (length : Nat)
  | map (id : Nat) (length : Nat)
  deriving DecidableEq

namespace Datum

def ofLiteral : Literal → Datum
  | .nil => .nil
  | .bool value => .bool value
  | .int value => .int value
  | .float value => .float value
  | .str value => .str value

/-- An unsigned number is a whole number when it fits, and else the nearest double. -/
def ofUInt64 (value : UInt64) : Datum :=
  if value.toNat < 0x8000000000000000 then .int value.toInt64 else .float (.ofInt value.toNat)

def kind : Datum → Kind
  | .nil => .nil
  | .bool _ => .bool
  | .int _ => .integer
  | .float _ => .float
  | .str _ => .string
  | .record _ _ => .record
  | .sequence _ _ => .sequence
  | .map _ _ => .map

def isComposite : Datum → Bool
  | .record _ _ | .sequence _ _ | .map _ _ => true
  | _ => false

/-- Whether the datum counts as true: composites do, and everything but nil, `false`, zero and the
empty string.  NaN is no zero. -/
def truthy : Datum → Bool
  | .nil => false
  | .bool value => value
  | .int value => value != 0
  | .float value => !value.isZero
  | .str value => value != ""
  | .record _ _ | .sequence _ _ | .map _ _ => true

/-- A number as a double; nothing else is a number. -/
def number? : Datum → Option Binary64
  | .int value => some (.ofInt value.toInt)
  | .float value => some value
  | _ => none

def text? : Datum → Option String
  | .str value => some value
  | _ => none

/-! ## Text -/

/-- The text of a datum in messages. -/
def display : Datum → String
  | .nil => "<nil>"
  | .bool value => if value then "true" else "false"
  | .int value => toString value.toInt
  | .float value => value.shortest
  | .str value => value
  | .record _ typeName => "\x7b" ++ typeName ++ "\x7d"
  | .sequence _ length => "[" ++ toString length ++ " items]"
  | .map _ length => "map[" ++ toString length ++ " entries]"

/-- The text of a datum in diagnostics: its kind beside the text, and strings quoted. -/
def outline : Datum → String
  | .str value => "Str(" ++ quoted value ++ ")"
  | datum => datum.kind.label ++ "(" ++ datum.display ++ ")"

/-! ## Comparison -/

/-- Whether two data are equal: numbers by value, composites by identity. -/
def same : Datum → Datum → Bool
  | .nil, .nil => true
  | .bool a, .bool b => a == b
  | .int a, .int b => a == b
  | .str a, .str b => a == b
  | .record a _, .record b _ | .sequence a _, .sequence b _ | .map a _, .map b _ => a == b
  | a, b =>
    match a.number?, b.number? with
    | some x, some y => x.eq y
    | _, _ => false

/-- The order of two data; only strings, character by character, and numbers have one. -/
def compare? : Datum → Datum → Option Ordering
  | .int a, .int b => some (compare a.toInt b.toInt)
  | .str a, .str b => some (compare a b)
  | a, b =>
    match a.number?, b.number? with
    | some x, some y => x.compare? y
    | _, _ => none

end Datum

end Proviso
