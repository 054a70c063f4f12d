/- # Proviso.Value.Heap -- values and the objects they refer to

A value is a scalar, nothing, or a reference to an object.  Objects live in a heap of fixed size
and refer to each other by place, so they may be shared and form cycles, and no reference dangles.
Two references are to the same object exactly when they are the same place. -/
import Proviso.Value.Catalog
import Proviso.Value.Datum

namespace Proviso

set_option autoImplicit false

/-- A value over a heap of the given size. -/
inductive Value (size : Nat) where
  | nil
  | bool (value : Bool)
  | int (value : Int64)
  | uint (value : UInt64)
  | float (value : Binary64)
  | str (value : String)
  | object (id : Fin size)
  deriving DecidableEq

inductive Object (catalog : Catalog) (size : Nat) where
  /-- The values of the fields, by position; a field past the end holds nothing. -/
  | record (type : catalog.TypeId) (fields : List (Value size))
  | sequence (items : List (Value size))
  /-- The values of the entries, in the order in which they are visited. -/
  | map (values : List (Value size))
  deriving DecidableEq

/-- Objects that refer to each other, each known by its place. -/
structure Heap (catalog : Catalog) (size : Nat) where
  objects : Vector (Object catalog size) size

/-- A step from an object to a value it holds, with names already resolved. -/
inductive Step where
  /-- The field of a record at a position. -/
  | field (position : Nat)
  /-- The item of a sequence at a position. -/
  | index (position : Nat)
  deriving DecidableEq, Repr

namespace Object

variable {catalog : Catalog} {size : Nat}

def kind : Object catalog size → Kind
  | .record _ _ => .record
  | .sequence _ => .sequence
  | .map _ => .map

/-- The value that a step leads to; a step that the object has no place for leads to nothing. -/
def get (object : Object catalog size) (step : Step) : Value size :=
  match object, step with
  | .record _ fields, .field position => fields[position]?.getD .nil
  | .sequence items, .index position => items[position]?.getD .nil
  | _, _ => .nil

/-- What the object, known by its place, looks like to an expression. -/
def datum (object : Object catalog size) (id : Nat) : Datum :=
  match object with
  | .record type _ => .record id (catalog.type type).typeName
  | .sequence items => .sequence id items.length
  | .map values => .map id values.length

end Object

namespace Heap

variable {catalog : Catalog} {size : Nat}

def object (heap : Heap catalog size) (id : Fin size) : Object catalog size :=
  heap.objects[id]

def kind (heap : Heap catalog size) : Value size → Kind
  | .nil => .nil
  | .bool _ => .bool
  | .int _ | .uint _ => .integer
  | .float _ => .float
  | .str _ => .string
  | .object id => (heap.object id).kind

/-- What a value looks like to an expression. -/
def datum (heap : Heap catalog size) : Value size → Datum
  | .nil => .nil
  | .bool value => .bool value
  | .int value => .int value
  | .uint value => .ofUInt64 value
  | .float value => .float value
  | .str value => .str value
  | .object id => (heap.object id).datum id

/-- The value one step away from a value; nothing is one step away from anything but an object. -/
def step (heap : Heap catalog size) : Value size → Step → Value size
  | .object id, step => (heap.object id).get step
  | _, _ => .nil

def select (heap : Heap catalog size) (start : Value size) (path : List Step) : Value size :=
  path.foldl heap.step start

/-! ## Diagnostics -/

/-- A collection in diagnostics; what it is a collection of goes unsaid. -/
def outlineCollection (name : String) (length : Nat) : String :=
  name ++ "(T; len " ++ toString length ++ ")"

def outline (heap : Heap catalog size) : Value size → String
  | .nil => "Nil"
  | .bool value => "Bool(" ++ (Datum.bool value).display ++ ")"
  | .int value => "Int(" ++ (Datum.int value).display ++ ")"
  | .uint value => "Uint(" ++ toString value.toNat ++ ")"
  | .float value => "Float(" ++ value.shortest ++ ")"
  | .str value => "Str(" ++ quoted value ++ ")"
  | .object id =>
    match heap.object id with
    | .record type _ => "Record(" ++ (catalog.type type).typeName ++ ")"
    | .sequence items => outlineCollection "Seq" items.length
    | .map values => outlineCollection "Map" values.length

end Heap

end Proviso
