/- # Proviso.Value.Catalog -- record types

A catalog is a finite family of record types that refer to each other freely, also in cycles.  A
field says under which tags it is annotated, and of which type the records are that it leads to,
through however many sequences and maps.

A type is known by its place in the catalog, so a reference to a type is never dangling.  Names
need not be unique: the first field of a name, and the first annotation of a tag, count. -/
import Proviso.Text.Quoted

namespace Proviso

set_option autoImplicit false

structure Field (size : Nat) where
  name : String
  /-- Annotations, each under the tag it is meant for. -/
  tags : List (String × String)
  /-- The type of the records that the field holds or leads to. -/
  element : Option (Fin size)
  deriving DecidableEq

structure RecordType (size : Nat) where
  /-- The declared name, which errors give. -/
  name : String
  /-- What records of the type are shown as; a path may stand before the declared name. -/
  typeName : String
  fields : List (Field size)
  deriving DecidableEq

/-- Record types, each known by its place. -/
structure Catalog where
  size : Nat
  types : Vector (RecordType size) size

abbrev Catalog.TypeId (catalog : Catalog) : Type := Fin catalog.size

def Catalog.type (catalog : Catalog) (id : catalog.TypeId) : RecordType catalog.size :=
  catalog.types[id]

namespace Field

def annotationFor? {size : Nat} (field : Field size) (tag : String) : Option String :=
  (field.tags.find? (·.1 == tag)).map (·.2)

end Field

namespace RecordType

/-- The place of the first field of a name. -/
def fieldIndex? {size : Nat} (type : RecordType size) (name : String) : Option Nat :=
  type.fields.findIdx? (·.name == name)

/-- The types that the fields of a type lead to, in the order of the fields. -/
def elements {size : Nat} (type : RecordType size) : List (Fin size) :=
  type.fields.filterMap (·.element)

end RecordType

/-! ## Diagnostics -/

def outlineList (items : List String) : String :=
  "[" ++ ", ".intercalate items ++ "]"

def outlineParts (name : String) (parts : List (String × String)) : String :=
  name ++ " \x7b " ++ ", ".intercalate (parts.map fun part => part.1 ++ ": " ++ part.2) ++ " \x7d"

def Field.outline {size : Nat} (field : Field size) : String :=
  let tags := field.tags.map fun tag => "(" ++ quoted tag.1 ++ ", " ++ quoted tag.2 ++ ")"
  outlineParts "FieldDescriptor" [("name", quoted field.name), ("tags", outlineList tags)]

def RecordType.outline {size : Nat} (type : RecordType size) : String :=
  outlineParts "TypeDescriptor"
    [("name", quoted type.name), ("fields", outlineList (type.fields.map Field.outline))]

end Proviso
