/- # Proviso.Schema.Cache -- schemas built once

The cache builds the schema of a type when it is first asked for, and keeps it, or the error, from
then on.  Before the schema of a type is given out, the types it leads to are compiled as well, the
nearest first, up to the first error; whether that went well is kept with the type.  So a type with
a broken rule anywhere below it is refused before any of its records is looked at. -/
import Proviso.Schema.Basic
import Proviso.Schema.Reachable

namespace Proviso

set_option autoImplicit false

structure SchemaCache (catalog : Catalog) where
  /-- The tag that annotations are read from. -/
  tag : String
  /-- What came of building the schema of each type, where that was done. -/
  schemas : Vector (Option (Except CompileError Schema)) catalog.size
  /-- What came of compiling a type with all it leads to, where that was done. -/
  closures : Vector (Option (Except CompileError Unit)) catalog.size

namespace SchemaCache

variable {catalog : Catalog}

def empty (catalog : Catalog) (tag : String) : SchemaCache catalog :=
  ⟨tag, .replicate catalog.size none, .replicate catalog.size none⟩

/-- How many types have been compiled, with or without success. -/
def size (cache : SchemaCache catalog) : Nat := cache.schemas.toList.countP Option.isSome

def replaced {α : Type} {size : Nat} (entries : Vector α size) (place : Fin size) (entry : α) :
    Vector α size := entries.set place entry place.isLt

theorem get_replaced {α : Type} {size : Nat} (entries : Vector α size) (place other : Fin size)
    (entry : α) :
    (replaced entries place entry).get other = if other = place then entry else entries.get other := by
  show (entries.set place entry)[other.val] = _
  rw [Vector.getElem_set]
  simp only [Fin.ext_iff, eq_comm]
  rfl

/-- The schema of one type, built if it has not been. -/
def compileType (cache : SchemaCache catalog) (registry : Registry) (type : catalog.TypeId) :
    Except CompileError Schema × SchemaCache catalog :=
  match cache.schemas.get type with
  | some result => (result, cache)
  | none =>
    let result := Schema.build catalog cache.tag registry type
    (result, ⟨cache.tag, replaced cache.schemas type (some result), cache.closures⟩)

/-- Compiles types up to the first that has an error. -/
def compileAll (registry : Registry) :
    List catalog.TypeId → SchemaCache catalog → Except CompileError Unit × SchemaCache catalog
  | [], cache => (.ok (), cache)
  | type :: rest, cache =>
    match cache.compileType registry type with
    | (.ok _, cache) => compileAll registry rest cache
    | (.error error, cache) => (.error error, cache)

/-- Compiles a type and all it leads to, unless that has been done. -/
def compileReachable (cache : SchemaCache catalog) (registry : Registry) (root : catalog.TypeId) :
    Except CompileError Unit × SchemaCache catalog :=
  match cache.closures.get root with
  | some result => (result, cache)
  | none =>
    let (result, cache) := compileAll registry (catalog.reachable root) cache
    (result, ⟨cache.tag, cache.schemas, replaced cache.closures root (some result)⟩)

/-- The schema of a type, once it and all it leads to are compiled. -/
def schemaFor (cache : SchemaCache catalog) (registry : Registry) (type : catalog.TypeId) :
    Except CompileError Schema × SchemaCache catalog :=
  match cache.compileReachable registry type with
  | (.ok (), cache) => cache.compileType registry type
  | (.error error, cache) => (.error error, cache)

/-- The schema for a record of a type.  It is at hand when the type was compiled before. -/
def schemaForRecord (cache : SchemaCache catalog) (registry : Registry) (type : catalog.TypeId) :
    Except CompileError Schema × SchemaCache catalog :=
  match cache.closures.get type, cache.schemas.get type with
  | some (.ok ()), some result => (result, cache)
  | _, _ => cache.schemaFor registry type

def outline (cache : SchemaCache catalog) : String :=
  outlineParts "SchemaCache" [("tag_name", quoted cache.tag), ("types", toString cache.size)]

end SchemaCache

end Proviso
