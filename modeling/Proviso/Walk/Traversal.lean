/- # Proviso.Walk.Traversal -- checking a value and all it leads to

A walk goes down from a value depth first.  A record is checked field by field: first the rule of
the field, then whatever the field leads to.  Items of sequences and values of maps are walked in
their order.  An object that is on the way already is not entered again.

A rule is not checked on an absent value unless it tests for absence.  A failed rule is noted with
the path, and ends the walk unless all failures are wanted.  A broken rule ends the walk with an
error.  However a visit ends, the path and the guard are left as they were found. -/
import Proviso.Rule.Evaluate
import Proviso.Schema.Cache
import Proviso.Walk.Failure
import Proviso.Walk.Guard

namespace Proviso

set_option autoImplicit false

variable [PatternLibrary]

/-! ## State -/

inductive Flow where
  | continue
  | stop
  deriving DecidableEq, Repr

structure WalkState (catalog : Catalog) (size : Nat) where
  cache : SchemaCache catalog
  ledger : Ledger
  path : FieldPath
  guard : Guard size
  /-- The failures found, the latest first. -/
  failures : List FieldError

/-- A part of a walk, which may end in a compile error. -/
abbrev Walk (catalog : Catalog) (size : Nat) (α : Type) : Type :=
  ExceptT CompileError (StateM (WalkState catalog size)) α

/-- What stays the same during a walk. -/
structure WalkContext (catalog : Catalog) (size : Nat) where
  heap : Heap catalog size
  registry : Registry
  /-- Whether to go on after a failure. -/
  collectAll : Bool

namespace WalkState

variable {catalog : Catalog} {size : Nat}

def initial (cache : SchemaCache catalog) (ledger : Ledger) : WalkState catalog size :=
  ⟨cache, ledger, .root, .empty, []⟩

def withPath (state : WalkState catalog size) (path : FieldPath) : WalkState catalog size :=
  ⟨state.cache, state.ledger, path, state.guard, state.failures⟩

def withGuard (state : WalkState catalog size) (guard : Guard size) : WalkState catalog size :=
  ⟨state.cache, state.ledger, state.path, guard, state.failures⟩

def withCache (state : WalkState catalog size) (cache : SchemaCache catalog) :
    WalkState catalog size :=
  ⟨cache, state.ledger, state.path, state.guard, state.failures⟩

def withLedger (state : WalkState catalog size) (ledger : Ledger) : WalkState catalog size :=
  ⟨state.cache, ledger, state.path, state.guard, state.failures⟩

def fail (state : WalkState catalog size) (message : Option String) : WalkState catalog size :=
  ⟨state.cache, state.ledger, state.path, state.guard, ⟨state.path, message⟩ :: state.failures⟩

end WalkState

namespace Walk

variable {catalog : Catalog} {size : Nat}

/-! ## Visits -/

/-- Runs a visit one step further down, and comes back. -/
def within (segment : Segment) (visit : Walk catalog size Flow) : Walk catalog size Flow :=
  ExceptT.mk do
    modify fun state => state.withPath (state.path.push segment)
    let flow ← visit.run
    modify fun state => state.withPath state.path.pop
    return flow

/-- Runs a visit to an object that is not on the way already, and leaves the object. -/
def guarded (id : Fin size) (visit : Walk catalog size Flow) : Walk catalog size Flow :=
  ExceptT.mk do
    match (← get).guard.enter? id with
    | none => return .ok .continue
    | some guard =>
      modify fun state => state.withGuard guard
      let flow ← visit.run
      modify fun state => state.withGuard (state.guard.leave id)
      return flow

def each {α : Type} (visit : α → Walk catalog size Flow) : List α → Walk catalog size Flow
  | [] => return .continue
  | item :: rest => do
    match ← visit item with
    | .continue => each visit rest
    | .stop => return .stop

def schemaFor (registry : Registry) (type : catalog.TypeId) : Walk catalog size Schema :=
  ExceptT.mk do
    let (result, cache) := (← get).cache.schemaForRecord registry type
    modify fun state => state.withCache cache
    return result

/-! ## Rules -/

variable (context : WalkContext catalog size)

def applies (rule : Rule) (value : Value size) : Bool :=
  value != .nil || rule.testsAbsence

/-- Checks the rule of a field, if it has one that applies. -/
def checkField (scope : Scope size) (rule : Option Rule) : Walk catalog size Flow := do
  match rule with
  | none => return .continue
  | some rule =>
    if applies rule scope.current then
      let (verdict, ledger) := rule.check context.heap scope (← get).ledger
      modify fun state => state.withLedger ledger
      match verdict with
      | .pass => return .continue
      | .fail message =>
        modify fun state => state.fail message
        return if context.collectAll then .continue else .stop
    else return .continue

/-- Checks a field of a record, and goes on to what it holds. -/
def visitField (descend : Value size → Walk catalog size Flow) (record : Fin size)
    (field : FieldRule) : Walk catalog size Flow :=
  within (.field field.name) do
    let value := (context.heap.object record).get (.field field.index)
    match ← checkField context ⟨value, record⟩ field.rule with
    | .stop => return .stop
    | .continue => descend value

def visit (descend : Value size → Walk catalog size Flow) (id : Fin size) :
    Walk catalog size Flow := do
  match context.heap.object id with
  | .record type _ =>
    let schema ← schemaFor context.registry type
    each (visitField context descend id) schema.fields
  | .sequence items =>
    each (fun item => within (.index item.2) (descend item.1)) items.zipIdx
  | .map values => each (fun value => within .mapValue (descend value)) values

/-- Walks a value, with so many levels of objects at most. -/
def descend : Nat → Value size → Walk catalog size Flow
  | levels + 1, .object id => guarded id (visit context (descend levels) id)
  | _, _ => return .continue

/-- Walks a value.  Every object on the way is entered once, so there are no more levels than
objects; one more is for finding out that there is no further one. -/
def walk (value : Value size) : Walk catalog size Flow :=
  descend context (size + 1) value

end Walk

end Proviso
