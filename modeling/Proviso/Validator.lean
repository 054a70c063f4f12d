/- # Proviso.Validator -- validating values

A validator holds the functions that rules can call and the schemas compiled so far.  Functions
registered later have no effect on types that are compiled already. -/
import Proviso.Walk.Traversal

namespace Proviso

set_option autoImplicit false

variable [PatternLibrary]

structure ValidatorOptions where
  /-- The tag that rules are read from. -/
  tag : String
  /-- What stands between the texts of two failures. -/
  separator : String
  deriving DecidableEq, Repr

namespace ValidatorOptions

def default : ValidatorOptions := ⟨"vd", "\t"⟩

def outline (options : ValidatorOptions) : String :=
  outlineParts "ValidatorOptions"
    [("tag_name", quoted options.tag), ("separator", quoted options.separator)]

end ValidatorOptions

inductive ValidationError where
  /-- There is no value. -/
  | unsupported
  /-- A rule cannot be compiled. -/
  | compile (error : CompileError)
  | invalid (errors : FieldErrors)
  deriving DecidableEq, Repr

namespace ValidationError

def message : ValidationError → String
  | .unsupported => "unsupported data: nil"
  | .compile error => error.message
  | .invalid errors => errors.text

def fieldErrors? : ValidationError → Option FieldErrors
  | .invalid errors => some errors
  | _ => none

end ValidationError

structure Validator (catalog : Catalog) where
  separator : String
  registry : Registry
  cache : SchemaCache catalog
  patterns : PatternCache

structure Validation (catalog : Catalog) where
  outcome : Except ValidationError Unit
  /-- The calls that were made. -/
  ledger : Ledger
  /-- The validator afterwards. -/
  validator : Validator catalog

namespace Validator

variable {catalog : Catalog} {size : Nat}

/-- A validator with the built-in functions. -/
def new (catalog : Catalog) (options : ValidatorOptions) : Validator catalog :=
  ⟨options.separator, .builtins, .empty catalog options.tag, .empty⟩

def options (validator : Validator catalog) : ValidatorOptions :=
  ⟨validator.cache.tag, validator.separator⟩

def register (validator : Validator catalog) (function : Function) : Validator catalog :=
  ⟨validator.separator, validator.registry.register function, validator.cache, validator.patterns⟩

def outcome (validator : Validator catalog) (result : Except CompileError Flow)
    (failures : List FieldError) : Except ValidationError Unit :=
  match result, failures with
  | .error error, _ => .error (.compile error)
  | .ok _, [] => .ok ()
  | .ok _, failures => .error (.invalid ⟨failures.reverse, validator.separator⟩)

/-- The validator with the schemas and patterns that a walk leaves behind. -/
def after (validator : Validator catalog) (state : WalkState catalog size) : Validator catalog :=
  ⟨validator.separator, validator.registry, state.cache, state.ledger.patterns⟩

/-- Validates a value.  Scalars are always valid. -/
def validate (validator : Validator catalog) (heap : Heap catalog size) (value : Value size)
    (collectAll : Bool) : Validation catalog :=
  let ledger := .start validator.patterns
  if value = .nil then ⟨.error .unsupported, ledger, validator⟩
  else
    let context : WalkContext catalog size := ⟨heap, validator.registry, collectAll⟩
    let (result, state) := (Walk.walk context value).run (.initial validator.cache ledger)
    ⟨validator.outcome result state.failures, state.ledger, validator.after state⟩

def outline (validator : Validator catalog) : String :=
  outlineParts "Validator"
    [("options", validator.options.outline), ("registry", validator.registry.outline),
      ("cache", validator.cache.outline)]

end Validator

end Proviso
