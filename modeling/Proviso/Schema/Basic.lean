/- # Proviso.Schema.Basic -- the rules of a record type

A schema holds the rules of a type's fields for one tag.  It is built field by field, and the first
text that is no rule is the error. -/
import Proviso.Rule.Compile

namespace Proviso

set_option autoImplicit false

structure FieldRule where
  name : String
  index : Nat
  rule : Option Rule

structure Schema where
  name : String
  fields : List FieldRule

namespace Schema

def ruleCount (schema : Schema) : Nat := schema.fields.countP (·.rule.isSome)

variable (catalog : Catalog) (tag : String) (registry : Registry) (type : catalog.TypeId)

/-- Compiles the rules of fields, the first of which has the given position. -/
def buildFields (index : Nat) : List (Field catalog.size) → Except CompileError (List FieldRule)
  | [] => .ok []
  | field :: rest => do
    let rule ← match field.annotationFor? tag with
      | some text => some <$> Rule.compile catalog type registry text
      | none => .ok none
    return ⟨field.name, index, rule⟩ :: (← buildFields (index + 1) rest)

def build : Except CompileError Schema := do
  let fields ← buildFields catalog tag registry type 0 (catalog.type type).fields
  return ⟨(catalog.type type).name, fields⟩

end Schema

end Proviso
