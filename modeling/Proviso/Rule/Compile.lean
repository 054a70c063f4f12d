/- # Proviso.Rule.Compile -- rules from clauses

Names are resolved from the left, an outer call before its arguments and the condition before the
message, and the first name that cannot be resolved is the error.  A call needs a registered
function that admits its number of arguments.  A path needs each of its fields declared by the type
that the fields before lead to; an index leaves that type as it is. -/
import Proviso.Clause.Parse
import Proviso.Function.Registry
import Proviso.Rule.Basic

namespace Proviso

set_option autoImplicit false

/-! ## Errors -/

inductive CompileError where
  | syntaxError (error : SyntaxError)
  | unknownFunction (name : String)
  | tooFewArguments (function : String) (least : Nat)
  | tooManyArguments (function : String) (most : Nat)
  /-- The owner is a record type, or a field that leads to none. -/
  | unknownField (owner field : String)
  deriving DecidableEq, Repr

/-- A number in words, if it is small. -/
def numberWord (n : Nat) : String :=
  ["zero", "one", "two", "three", "four", "five", "six", "seven", "eight", "nine", "ten"].getD n
    (toString n)

def CompileError.message : CompileError → String
  | .syntaxError error => error.message
  | .unknownFunction name => "undefined function: " ++ name
  | .tooFewArguments function least =>
    "input parameters of the " ++ function ++ " function are at least " ++ numberWord least
  | .tooManyArguments function most =>
    "input parameters of the " ++ function ++ " function are at most " ++ numberWord most
  | .unknownField owner field => "undefined field `" ++ field ++ "` in " ++ owner

/-! ## Resolution -/

def Function.checkArity (function : Function) (count : Nat) : Except CompileError Unit :=
  if count < function.minArgs then .error (.tooFewArguments function.name function.minArgs)
  else
    match function.maxArgs with
    | some most =>
      if most < count then .error (.tooManyArguments function.name most) else .ok ()
    | none => .ok ()

/-- Resolves a path that starts at a type, or at a field that leads to no type.  `owner` is what an
unknown field is said to be missing from. -/
def resolvePath (catalog : Catalog) (owner : String) (type : Option catalog.TypeId) :
    List PathStep → Except CompileError (List Step)
  | [] => .ok []
  | .index position :: rest => do
    return .index position :: (← resolvePath catalog owner type rest)
  | .field name :: rest =>
    match type with
    | none => .error (.unknownField owner name)
    | some id =>
      let fields := (catalog.type id).fields
      match (catalog.type id).fieldIndex? name with
      | none => .error (.unknownField owner name)
      | some position => do
        let next := (fields[position]?).bind (·.element)
        let nextOwner := match next with
          | some next => (catalog.type next).name
          | none => owner ++ "." ++ name
        return .field position :: (← resolvePath catalog nextOwner next rest)

namespace Expr

variable (catalog : Catalog) (type : catalog.TypeId) (registry : Registry)

mutual

/-- Resolves the names in an expression about a field of a record type. -/
def resolve : Expr → Except CompileError Node
  | .literal value => .ok (.literal value)
  | .current => .ok .current
  | .sibling path => do
    return .sibling (← resolvePath catalog (catalog.type type).name (some type) path)
  | .unary op operand => do return .unary op (← resolve operand)
  | .arithmetic op left right => do return .arithmetic op (← resolve left) (← resolve right)
  | .comparison op left right => do return .comparison op (← resolve left) (← resolve right)
  | .connective op left right => do return .connective op (← resolve left) (← resolve right)
  | .call name args =>
    match registry.lookup? name with
    | none => .error (.unknownFunction name)
    | some function => do
      function.checkArity args.length
      return .call function (← resolveAll args)

def resolveAll : List Expr → Except CompileError (List Node)
  | [] => .ok []
  | expr :: rest => do return (← resolve expr) :: (← resolveAll rest)

end

end Expr

namespace Rule

def ofClause (catalog : Catalog) (type : catalog.TypeId) (registry : Registry) (source : String)
    (clause : Clause) : Except CompileError Rule := do
  let condition ← clause.condition.resolve catalog type registry
  let message ← match clause.message with
    | some message => some <$> message.resolve catalog type registry
    | none => .ok none
  return ⟨source, condition, message, clause.condition.testsAbsence⟩

def compile (catalog : Catalog) (type : catalog.TypeId) (registry : Registry) (source : String) :
    Except CompileError Rule :=
  match Clause.parse source with
  | .ok clause => ofClause catalog type registry source clause
  | .error error => .error (.syntaxError error)

end Rule

end Proviso
