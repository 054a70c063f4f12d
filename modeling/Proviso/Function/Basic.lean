/- # Proviso.Function.Basic -- functions that conditions can call

A function is a predicate, which judges its arguments and may say what is wrong with them, or
computes a datum.  Both are pure.  Matching against a written pattern is a kind of its own, because
the compiled pattern is looked up in a cache.

A function is called with any number of arguments; that a call has a number the function admits is
checked when a condition is compiled.  One that looks at an argument it was not given says which. -/
import Proviso.Pattern.Cache
import Proviso.Value.Catalog
import Proviso.Value.Datum

namespace Proviso

set_option autoImplicit false

/-! ## Errors -/

inductive FunctionFault where
  /-- The function looked at an argument that it was not given. -/
  | missingArgument (position : Nat)
  | unsupportedArgument (kind : Kind)
  | formatNotText
  | patternNotText
  | invalidPattern
  | custom (message : String)
  deriving DecidableEq, Repr

def FunctionFault.message : FunctionFault → String
  | .missingArgument position => "argument " ++ toString (position + 1) ++ " is missing"
  | .unsupportedArgument kind => "unsupported argument of type " ++ kind.label
  | .formatNotText => "the format must be a string"
  | .patternNotText => "the pattern must be a string"
  | .invalidPattern => "invalid pattern"
  | .custom message => message

inductive EvalError where
  | moduloByZero
  | invalidOperands (op : ArithmeticOperator) (left right : Kind)
  | invalidOperand (op : UnaryOperator) (operand : Kind)
  | function (name : String) (fault : FunctionFault)
  deriving DecidableEq, Repr

def EvalError.message : EvalError → String
  | .moduloByZero => "integer modulo by zero"
  | .invalidOperands op left right =>
    "cannot apply `" ++ op.symbol ++ "` to " ++ left.label ++ " and " ++ right.label
  | .invalidOperand op operand => "cannot apply `" ++ op.symbol ++ "` to " ++ operand.label
  | .function name fault => name ++ ": " ++ fault.message

/-! ## Functions -/

inductive Judgement where
  | pass
  | fail (message : String)
  /-- The predicate looked at an argument that it was not given. -/
  | missing (position : Nat)
  deriving DecidableEq, Repr

inductive Behaviour where
  | predicate (judge : List Datum → Judgement)
  | value (compute : List Datum → Except FunctionFault Datum)
  /-- Whether the pattern in the first argument describes a stretch of the text in the second. -/
  | matching

structure Function where
  name : String
  minArgs : Nat
  /-- There may be no limit. -/
  maxArgs : Option Nat
  behaviour : Behaviour
  /-- Whether calls show in traces. -/
  traced : Bool

inductive Reply where
  | judged (judgement : Judgement)
  | computed (result : Except EvalError Datum)

namespace Function

def Admits (function : Function) (count : Nat) : Prop :=
  function.minArgs ≤ count ∧ ∀ most ∈ function.maxArgs, count ≤ most

variable [PatternLibrary]

/-- Matches the second argument against the pattern in the first.  What is no text has no match. -/
def matchPattern (args : List Datum) (patterns : PatternCache) :
    Except FunctionFault Datum × PatternCache :=
  match args with
  | [] => (.error (.missingArgument 0), patterns)
  | .str pattern :: rest =>
    match patterns.get pattern, rest with
    | (none, patterns), _ => (.error .invalidPattern, patterns)
    | (some _, patterns), [] => (.error (.missingArgument 1), patterns)
    | (some pattern, patterns), .str text :: _ =>
      (.ok (.bool (PatternLibrary.isMatch pattern text)), patterns)
    | (some _, patterns), _ :: _ => (.ok (.bool false), patterns)
  | _ :: _ => (.error .patternNotText, patterns)

def call (function : Function) (args : List Datum) (patterns : PatternCache) :
    Reply × PatternCache :=
  let named (result : Except FunctionFault Datum) : Reply :=
    .computed (result.mapError (.function function.name))
  match function.behaviour with
  | .predicate judge => (.judged (judge args), patterns)
  | .value compute => (named (compute args), patterns)
  | .matching =>
    let (result, patterns) := matchPattern args patterns
    (named result, patterns)

def isPredicate (function : Function) : Bool :=
  match function.behaviour with
  | .predicate _ => true
  | _ => false

def kindLabel (function : Function) : String :=
  if function.isPredicate then "predicate" else "value"

def outline (function : Function) : String :=
  let most := match function.maxArgs with
    | some most => "Some(" ++ toString most ++ ")"
    | none => "None"
  outlineParts "Function"
    [("name", quoted function.name), ("kind", quoted function.kindLabel),
      ("min_args", toString function.minArgs), ("max_args", most)]

end Function

end Proviso
