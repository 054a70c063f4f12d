/- # Proviso.Rule.Evaluate -- the value of an expression

An expression is evaluated for a value under test and the record that holds it.  Operands and
arguments are evaluated from the left; a connective leaves its right side alone when the left side
decides.

A predicate that fails records its message.  Each node starts with none recorded; when the node
turns out false the message found within it stands, and else the one from before is restored.  So
what is recorded in the end comes from the last failing predicate that everything around it agrees
with.

All calls are kept in a ledger, with the patterns compiled so far. -/
import Proviso.Rule.Basic
import Proviso.Value.Operators

namespace Proviso

set_option autoImplicit false

variable [PatternLibrary]

/-! ## State -/

structure Call where
  function : Function
  args : List Datum

/-- What evaluation leaves behind for later evaluations and for traces. -/
structure Ledger where
  /-- The calls that were made, the latest first. -/
  calls : List Call
  patterns : PatternCache

def Ledger.start (patterns : PatternCache) : Ledger := ⟨[], patterns⟩

/-- The arguments of the traced calls, the earliest first. -/
def Ledger.trace (ledger : Ledger) : List (List Datum) :=
  (ledger.calls.reverse.filter (·.function.traced)).map (·.args)

structure EvalState where
  /-- The message of a failed predicate. -/
  message : Option String
  ledger : Ledger

/-- A computation that may end in an evaluation error. -/
abbrev Eval (α : Type) : Type := ExceptT EvalError (StateM EvalState) α

namespace Eval

/-- Records a message in place of what was recorded. -/
def record (message : Option String) : Eval Unit :=
  modify fun state => ⟨message, state.ledger⟩

/-- Runs a node on its own: with no message at first, and with the one from before restored unless
the node is false and has a message. -/
def settle (body : Eval Datum) : Eval Datum := do
  let before := (← get).message
  record none
  let result ← body
  if result.truthy || (← get).message.isNone then record before
  return result

/-- Calls a function.  A predicate gives a truth value, and records its message when it fails. -/
def call (function : Function) (args : List Datum) : Eval Datum := do
  let state ← get
  let (reply, patterns) := function.call args state.ledger.patterns
  set (⟨state.message, ⟨⟨function, args⟩ :: state.ledger.calls, patterns⟩⟩ : EvalState)
  match reply with
  | .judged .pass => return .bool true
  | .judged (.fail message) =>
    record (some message)
    return .bool false
  | .judged (.missing position) => throw (.function function.name (.missingArgument position))
  | .computed (.ok datum) => return datum
  | .computed (.error error) => throw error

end Eval

/-! ## Evaluation -/

/-- What an expression is about. -/
structure Scope (size : Nat) where
  /-- The value under test. -/
  current : Value size
  /-- The record that holds it. -/
  record : Fin size

namespace Node

variable {catalog : Catalog} {size : Nat} (heap : Heap catalog size) (scope : Scope size)

mutual

def eval : Node → Eval Datum
  | .literal value => .settle (return .ofLiteral value)
  | .current => .settle (return heap.datum scope.current)
  | .sibling path => .settle (return heap.datum (heap.select (.object scope.record) path))
  | .unary op operand => .settle do
    let operand ← eval operand
    liftExcept (op.apply operand)
  | .arithmetic op left right => .settle do
    let left ← eval left
    let right ← eval right
    liftExcept (op.apply left right)
  | .comparison op left right => .settle do
    let left ← eval left
    let right ← eval right
    return .bool (op.holds left right)
  | .connective .and left right => .settle do
    let left ← eval left
    if left.truthy then return .bool (← eval right).truthy else return .bool false
  | .connective .or left right => .settle do
    let left ← eval left
    if left.truthy then return .bool true else return .bool (← eval right).truthy
  | .call function args => .settle do
    let args ← evalAll args
    .call function args

def evalAll : List Node → Eval (List Datum)
  | [] => return []
  | node :: rest => do
    let first ← eval node
    return first :: (← evalAll rest)

end

/-- Evaluates an expression with no message recorded. -/
def run (node : Node) (ledger : Ledger) : Except EvalError Datum × EvalState :=
  (node.eval heap scope).run ⟨none, ledger⟩

end Node

/-! ## Checking -/

inductive Verdict where
  | pass
  /-- Without a message, the usual one applies. -/
  | fail (message : Option String)
  deriving DecidableEq, Repr

namespace Rule

variable {catalog : Catalog} {size : Nat} (heap : Heap catalog size) (scope : Scope size)

/-- The verdict on a failed rule: the rule's own message if it has one that can be evaluated, and
else the message that was recorded. -/
def explain (rule : Rule) (recorded : Option String) (ledger : Ledger) : Verdict × Ledger :=
  match rule.message with
  | none => (.fail recorded, ledger)
  | some message =>
    match message.run heap scope ledger with
    | (.ok text, state) => (.fail (some text.display), state.ledger)
    | (.error _, state) => (.fail recorded, state.ledger)

/-- Checks a rule.  It passes when its condition has a value that counts as true. -/
def check (rule : Rule) (ledger : Ledger) : Verdict × Ledger :=
  match rule.condition.run heap scope ledger with
  | (.ok result, state) =>
    if result.truthy then (.pass, state.ledger)
    else rule.explain heap scope state.message state.ledger
  | (.error _, state) => rule.explain heap scope none state.ledger

end Rule

end Proviso
