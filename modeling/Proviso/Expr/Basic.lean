/- # Proviso.Expr.Basic -- expressions as written

The tree of a condition or a message: literals, the value under test, fields of the enclosing
record, operators and calls.  Names are still names here. -/
import Proviso.Binary64.Decimal

namespace Proviso

set_option autoImplicit false

/-! ## Operators -/

inductive UnaryOperator where
  | neg
  | not
  deriving DecidableEq, Repr

inductive ArithmeticOperator where
  | add
  | sub
  | mul
  | div
  | rem
  deriving DecidableEq, Repr

inductive ComparisonOperator where
  | eq
  | ne
  | lt
  | le
  | gt
  | ge
  deriving DecidableEq, Repr

inductive Connective where
  | and
  | or
  deriving DecidableEq, Repr

def UnaryOperator.symbol : UnaryOperator → String
  | .neg => "-"
  | .not => "!"

def ArithmeticOperator.symbol : ArithmeticOperator → String
  | .add => "+"
  | .sub => "-"
  | .mul => "*"
  | .div => "/"
  | .rem => "%"

def ComparisonOperator.symbol : ComparisonOperator → String
  | .eq => "=="
  | .ne => "!="
  | .lt => "<"
  | .le => "<="
  | .gt => ">"
  | .ge => ">="

def Connective.symbol : Connective → String
  | .and => "&&"
  | .or => "||"

/-! ## Trees -/

inductive Literal where
  | nil
  | bool (value : Bool)
  | int (value : Int64)
  | float (value : Binary64)
  | str (value : String)
  deriving DecidableEq

/-- One step of a path through records and sequences. -/
inductive PathStep where
  | field (name : String)
  | index (position : Nat)
  deriving DecidableEq, Repr

inductive Expr where
  | literal (value : Literal)
  /-- The value under test, `$`. -/
  | current
  /-- A field of the enclosing record, `(path)$`. -/
  | sibling (path : List PathStep)
  | unary (op : UnaryOperator) (operand : Expr)
  | arithmetic (op : ArithmeticOperator) (left right : Expr)
  | comparison (op : ComparisonOperator) (left right : Expr)
  | connective (op : Connective) (left right : Expr)
  | call (name : String) (args : List Expr)

/-- A condition, and the message that replaces the usual one when it fails. -/
structure Clause where
  condition : Expr
  message : Option Expr

namespace Expr

/-- A prefix operator over an operand.  A minus over a number is the negative number. -/
def applyUnary : UnaryOperator → Expr → Expr
  | .neg, .literal (.int value) => .literal (.int (-value))
  | .neg, .literal (.float value) => .literal (.float (-value))
  | op, operand => .unary op operand

mutual

def mentionsCurrent : Expr → Bool
  | .current => true
  | .literal _ | .sibling _ => false
  | .unary _ operand => operand.mentionsCurrent
  | .arithmetic _ left right | .comparison _ left right | .connective _ left right =>
    left.mentionsCurrent || right.mentionsCurrent
  | .call _ args => anyMentionsCurrent args

def anyMentionsCurrent : List Expr → Bool
  | [] => false
  | arg :: rest => arg.mentionsCurrent || anyMentionsCurrent rest

end

mutual

/-- Whether the expression asks about absence: it has a nil literal, or hands `$` to a call. -/
def testsAbsence : Expr → Bool
  | .literal value => value == .nil
  | .current | .sibling _ => false
  | .unary _ operand => operand.testsAbsence
  | .arithmetic _ left right | .comparison _ left right | .connective _ left right =>
    left.testsAbsence || right.testsAbsence
  | .call _ args => anyTestsAbsence args

/-- Whether an argument mentions `$` or itself asks about absence. -/
def anyTestsAbsence : List Expr → Bool
  | [] => false
  | arg :: rest => arg.mentionsCurrent || arg.testsAbsence || anyTestsAbsence rest

end

/-! ## Equality -/

mutual

def same : Expr → Expr → Bool
  | .literal value, .literal value' => value == value'
  | .current, .current => true
  | .sibling path, .sibling path' => path == path'
  | .unary op operand, .unary op' operand' => op == op' && operand.same operand'
  | .arithmetic op left right, .arithmetic op' left' right' =>
    op == op' && left.same left' && right.same right'
  | .comparison op left right, .comparison op' left' right' =>
    op == op' && left.same left' && right.same right'
  | .connective op left right, .connective op' left' right' =>
    op == op' && left.same left' && right.same right'
  | .call name args, .call name' args' => name == name' && sameAll args args'
  | _, _ => false

def sameAll : List Expr → List Expr → Bool
  | [], [] => true
  | expr :: rest, expr' :: rest' => expr.same expr' && sameAll rest rest'
  | _, _ => false

end

mutual

theorem same_iff : ∀ {expr expr' : Expr}, expr.same expr' = true ↔ expr = expr'
  | .literal _, expr' => by cases expr' <;> simp [same]
  | .current, expr' => by cases expr' <;> simp [same]
  | .sibling _, expr' => by cases expr' <;> simp [same]
  | .unary _ operand, expr' => by
    cases expr' <;> simp [same, @same_iff operand]
  | .arithmetic _ left right, expr' => by
    cases expr' <;> simp [same, @same_iff left, @same_iff right, and_assoc]
  | .comparison _ left right, expr' => by
    cases expr' <;> simp [same, @same_iff left, @same_iff right, and_assoc]
  | .connective _ left right, expr' => by
    cases expr' <;> simp [same, @same_iff left, @same_iff right, and_assoc]
  | .call _ args, expr' => by
    cases expr' <;> simp [same, @sameAll_iff args]

theorem sameAll_iff : ∀ {exprs exprs' : List Expr}, sameAll exprs exprs' = true ↔ exprs = exprs'
  | [], exprs' => by cases exprs' <;> simp [sameAll]
  | expr :: rest, exprs' => by
    cases exprs' <;> simp [sameAll, @same_iff expr, @sameAll_iff rest]

end

instance : DecidableEq Expr := fun _ _ => decidable_of_iff _ same_iff

end Expr

deriving instance DecidableEq for Clause

end Proviso
