/- # Proviso.Expr.Chain -- precedence

A run of operands joined by binary operators becomes a tree.  The loosest operator is at the root,
and of equally loose ones the last, since all of them group to the left.  The tree is grown from the
left: a new operator goes below the operators on the right edge that bind looser than it does, and
takes what was there as its left operand. -/
import Proviso.Expr.Basic

namespace Proviso

set_option autoImplicit false

inductive BinaryOperator where
  | arithmetic (op : ArithmeticOperator)
  | comparison (op : ComparisonOperator)
  | connective (op : Connective)
  deriving DecidableEq, Repr

namespace BinaryOperator

/-- How tightly an operator binds. -/
def level : BinaryOperator → Nat
  | .connective .or => 1
  | .connective .and => 2
  | .comparison _ => 3
  | .arithmetic .add | .arithmetic .sub => 4
  | .arithmetic .mul | .arithmetic .div | .arithmetic .rem => 5

def apply : BinaryOperator → Expr → Expr → Expr
  | .arithmetic op => .arithmetic op
  | .comparison op => .comparison op
  | .connective op => .connective op

end BinaryOperator

/-- Operands joined by operators, grouped. -/
inductive Chain where
  | operand (expr : Expr)
  | join (left : Chain) (op : BinaryOperator) (right : Chain)

namespace Chain

/-- The chain with one more operator and operand at its end. -/
def extend (chain : Chain) (op : BinaryOperator) (expr : Expr) : Chain :=
  match chain with
  | .operand first => .join (.operand first) op (.operand expr)
  | .join left root right =>
    if root.level < op.level then .join left root (right.extend op expr)
    else .join (.join left root right) op (.operand expr)

def toExpr : Chain → Expr
  | .operand expr => expr
  | .join left op right => op.apply left.toExpr right.toExpr

/-- What a run of operators and operands is made of. -/
inductive Item where
  | unary (op : UnaryOperator)
  | binary (op : BinaryOperator)
  | operand (expr : Expr)

/-- Applies the prefix operators before an operand to it, the innermost first. -/
def applyPrefixes : List Item → List Item
  | [] => []
  | .unary op :: rest =>
    match applyPrefixes rest with
    | .operand expr :: rest => .operand (.applyUnary op expr) :: rest
    | rest => .unary op :: rest
  | item :: rest => item :: applyPrefixes rest

/-- Extends a chain by operators and operands in turn. -/
def extendAll? (chain : Chain) : List Item → Option Chain
  | [] => some chain
  | .binary op :: .operand expr :: rest => (chain.extend op expr).extendAll? rest
  | _ => none

/-- Groups operands with prefix operators, joined by binary operators. -/
def ofItems? (items : List Item) : Option Chain :=
  match applyPrefixes items with
  | .operand expr :: rest => (Chain.operand expr).extendAll? rest
  | _ => none

end Chain

end Proviso
