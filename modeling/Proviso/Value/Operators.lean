/- # Proviso.Value.Operators -- operators on data

Whole numbers wrap around at 64 bits, but a quotient is always a double, and so is whatever a float
takes part in.  Strings can be joined.  No operator traps: a remainder by zero and operands of the
wrong kind are errors, and any two data can be compared. -/
import Proviso.Function.Basic

namespace Proviso

set_option autoImplicit false

namespace ArithmeticOperator

def onDoubles (op : ArithmeticOperator) (left right : Binary64) : Binary64 :=
  match op with
  | .add => left + right
  | .sub => left - right
  | .mul => left * right
  | .div => left / right
  | .rem => left % right

def apply (op : ArithmeticOperator) (left right : Datum) : Except EvalError Datum :=
  match op, left, right with
  | .add, .int a, .int b => .ok (.int (a + b))
  | .sub, .int a, .int b => .ok (.int (a - b))
  | .mul, .int a, .int b => .ok (.int (a * b))
  | .rem, .int a, .int b => if b = 0 then .error .moduloByZero else .ok (.int (a % b))
  | .add, .str a, .str b => .ok (.str (a ++ b))
  | op, left, right =>
    match left.number?, right.number? with
    | some a, some b => .ok (.float (op.onDoubles a b))
    | _, _ => .error (.invalidOperands op left.kind right.kind)

end ArithmeticOperator

namespace ComparisonOperator

/-- Whether the comparison of two data holds; an order that does not exist is none. -/
def holds (op : ComparisonOperator) (left right : Datum) : Bool :=
  match op with
  | .eq => left.same right
  | .ne => !left.same right
  | .lt => left.compare? right == some .lt
  | .le => left.compare? right == some .lt || left.compare? right == some .eq
  | .gt => left.compare? right == some .gt
  | .ge => left.compare? right == some .gt || left.compare? right == some .eq

end ComparisonOperator

namespace UnaryOperator

def apply (op : UnaryOperator) (operand : Datum) : Except EvalError Datum :=
  match op, operand with
  | .not, operand => .ok (.bool !operand.truthy)
  | .neg, .int value => .ok (.int (-value))
  | .neg, .float value => .ok (.float (-value))
  | .neg, operand => .error (.invalidOperand .neg operand.kind)

end UnaryOperator

end Proviso
