/- # Proviso.Rule.Basic -- conditions with every name resolved

A rule is a clause made for one record type: fields are positions and calls hold their function, so
nothing is looked up by name any more when it is checked. -/
import Proviso.Function.Basic
import Proviso.Value.Heap

namespace Proviso

set_option autoImplicit false

/-- An expression in which names are resolved. -/
inductive Node where
  | literal (value : Literal)
  | current
  | sibling (path : List Step)
  | unary (op : UnaryOperator) (operand : Node)
  | arithmetic (op : ArithmeticOperator) (left right : Node)
  | comparison (op : ComparisonOperator) (left right : Node)
  | connective (op : Connective) (left right : Node)
  | call (function : Function) (args : List Node)

/-- What has to hold of a field. -/
structure Rule where
  /-- The text that the rule was made from. -/
  source : String
  condition : Node
  /-- What to say when the condition fails. -/
  message : Option Node
  /-- Whether the rule applies to absent values, too. -/
  testsAbsence : Bool

end Proviso
