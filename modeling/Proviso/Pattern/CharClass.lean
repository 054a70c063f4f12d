/- # Proviso.Pattern.CharClass -- character classes as written

A character class is kept as it is written until it is known whether case counts.  How deep it is
nested is bounded in a pattern. -/
import Proviso.Pattern.CharSet

namespace Proviso

set_option autoImplicit false

inductive ClassOperator where
  | inter
  | diff
  | symmDiff
  deriving DecidableEq, Repr

def ClassOperator.apply : ClassOperator → CharSet → CharSet → CharSet
  | .inter => .inter
  | .diff => .diff
  | .symmDiff => .symmDiff

inductive CharClass where
  /-- A character, a range or a named set, or with `negated` all but that. -/
  | named (set : CharSet) (negated : Bool)
  /-- A class inside another, or with `negated` all but that. -/
  | inner (body : CharClass) (negated : Bool)
  | union (left right : CharClass)
  | combined (op : ClassOperator) (left right : CharClass)
  deriving DecidableEq, Repr

namespace CharClass

def depth : CharClass → Nat
  | .named _ _ => 0
  | .inner body _ => body.depth + 1
  | .union left right => max left.depth right.depth
  | .combined _ left right => max left.depth right.depth + 1

/-- The set of a class, or all but that. -/
def complIf (negated : Bool) (set : CharSet) : CharSet := if negated then set.compl else set

/-- The characters of a class, with `anyCase` in any case.  Case is looked through before any
complement is taken. -/
def toSet (anyCase : Bool) : CharClass → CharSet
  | .named set negated => complIf negated (if anyCase then set.closeCase else set)
  | .inner body negated => complIf negated (body.toSet anyCase)
  | .union left right => (left.toSet anyCase).union (right.toSet anyCase)
  | .combined op left right => op.apply (left.toSet anyCase) (right.toSet anyCase)

def ofSet (set : CharSet) : CharClass := .named set false

def char (c : Char) : CharClass := ofSet (.char c)

/-- Members one beside the other; two or more make up a level of their own. -/
def ofMembers : List CharClass → CharClass
  | [] => ofSet .empty
  | [member] => member
  | member :: rest => .inner (rest.foldl .union member) false

end CharClass

end Proviso
