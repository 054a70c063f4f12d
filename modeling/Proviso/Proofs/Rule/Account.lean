/- # Proviso.Proofs.Rule.Account -- what happened while an expression was evaluated

An account of an evaluation is the tree of the nodes that were evaluated, in their order, each with
what came of it.  It is written down without any recording of messages: a node that was skipped is
not in it, and nothing follows a node that ended in an error.

From the account one can read which predicates failed, in the order of their calls, and what came of
everything around each of them.  A complaint stands when its call and all nodes around it came out
false; the last one that stands is what there is to say about the node as a whole. -/
import Proviso.Proofs.Function.Reply
import Proviso.Rule.Evaluate

namespace Proviso

set_option autoImplicit false

/-! ## Complaints -/

/-- A predicate that failed. -/
structure Complaint where
  message : String
  /-- What came of the call and of the nodes around it, the innermost first. -/
  around : List (Except EvalError Datum)

/-- Whether there is a value, and it counts as false. -/
def isFalsy : Except EvalError Datum → Bool
  | .ok datum => !datum.truthy
  | .error _ => false

namespace Complaint

/-- The complaint, seen from one node further out. -/
def within (result : Except EvalError Datum) (complaint : Complaint) : Complaint :=
  ⟨complaint.message, complaint.around ++ [result]⟩

/-- Whether the call and everything around it came out false. -/
def stands (complaint : Complaint) : Bool := complaint.around.all isFalsy

/-- The message of the last complaint that stands. -/
def lastStanding (complaints : List Complaint) : Option String :=
  ((complaints.filter (·.stands)).getLast?).map (·.message)

@[simp] theorem lastStanding_nil : lastStanding [] = none := rfl

theorem lastStanding_append (first second : List Complaint) :
    lastStanding (first ++ second) = (lastStanding second).or (lastStanding first) := by
  simp only [lastStanding, List.filter_append, List.getLast?_append]
  cases (second.filter (·.stands)).getLast? <;> rfl

theorem stands_within (result : Except EvalError Datum) (complaint : Complaint) :
    (complaint.within result).stands = (complaint.stands && isFalsy result) := by
  simp [stands, within]

/-- Nothing stands within a node that did not come out false. -/
theorem lastStanding_within_of_not {result : Except EvalError Datum}
    (holds : isFalsy result = false) (complaints : List Complaint) :
    lastStanding (complaints.map (·.within result)) = none := by
  have none_stands : (complaints.map (·.within result)).filter (·.stands) = [] := by
    simp [List.filter_eq_nil_iff, stands_within, holds]
  simp [lastStanding, none_stands]

/-- Within a node that came out false, the same complaints stand. -/
theorem lastStanding_within_of_falsy {result : Except EvalError Datum}
    (fails : isFalsy result = true) (complaints : List Complaint) :
    lastStanding (complaints.map (·.within result)) = lastStanding complaints := by
  have same : (fun complaint : Complaint => (complaint.within result).stands) =
      fun complaint => complaint.stands := by
    funext complaint
    simp [stands_within, fails]
  simp only [lastStanding, List.filter_map, List.getLast?_map, Function.comp_def, same,
    Option.map_map]
  rfl

end Complaint

/-! ## Calls -/

variable [PatternLibrary]

namespace Call

/-- What a call is worth: a predicate gives a truth value. -/
def result (call : Call) : Except EvalError Datum :=
  match call.function.reply call.args with
  | .judged .pass => .ok (.bool true)
  | .judged (.fail _) => .ok (.bool false)
  | .judged (.missing position) => .error (.function call.function.name (.missingArgument position))
  | .computed result => result

def complaint? (call : Call) : Option String :=
  match call.function.reply call.args with
  | .judged (.fail message) => some message
  | _ => none

end Call

/-- The complaint of a call, if it was one of a predicate that failed. -/
def Call.complaints (call : Call) : List Complaint :=
  call.complaint?.toList.map fun message => ⟨message, []⟩

/-! ## Accounts -/

/-- What came of a node, the call that it made itself, and the accounts of the nodes evaluated
below it, the first one first. -/
inductive Account where
  | node (result : Except EvalError Datum) (call : Option Call) (parts : List Account)

namespace Account

def result : Account → Except EvalError Datum
  | .node result _ _ => result

mutual

/-- The calls that were made, in their order.  A call comes after those in its arguments. -/
def calls : Account → List Call
  | .node _ call parts => callsOf parts ++ call.toList

def callsOf : List Account → List Call
  | [] => []
  | part :: rest => part.calls ++ callsOf rest

end

mutual

/-- The predicates that failed, in the order of their calls. -/
def complaints : Account → List Complaint
  | .node result call parts =>
    (complaintsOf parts ++ call.toList.flatMap Call.complaints).map (Complaint.within result)

def complaintsOf : List Account → List Complaint
  | [] => []
  | part :: rest => part.complaints ++ complaintsOf rest

end

/-- The message of the last predicate that failed within nodes that all came out false, itself and
the whole included. -/
def standing (account : Account) : Option String := Complaint.lastStanding account.complaints

/-- A node without parts. -/
def leaf (datum : Datum) : Account := .node (.ok datum) none []

/-- A node that computes with the values of both its operands. -/
def both (apply : Datum → Datum → Except EvalError Datum) (left right : Account) : Account :=
  match left.result with
  | .error error => .node (.error error) none [left]
  | .ok first => .node (right.result.bind (apply first)) none [left, right]

/-- A node that is decided by its left side when that comes out as `decisive`, and else has the
truth of its right side. -/
def decide (decisive : Bool) (left right : Account) : Account :=
  match left.result with
  | .error error => .node (.error error) none [left]
  | .ok first =>
    if first.truthy = decisive then .node (.ok (.bool decisive)) none [left]
    else .node (right.result.map fun datum => .bool datum.truthy) none [left, right]

/-- The values of nodes, unless one of them ended in an error. -/
def results : List Account → Except EvalError (List Datum)
  | [] => .ok []
  | part :: rest => part.result.bind fun datum => (results rest).map (datum :: ·)

/-- A call with the arguments that were evaluated for it. -/
def ofCall (function : Function) (args : List Account) : Account :=
  match results args with
  | .error error => .node (.error error) none args
  | .ok data => .node (Call.result ⟨function, data⟩) (some ⟨function, data⟩) args

end Account

namespace Node

variable {catalog : Catalog} {size : Nat} (heap : Heap catalog size) (scope : Scope size)

mutual

/-- The account of the evaluation of an expression. -/
def account : Node → Account
  | .literal value => .leaf (.ofLiteral value)
  | .current => .leaf (heap.datum scope.current)
  | .sibling path => .leaf (heap.datum (heap.select (.object scope.record) path))
  | .unary op operand => .node ((account operand).result.bind op.apply) none [account operand]
  | .arithmetic op left right => .both op.apply (account left) (account right)
  | .comparison op left right =>
    .both (fun left right => .ok (.bool (op.holds left right))) (account left) (account right)
  | .connective .and left right => .decide false (account left) (account right)
  | .connective .or left right => .decide true (account left) (account right)
  | .call function args => .ofCall function (accounts args)

/-- The accounts of arguments, up to the first that ends in an error. -/
def accounts : List Node → List Account
  | [] => []
  | node :: rest =>
    match (account node).result with
    | .ok _ => account node :: accounts rest
    | .error _ => [account node]

end

end Node

/-! ## Verdicts -/

namespace Rule

variable {catalog : Catalog} {size : Nat} (heap : Heap catalog size) (scope : Scope size)

/-- The text of the rule's own message, if it has one and there is a value to show. -/
def ownMessage (rule : Rule) : Option String :=
  rule.message.bind fun message =>
    match (message.account heap scope).result with
    | .ok datum => some datum.display
    | .error _ => none

/-- The verdict on a rule by the account of its condition. -/
def verdict (rule : Rule) : Verdict :=
  match (rule.condition.account heap scope).result with
  | .ok datum =>
    if datum.truthy then .pass
    else .fail ((rule.ownMessage heap scope).or (rule.condition.account heap scope).standing)
  | .error _ => .fail (rule.ownMessage heap scope)

end Rule

end Proviso
