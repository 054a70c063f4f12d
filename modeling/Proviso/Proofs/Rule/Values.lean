/- # Proviso.Proofs.Rule.Values -- what expressions come to

The value of an expression does not depend on what was evaluated before it.  `Node.ComesTo` says
what it is, and has one lemma for each kind of expression: the value of the whole from those of its
parts. -/
import Proviso.Proofs.Rule.Message

namespace Proviso

set_option autoImplicit false

variable [PatternLibrary]

namespace Node

variable {catalog : Catalog} {size : Nat}

/-- The expression has the value, whatever was evaluated before. -/
def ComesTo (heap : Heap catalog size) (scope : Scope size) (node : Node) (datum : Datum) : Prop :=
  ∀ ledger : Ledger, (node.run heap scope ledger).1 = .ok datum

inductive AllComeTo (heap : Heap catalog size) (scope : Scope size) :
    List Node → List Datum → Prop
  | nil : AllComeTo heap scope [] []
  | cons {node : Node} {rest : List Node} {datum : Datum} {data : List Datum}
      (first : node.ComesTo heap scope datum) (further : AllComeTo heap scope rest data) :
      AllComeTo heap scope (node :: rest) (datum :: data)

variable {heap : Heap catalog size} {scope : Scope size}

theorem comesTo_iff {node : Node} {datum : Datum} :
    node.ComesTo heap scope datum ↔ (node.account heap scope).result = .ok datum := by
  constructor
  · intro comes
    rw [← run_fst heap scope node (.start .empty)]
    exact comes _
  · intro result ledger
    rw [run_fst, result]

theorem comesTo_literal (literal : Literal) :
    (Node.literal literal).ComesTo heap scope (.ofLiteral literal) :=
  comesTo_iff.mpr rfl

theorem comesTo_current : Node.current.ComesTo heap scope (heap.datum scope.current) :=
  comesTo_iff.mpr rfl

theorem comesTo_sibling (path : List Step) : (Node.sibling path).ComesTo heap scope
    (heap.datum (heap.select (.object scope.record) path)) :=
  comesTo_iff.mpr rfl

theorem ComesTo.unary {op : UnaryOperator} {operand : Node} {datum result : Datum}
    (comes : operand.ComesTo heap scope datum) (applies : op.apply datum = .ok result) :
    (Node.unary op operand).ComesTo heap scope result := by
  rw [comesTo_iff] at comes ⊢
  rw [account, Account.result, comes]
  exact applies

theorem ComesTo.arithmetic {op : ArithmeticOperator} {left right : Node}
    {first second result : Datum} (comes : left.ComesTo heap scope first)
    (also : right.ComesTo heap scope second)
    (applies : op.apply first second = .ok result) :
    (Node.arithmetic op left right).ComesTo heap scope result := by
  rw [comesTo_iff] at comes also ⊢
  rw [account, Account.both, comes, also]
  exact applies

theorem ComesTo.comparison (op : ComparisonOperator) {left right : Node} {first second : Datum}
    (comes : left.ComesTo heap scope first) (also : right.ComesTo heap scope second) :
    (Node.comparison op left right).ComesTo heap scope (.bool (op.holds first second)) := by
  rw [comesTo_iff] at comes also ⊢
  rw [account, Account.both, comes, also]
  rfl

theorem AllComeTo.results_eq {args : List Node} {data : List Datum}
    (come : AllComeTo heap scope args data) :
    Account.results (accounts heap scope args) = .ok data := by
  induction come with
  | nil => rfl
  | cons first further results_eq =>
    have result := comesTo_iff.mp first
    rw [accounts, result]
    simp only [Account.results, result, results_eq]
    rfl

theorem AllComeTo.call {function : Function} {args : List Node} {data : List Datum} {result : Datum}
    (come : AllComeTo heap scope args data)
    (answers : Call.result ⟨function, data⟩ = .ok result) :
    (Node.call function args).ComesTo heap scope result := by
  rw [comesTo_iff, account, Account.ofCall, come.results_eq]
  exact answers

end Node

end Proviso
