/- # Proviso.Proofs.Rule.Connectives -- the laws of the operators of logic

Of an operand an operator of logic sees only whether it counts as true, the message of a false one
and the calls made for it.  `Assay` keeps just that, and `Assay.not`, `Assay.and` and `Assay.or` say
what becomes of it: a true operand leaves no message, and the message of a false right side goes
before that of the left.

The laws of logic hold of assays by the outcomes of each operand, messages and calls included.
`Node.eval_not`, `Node.eval_and` and `Node.eval_or` carry them over to the evaluator, from whatever
message was recorded before. -/
import Proviso.Proofs.Rule.Message

namespace Proviso

set_option autoImplicit false

variable [PatternLibrary]

/-! ## What an operator of logic sees -/

/-- What an operand comes to that is evaluated with no message recorded. -/
inductive Assay where
  | holds (ledger : Ledger)
  | fails (message : Option String) (ledger : Ledger)
  | errs (error : EvalError) (state : EvalState)

namespace Assay

/-- The outcome of a node with this truth value, where a message was recorded before. -/
def report (before : Option String) : Assay → Except EvalError Datum × EvalState
  | holds ledger => (.ok (.bool true), ⟨before, ledger⟩)
  | fails message ledger => (.ok (.bool false), ⟨message.or before, ledger⟩)
  | errs error state => (.error error, state)

def ofRun : Except EvalError Datum × EvalState → Assay
  | (.ok datum, state) =>
    if datum.truthy then holds state.ledger else fails state.message state.ledger
  | (.error error, state) => errs error state

@[simp] theorem ofRun_report (assay : Assay) : ofRun (assay.report none) = assay := by
  cases assay with
  | holds ledger => rfl
  | fails message ledger => simp [report, ofRun, Datum.truthy]
  | errs error state => rfl

/-- An outcome is told by the assay, but for what a true one leaves recorded. -/
def Tells : Assay → Except EvalError Datum × EvalState → Prop
  | holds ledger, outcome => ∃ message, outcome = (.ok (.bool true), ⟨message, ledger⟩)
  | fails message ledger, outcome => outcome = (.ok (.bool false), ⟨message, ledger⟩)
  | errs error state, outcome => outcome = (.error error, state)

/-- A node that fails keeps its own message, if it has one, before one from earlier. -/
def after (earlier : Option String) : Assay → Assay
  | fails message ledger => fails (message.or earlier) ledger
  | assay => assay

/-! ## The operators -/

def not : Assay → Assay
  | holds ledger => fails none ledger
  | fails _ ledger => holds ledger
  | errs error state => errs error state

/-- The right side is seen only after a left one that holds. -/
def and (right : Ledger → Assay) : Assay → Assay
  | holds ledger => right ledger
  | assay => assay

/-- The right side is seen only after a left one that fails. -/
def or (right : Ledger → Assay) : Assay → Assay
  | fails message ledger => (right ledger).after message
  | assay => assay

/-! ## Their laws -/

section

variable (first : Assay) (second third : Ledger → Assay)

theorem not_after (message : Option String) : (first.after message).not = first.not := by
  cases first <;> rfl

theorem after_none : first.after none = first := by
  cases first <;> simp [after]

theorem not_and : (first.and second).not = first.not.or fun ledger => (second ledger).not := by
  cases first with
  | holds ledger => exact (after_none _).symm
  | fails message ledger => rfl
  | errs error state => rfl

theorem not_or : (first.or second).not = first.not.and fun ledger => (second ledger).not := by
  cases first with
  | holds ledger => rfl
  | fails message ledger => exact not_after _ message
  | errs error state => rfl

theorem and_assoc :
    (first.and second).and third = first.and fun ledger => (second ledger).and third := by
  cases first <;> rfl

/-- Among three that fail, the message of the last one that has one is kept. -/
theorem or_assoc :
    (first.or second).or third = first.or fun ledger => (second ledger).or third := by
  cases first with
  | holds ledger => rfl
  | errs error state => rfl
  | fails message ledger =>
    simp only [or]
    cases second ledger with
    | holds ledger => rfl
    | errs error state => rfl
    | fails later ledger =>
      simp only [after]
      cases third ledger <;> simp [Option.or_assoc]

end

end Assay

/-! ## The evaluator -/

namespace Node

variable {catalog : Catalog} {size : Nat} (heap : Heap catalog size) (scope : Scope size)

/-- The work of a node is settled, whatever its kind. -/
theorem exists_settle (node : Node) : ∃ body, node.eval heap scope = .settle body := by
  cases node with
  | connective op left right => cases op <;> exact ⟨_, by rw [eval]⟩
  | literal value => exact ⟨_, by rw [eval]⟩
  | current => exact ⟨_, by rw [eval]⟩
  | sibling path => exact ⟨_, by rw [eval]⟩
  | unary op operand => exact ⟨_, by rw [eval]⟩
  | arithmetic op left right => exact ⟨_, by rw [eval]⟩
  | comparison op left right => exact ⟨_, by rw [eval]⟩
  | call function args => exact ⟨_, by rw [eval]⟩

/-- What was recorded before comes back where the node leaves no message of its own. -/
theorem eval_run (node : Node) (state : EvalState) :
    (node.eval heap scope).run state =
      match node.run heap scope state.ledger with
      | (.ok datum, after) => (.ok datum, ⟨after.message.or state.message, after.ledger⟩)
      | (.error error, after) => (.error error, after) := by
  obtain ⟨body, settles⟩ := node.exists_settle heap scope
  unfold run
  rw [settles, Eval.settle_run, Eval.settle_run]
  cases body.run ⟨none, state.ledger⟩ with
  | mk result after =>
    cases result with
    | error error => rfl
    | ok datum => cases truth : datum.truthy <;> simp [truth]

/-- A node that counts as true leaves no message. -/
theorem run_message_of_truthy (node : Node) (ledger : Ledger) {datum : Datum} {after : EvalState}
    (ran : node.run heap scope ledger = (.ok datum, after)) (truth : datum.truthy = true) :
    after.message = none := by
  obtain ⟨body, settles⟩ := node.exists_settle heap scope
  unfold run at ran
  rw [settles, Eval.settle_run] at ran
  cases came : body.run ⟨none, ledger⟩ with
  | mk result later =>
    rw [came] at ran
    cases result with
    | error error => cases ran
    | ok datum =>
      cases ran
      simp [truth]

/-- The assay of a node that is evaluated with no message recorded. -/
def assay (node : Node) (ledger : Ledger) : Assay := .ofRun (node.run heap scope ledger)

/-- What goes on by the truth of a node goes on from the assay of the node. -/
theorem run_eval_bind (node : Node) (onward : Bool → Eval Datum) (state : EvalState) :
    (node.eval heap scope >>= fun datum => onward datum.truthy).run state =
      match node.assay heap scope state.ledger with
      | .holds ledger => (onward true).run ⟨state.message, ledger⟩
      | .fails message ledger => (onward false).run ⟨message.or state.message, ledger⟩
      | .errs error state => (.error error, state) := by
  rw [run_bind, eval_run, assay]
  cases ran : node.run heap scope state.ledger with
  | mk result after =>
    cases result with
    | error error => rfl
    | ok datum =>
      cases truth : datum.truthy with
      | true =>
        have silent := node.run_message_of_truthy heap scope _ ran truth
        simp [Assay.ofRun, truth, silent]
      | false => simp [Assay.ofRun, truth]

/-- A node that goes on by the truth of an operand has the assay that tells what this comes to, and
reports it whatever was recorded before. -/
theorem reports_of_bind {node : Node} (operand : Node) (onward : Bool → Eval Datum)
    (assayed : Ledger → Assay)
    (settles : node.eval heap scope =
      .settle (operand.eval heap scope >>= fun datum => onward datum.truthy))
    (tells : ∀ ledger, (assayed ledger).Tells
      (match operand.assay heap scope ledger with
        | .holds ledger => (onward true).run ⟨none, ledger⟩
        | .fails message ledger => (onward false).run ⟨message.or none, ledger⟩
        | .errs error state => (.error error, state))) :
    node.assay heap scope = assayed ∧
      ∀ state, (node.eval heap scope).run state =
        (assayed state.ledger).report state.message := by
  have ran : ∀ state, (node.eval heap scope).run state =
      (assayed state.ledger).report state.message := by
    intro state
    rw [settles]
    have told : (assayed state.ledger).Tells
        ((operand.eval heap scope >>= fun datum => onward datum.truthy).run
          ⟨none, state.ledger⟩) := by
      rw [run_eval_bind]
      exact tells state.ledger
    rw [Eval.settle_run]
    revert told
    cases assayed state.ledger with
    | holds ledger =>
      rintro ⟨message, told⟩
      rw [told]
      rfl
    | fails message ledger =>
      intro told
      rw [told]
      rfl
    | errs error state =>
      intro told
      rw [told]
      rfl
  refine ⟨?_, ran⟩
  funext ledger
  rw [assay, run, ran, Assay.ofRun_report]

theorem eval_not (operand : Node) :
    (unary .not operand).assay heap scope = (fun ledger => (operand.assay heap scope ledger).not) ∧
      ∀ state, ((unary .not operand).eval heap scope).run state =
        (operand.assay heap scope state.ledger).not.report state.message := by
  refine reports_of_bind heap scope operand (fun truth => return .bool !truth) _ (by rw [eval]; rfl)
    fun ledger => ?_
  cases operand.assay heap scope ledger with
  | holds ledger => rfl
  | fails message ledger => exact ⟨_, rfl⟩
  | errs error state => rfl

/-- The right side of a connective, where the left one left a message. -/
theorem tells_truth (node : Node) (state : EvalState) :
    ((node.assay heap scope state.ledger).after state.message).Tells
      ((node.eval heap scope >>= fun datum => return .bool datum.truthy).run state) := by
  rw [run_eval_bind heap scope node fun truth => return .bool truth]
  cases node.assay heap scope state.ledger with
  | holds ledger => exact ⟨_, rfl⟩
  | fails message ledger => rfl
  | errs error state => rfl

theorem eval_and (left right : Node) :
    (connective .and left right).assay heap scope =
        (fun ledger => (left.assay heap scope ledger).and (right.assay heap scope)) ∧
      ∀ state, ((connective .and left right).eval heap scope).run state =
        ((left.assay heap scope state.ledger).and (right.assay heap scope)).report
          state.message := by
  refine reports_of_bind heap scope left
    (fun truth => if truth then do return .bool (← right.eval heap scope).truthy
      else return .bool false) _ (by rw [eval]) fun ledger => ?_
  cases left.assay heap scope ledger with
  | holds ledger =>
    have told := right.tells_truth heap scope ⟨none, ledger⟩
    rwa [Assay.after_none] at told
  | fails message ledger => cases message <;> rfl
  | errs error state => rfl

theorem eval_or (left right : Node) :
    (connective .or left right).assay heap scope =
        (fun ledger => (left.assay heap scope ledger).or (right.assay heap scope)) ∧
      ∀ state, ((connective .or left right).eval heap scope).run state =
        ((left.assay heap scope state.ledger).or (right.assay heap scope)).report
          state.message := by
  refine reports_of_bind heap scope left
    (fun truth => if truth then return .bool true
      else do return .bool (← right.eval heap scope).truthy) _ (by rw [eval]) fun ledger => ?_
  cases left.assay heap scope ledger with
  | holds ledger => exact ⟨_, rfl⟩
  | fails message ledger =>
    have told := right.tells_truth heap scope ⟨message, ledger⟩
    cases message <;> exact told
  | errs error state => rfl

/-- **The operators of logic obey De Morgan's laws and are associative, effects included.**  From
any state both sides come to the same value or the same error.  They make the same calls with the
same arguments in the same order, and leave the same message and the same patterns behind. -/
theorem de_morgan_and_assoc_with_effects (first second third : Node) (state : EvalState) :
    let run (node : Node) := (node.eval heap scope).run state
    run (unary .not (connective .and first second)) =
        run (connective .or (unary .not first) (unary .not second)) ∧
      run (unary .not (connective .or first second)) =
        run (connective .and (unary .not first) (unary .not second)) ∧
      run (connective .and (connective .and first second) third) =
        run (connective .and first (connective .and second third)) ∧
      run (connective .or (connective .or first second) third) =
        run (connective .or first (connective .or second third)) := by
  simp only [(eval_not heap scope _).1, (eval_not heap scope _).2, (eval_and heap scope _ _).1,
    (eval_and heap scope _ _).2, (eval_or heap scope _ _).1, (eval_or heap scope _ _).2,
    Assay.not_and, Assay.not_or, Assay.and_assoc, Assay.or_assoc, and_self]

end Node

end Proviso
