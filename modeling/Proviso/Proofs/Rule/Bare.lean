/- # Proviso.Proofs.Rule.Bare -- rules that compile cannot trap

Expressions are evaluated once more, now with operations that trap where they have no result.  Sums,
differences, products and negatives wrap around, so they always have one; a remainder has none by
zero, and a function none where it looks at an argument that it was not given.

What a compiled rule calls is always there and admits the number of its arguments.  So an evaluation
without safety nets comes to what the evaluator comes to, whatever it is about
(`Rule.never_traps`). -/
import Proviso.Pattern.OfText
import Proviso.Proofs.Function.Bare
import Proviso.Proofs.Rule.Calls

namespace Proviso

set_option autoImplicit false

open Bare

/-! ## Operators -/

/-- The operator on data.  Only whole numbers could overflow or be divided by zero. -/
def ArithmeticOperator.bareApply (op : ArithmeticOperator) (left right : Datum) : Bare Datum :=
  match op, left, right with
  | .add, .int a, .int b => return .int (.ofInt (a.toInt + b.toInt))
  | .sub, .int a, .int b => return .int (.ofInt (a.toInt - b.toInt))
  | .mul, .int a, .int b => return .int (.ofInt (a.toInt * b.toInt))
  | .rem, .int a, .int b =>
    if b = 0 then throw .moduloByZero else return .int (← (remainder a b : Except Trap Int64))
  | op, left, right => liftExcept (op.apply left right)

def UnaryOperator.bareApply (op : UnaryOperator) (operand : Datum) : Bare Datum :=
  match op, operand with
  | .neg, .int value => return .int (.ofInt (-value.toInt))
  | op, operand => liftExcept (op.apply operand)

namespace Bare

/-- No argument is missing in a result that is no complaint of a function. -/
theorem complete_ok {α : Type} (value : α) : Complete (.ok value) := fun _ _ other => nomatch other

theorem Answers.lift {α : Type} {result : Except EvalError α} (complete : Complete result) :
    Answers (liftExcept result) result where
  no_trap := by cases result <;> rfl
  complete := complete

end Bare

theorem ArithmeticOperator.complete_apply (op : ArithmeticOperator) (left right : Datum) :
    Complete (op.apply left right) := by
  intro name position
  unfold apply
  split <;> try simp
  · split <;> simp
  · split <;> simp

theorem UnaryOperator.complete_apply (op : UnaryOperator) (operand : Datum) :
    Complete (op.apply operand) := by
  intro name position
  unfold apply
  split <;> simp

theorem ArithmeticOperator.bareApply_answers (op : ArithmeticOperator) (left right : Datum) :
    Answers (op.bareApply left right) (op.apply left right) := by
  unfold bareApply
  split
  · rename_i a b
    rw [Int64.ofInt_add, Int64.ofInt_toInt, Int64.ofInt_toInt]
    exact .pure _
  · rename_i a b
    rw [Int64.ofInt_sub, Int64.ofInt_toInt, Int64.ofInt_toInt]
    exact .pure _
  · rename_i a b
    rw [Int64.ofInt_mul, Int64.ofInt_toInt, Int64.ofInt_toInt]
    exact .pure _
  · rename_i a b
    show Answers _ (if b = 0 then .error .moduloByZero else .ok (Datum.int (a % b)))
    by_cases zero : b = 0
    · rw [if_pos zero, if_pos zero]
      exact ⟨rfl, fun _ _ other => nomatch other⟩
    · rw [if_neg zero, if_neg zero, remainder_eq a zero]
      exact ⟨rfl, complete_ok _⟩
  · exact .lift (op.complete_apply _ _)

theorem UnaryOperator.bareApply_answers (op : UnaryOperator) (operand : Datum) :
    Answers (op.bareApply operand) (op.apply operand) := by
  unfold bareApply
  split
  · rename_i value
    rw [Int64.ofInt_neg, Int64.ofInt_toInt]
    exact .pure _
  · exact .lift (op.complete_apply operand)

/-! ## Evaluation -/

namespace Node

variable [PatternLibrary] {catalog : Catalog} {size : Nat} (heap : Heap catalog size) (scope : Scope size)

mutual

/-- The value of an expression, with operations that may trap.  No messages are recorded. -/
def bare : Node → Bare Datum
  | .literal value => return .ofLiteral value
  | .current => return heap.datum scope.current
  | .sibling path => return heap.datum (heap.select (.object scope.record) path)
  | .unary op operand => do op.bareApply (← bare operand)
  | .arithmetic op left right => do
    let left ← bare left
    let right ← bare right
    op.bareApply left right
  | .comparison op left right => do
    let left ← bare left
    let right ← bare right
    return .bool (op.holds left right)
  | .connective .and left right => do
    let left ← bare left
    if left.truthy then return .bool (← bare right).truthy else return .bool false
  | .connective .or left right => do
    let left ← bare left
    if left.truthy then return .bool true else return .bool (← bare right).truthy
  | .call function args => do
    let args ← bareAll args
    function.bareCall args

def bareAll : List Node → Bare (List Datum)
  | [] => return []
  | node :: rest => do
    let first ← bare node
    return first :: (← bareAll rest)

end

end Node

/-! ## Calls of what is always there -/

namespace Function

variable [PatternLibrary] {function : Function} {args : List Datum}

theorem bareCall_predicate {judge : List Datum → Except Trap Judgement}
    {judgement : List Datum → Judgement} (body : bareBody? function.name = some (.predicate judge))
    (behaves : function.behaviour = .predicate judgement)
    (judges : Judges (judge args) (judgement args)) :
    Answers (function.bareCall args) (Call.result ⟨function, args⟩) := by
  obtain ⟨judged, given⟩ := judges
  have reply_eq : function.reply args = .judged (judgement args) := by
    rw [reply, call, behaves]
  rw [bareCall, body, Call.result, reply_eq]
  simp only [judged]
  cases came : judgement args with
  | pass => exact .pure _
  | fail message => exact .pure _
  | missing position => exact absurd came (given position)

theorem bareCall_value {compute : List Datum → Except Trap (Except FunctionFault Datum)}
    {result : Except FunctionFault Datum} (body : bareBody? function.name = some (.value compute))
    (replies : function.reply args = .computed (result.mapError (.function function.name)))
    (computes : Computes (compute args) result) :
    Answers (function.bareCall args) (Call.result ⟨function, args⟩) := by
  obtain ⟨computed, given⟩ := computes
  rw [bareCall, body, Call.result, replies]
  simp only [computed]
  refine ⟨rfl, fun name position missing => ?_⟩
  cases result with
  | ok datum => cases missing
  | error fault =>
    cases missing
    exact given position rfl

/-- A function that is always there never traps in a call that it admits, and the call comes to what
the function answers. -/
theorem bareCall_answers (admitted : Call.Admitted .builtins ⟨function, args⟩) :
    Answers (function.bareCall args) (Call.result ⟨function, args⟩) := by
  obtain ⟨listed, least, most⟩ := admitted
  change function ∈
    [Function.phone, .email, .within, .oneOf, .sprintf, .regexp, .mblen, .len] at listed
  simp only [List.mem_cons, List.not_mem_nil, or_false] at listed
  rcases listed with rfl | rfl | rfl | rfl | rfl | rfl | rfl | rfl
  · exact bareCall_predicate rfl rfl (judges_isPhone least)
  · exact bareCall_predicate rfl rfl (judges_isMailAddress least)
  · exact bareCall_predicate rfl rfl (judges_isWithin args)
  · exact bareCall_predicate rfl rfl (judges_isOneOf args)
  · exact bareCall_value rfl rfl (computes_sprintf least)
  · exact bareCall_value rfl rfl (computes_matchPattern least)
  · exact bareCall_value rfl rfl (computes_lengthOf String.length least)
  · exact bareCall_value rfl rfl (computes_lengthOf String.utf8ByteSize least)

end Function

/-! ## Rules -/

namespace Account

theorem result_both (apply : Datum → Datum → Except EvalError Datum) (left right : Account) :
    (both apply left right).result =
      left.result.bind fun first => right.result.bind (apply first) := by
  unfold both
  cases left.result <;> rfl

theorem result_decide (decisive : Bool) (left right : Account) :
    (decide decisive left right).result = left.result.bind fun first =>
      if first.truthy = decisive then .ok (.bool decisive)
      else right.result.bind fun second => .ok (.bool second.truthy) := by
  unfold decide
  cases left.result with
  | error error => rfl
  | ok first =>
    simp only [Except.bind]
    split
    · rfl
    · cases right.result <;> rfl

theorem result_ofCall [PatternLibrary] (function : Function) (args : List Account) :
    (ofCall function args).result =
      (results args).bind fun data => Call.result ⟨function, data⟩ := by
  unfold ofCall
  cases results args <;> rfl

end Account

namespace Node

variable [PatternLibrary] {catalog : Catalog} {size : Nat} (heap : Heap catalog size) (scope : Scope size)

mutual

/-- A node that calls what is always there, as it admits, never traps, and comes to what its account
says. -/
theorem bare_answers : ∀ {node : Node}, node.Admitted .builtins →
    Answers (node.bare heap scope) (node.account heap scope).result
  | .literal _, _ | .current, _ | .sibling _, _ => by
    rw [bare, account]
    exact .pure _
  | .unary op operand, admitted => by
    rw [bare, account]
    have operand_answers : Answers (operand.bare heap scope) (operand.account heap scope).result :=
      bare_answers admitted
    exact operand_answers.bind fun datum _ => op.bareApply_answers datum
  | .arithmetic op left right, ⟨in_left, in_right⟩ => by
    rw [bare, account, Account.result_both]
    exact (bare_answers in_left).bind fun first _ => (bare_answers in_right).bind fun second _ =>
      op.bareApply_answers first second
  | .comparison op left right, ⟨in_left, in_right⟩ => by
    rw [bare, account, Account.result_both]
    exact (bare_answers in_left).bind fun first _ => (bare_answers in_right).bind fun second _ =>
      .pure _
  | .connective .and left right, ⟨in_left, in_right⟩ => by
    rw [bare, account, Account.result_decide]
    refine (bare_answers in_left).bind fun first _ => ?_
    cases first.truthy
    · exact .pure _
    · exact (bare_answers in_right).bind fun second _ => .pure _
  | .connective .or left right, ⟨in_left, in_right⟩ => by
    rw [bare, account, Account.result_decide]
    refine (bare_answers in_left).bind fun first _ => ?_
    cases first.truthy
    · exact (bare_answers in_right).bind fun second _ => .pure _
    · exact .pure _
  | .call function args, ⟨listed, admits, all_admitted⟩ => by
    rw [bare, account, Account.result_ofCall]
    -- all arguments have a value here, so there are as many as were counted in the text
    refine (bareAll_answers all_admitted).bind fun data came => ?_
    have length_eq := length_of_results heap scope came
    exact Function.bareCall_answers ⟨listed, length_eq ▸ admits⟩

theorem bareAll_answers : ∀ {nodes : List Node}, AllAdmitted .builtins nodes →
    Answers (bareAll heap scope nodes) (Account.results (accounts heap scope nodes))
  | [], _ => by
    rw [bareAll, accounts]
    exact .pure _
  | node :: rest, ⟨admitted, rest_admitted⟩ => by
    rw [bareAll, results_accounts_cons]
    exact (bare_answers admitted).bind fun first _ =>
      (bareAll_answers rest_admitted).map (first :: ·)

end

end Node

theorem Registry.minArgs_builtins : ∀ function ∈ Registry.builtins.functions,
    0 < function.minArgs ∧ (function.name = "regexp" → 1 < function.minArgs) := by
  decide

/-- A call that is admitted has an argument at each position that is looked at. -/
theorem Call.positions_given {call : Call} (admitted : call.Admitted .builtins) :
    (call.function.name ∈ ["len", "mblen", "email", "phone", "sprintf"] → 0 < call.args.length) ∧
      (call.function.name = "regexp" → 1 < call.args.length) := by
  obtain ⟨listed, least, -⟩ := admitted
  obtain ⟨some_argument, two_for_regexp⟩ := Registry.minArgs_builtins _ listed
  exact ⟨fun _ => Nat.lt_of_lt_of_le some_argument least,
    fun named => Nat.lt_of_lt_of_le (two_for_regexp named) least⟩

namespace Rule

/-- **Rules that compile cannot trap.**  For every text that compiles to a rule with the functions
that are always there, every value under test and every record that holds it: an evaluation of the
condition or of the message without safety nets comes to the result of the evaluation, so every
misuse is an evaluation error or a failed predicate.  No argument is missing in the result, and each
call that is made is admitted and has an argument at all positions that its function looks at. -/
theorem never_traps [PatternLibrary] {catalog : Catalog} {type : catalog.TypeId} {source : String}
    {rule : Rule} (compiled : compile catalog type .builtins source = .ok rule)
    {size : Nat} (heap : Heap catalog size) (scope : Scope size) (ledger : Ledger) :
    ∀ node ∈ rule.condition :: rule.message.toList,
      node.bare heap scope = Except.ok (node.run heap scope ledger).1 ∧
      Complete (node.run heap scope ledger).1 ∧
      ∃ calls, (node.run heap scope ledger).2.ledger.calls = calls ++ ledger.calls ∧
        ∀ call ∈ calls, call.Admitted .builtins ∧
          (call.function.name ∈ ["len", "mblen", "email", "phone", "sprintf"] →
            0 < call.args.length) ∧
          (call.function.name = "regexp" → 1 < call.args.length) := by
  intro node evaluated
  obtain ⟨in_condition, in_message⟩ := admitted_of_compile compiled
  have admitted : node.Admitted .builtins := by
    rcases List.mem_cons.mp evaluated with rfl | is_message
    · exact in_condition
    · exact in_message node (Option.mem_toList.mp is_message)
  have answers := node.bare_answers heap scope admitted
  rw [← node.run_fst heap scope ledger] at answers
  obtain ⟨calls, calls_eq, all_admitted⟩ := node.run_calls_admitted heap scope admitted ledger
  exact ⟨answers.no_trap, answers.complete, calls, calls_eq, fun call made =>
    ⟨all_admitted call made, Call.positions_given (all_admitted call made)⟩⟩

def counterCatalog : Catalog := ⟨1, #v[⟨"Counter", "Counter", [⟨"count", [], none⟩]⟩]⟩

def counterType : counterCatalog.TypeId := ⟨0, by decide⟩

def leastCounter : Heap counterCatalog 1 := ⟨#v[.record counterType [.int Int64.minValue]]⟩

/-- A rule about a phone number and the least integer, with a message that divides by zero. -/
def counterRule : Rule where
  source := "@: phone('+86 138-0013-8000') && (count)$ % -1 == 0; msg: 1 % 0"
  condition := .connective .and (.call .phone [.literal (.str "+86 138-0013-8000")])
    (.comparison .eq (.arithmetic .rem (.sibling [.field 0]) (.literal (.int (-1))))
      (.literal (.int 0)))
  message := some (.arithmetic .rem (.literal (.int 1)) (.literal (.int 0)))
  testsAbsence := false

attribute [local instance] Pattern.library

theorem never_traps_leastCounter :
    compile counterCatalog counterType .builtins counterRule.source = .ok counterRule ∧
      (counterRule.condition.run leastCounter ⟨.nil, 0⟩ (.start .empty)).1 = .ok (.bool true) ∧
      ∀ message ∈ counterRule.message,
        (message.run leastCounter ⟨.nil, 0⟩ (.start .empty)).1 = .error .moduloByZero := by
  have parsed : Clause.parse counterRule.source = .ok ⟨
      .connective .and (.call "phone" [.literal (.str "+86 138-0013-8000")])
        (.comparison .eq (.arithmetic .rem (.sibling [.field "count"]) (.literal (.int (-1))))
          (.literal (.int 0))),
      some (.arithmetic .rem (.literal (.int 1)) (.literal (.int 0)))⟩ := by decide +kernel
  have compiled :
      compile counterCatalog counterType .builtins counterRule.source = .ok counterRule := by
    unfold compile
    rw [parsed]
    rfl
  have safe := never_traps compiled leastCounter ⟨.nil, 0⟩ (.start .empty)
  refine ⟨compiled, ?_, ?_⟩
  · have came : counterRule.condition.bare leastCounter ⟨.nil, 0⟩ =
        Except.ok (Except.ok (Datum.bool true)) := by
      show @Eq (Except Trap (Except EvalError Datum)) _ _
      decide +kernel
    have same := (safe _ List.mem_cons_self).1
    rw [came] at same
    exact (Except.ok.inj same).symm
  · intro message is_message
    cases is_message
    exact (Except.ok.inj (safe _ (List.mem_cons_of_mem _ List.mem_cons_self)).1).symm

end Rule

end Proviso
