/- # Proviso.Proofs.Rule.Message -- which message a failed rule reports

Evaluation keeps one recorded message, which every node sets aside, may overwrite and may put back.
`Eval.Follows` says of a computation what it comes to, which calls it makes, and that the message
left behind is that of the last complaint that stands, or else the one from before.  There is one
lemma for each way of putting computations together, and from them `Node.eval_follows`: the
evaluator does what its account says.

`Rule.check_eq_account` then reads the verdict on a rule off the account. -/
import Proviso.Function.Registry
import Proviso.Pattern.OfText
import Proviso.Proofs.Rule.Account

namespace Proviso

set_option autoImplicit false

/-- A computation with a state runs on from where the one before it succeeded. -/
theorem run_bind {ε σ α β : Type} (body : ExceptT ε (StateM σ) α)
    (next : α → ExceptT ε (StateM σ) β) (state : σ) :
    (body >>= next).run state =
      match body.run state with
      | (.ok value, state) => (next value).run state
      | (.error error, state) => (.error error, state) := by
  show (match body.run state with
    | (result, state) => (ExceptT.bindCont next result) state) = _
  cases body.run state with
  | mk result state => cases result <;> rfl

section

variable [PatternLibrary]

namespace Eval

variable {α β : Type}

/-! ## Runs of the primitive computations -/

theorem run_get (state : EvalState) : (get : Eval EvalState).run state = (.ok state, state) := rfl

theorem run_record (message : Option String) (state : EvalState) :
    (record message).run state = (.ok (), ⟨message, state.ledger⟩) := rfl

/-- The run of a settled node: it chooses between the message of its body and the one from before. -/
theorem settle_run (body : Eval Datum) (state : EvalState) :
    (settle body).run state =
      match body.run ⟨none, state.ledger⟩ with
      | (.ok datum, after) =>
        (.ok datum, ⟨if datum.truthy then state.message else after.message.or state.message,
          after.ledger⟩)
      | (.error error, after) => (.error error, after) := by
  simp only [settle, run_bind, run_get, run_record]
  cases body.run ⟨none, state.ledger⟩ with
  | mk result after =>
    cases result with
    | error error => rfl
    | ok datum =>
      obtain ⟨message, ledger⟩ := after
      cases truth : datum.truthy <;> cases message <;> simp only [truth] <;> rfl

/-- A settled node comes to what its body comes to, with the ledger of the body, and chooses
between the message of the body and the one from before. -/
theorem run_settle (body : Eval Datum) (state : EvalState) :
    ((settle body).run state).1 = (body.run ⟨none, state.ledger⟩).1 ∧
      ((settle body).run state).2.ledger = (body.run ⟨none, state.ledger⟩).2.ledger ∧
      ∀ datum, (body.run ⟨none, state.ledger⟩).1 = .ok datum →
        ((settle body).run state).2.message =
          if datum.truthy then state.message
          else (body.run ⟨none, state.ledger⟩).2.message.or state.message := by
  rw [settle_run]
  cases body.run ⟨none, state.ledger⟩ with
  | mk result after =>
    cases result with
    | error error => exact ⟨rfl, rfl, fun _ came => by cases came⟩
    | ok datum => exact ⟨rfl, rfl, fun _ came => by cases came; rfl⟩

/-! ## What a computation does -/

/-- From any state the computation comes to the result, makes the calls, and leaves the message of
the last complaint that stands, if there is one. -/
structure Follows (body : Eval α) (result : Except EvalError α) (calls : List Call)
    (complaints : List Complaint) : Prop where
  result_eq : ∀ state, (body.run state).1 = result
  calls_eq : ∀ state, (body.run state).2.ledger.calls = calls.reverse ++ state.ledger.calls
  message_eq : ∀ state value, result = .ok value →
    (body.run state).2.message = (Complaint.lastStanding complaints).or state.message

theorem Follows.pure (value : α) : Follows (Pure.pure value) (.ok value) [] [] where
  result_eq _ := rfl
  calls_eq _ := rfl
  message_eq _ _ _ := rfl

theorem Follows.lift (result : Except EvalError α) :
    Follows (liftExcept result) result [] [] := by
  cases result with
  | ok value => exact .pure value
  | error error =>
    exact { result_eq := fun _ => rfl, calls_eq := fun _ => rfl, message_eq := by simp }

/-- One computation after another: the calls follow each other, and so do the complaints. -/
theorem Follows.bind {body : Eval α} {value : α} {result : Except EvalError β}
    {calls after : List Call} {complaints later : List Complaint}
    (first : Follows body (.ok value) calls complaints) (next : α → Eval β)
    (second : Follows (next value) result after later) :
    Follows (body >>= next) result (calls ++ after) (complaints ++ later) := by
  have run_eq : ∀ state, (body >>= next).run state = (next value).run (body.run state).2 := by
    intro state
    have came := first.result_eq state
    rw [run_bind]
    cases ran : body.run state with
    | mk got state' =>
      rw [ran] at came
      cases came
      rfl
  refine ⟨fun state => ?_, fun state => ?_, fun state last came => ?_⟩
  · rw [run_eq, second.result_eq]
  · rw [run_eq, second.calls_eq, first.calls_eq, List.reverse_append, List.append_assoc]
  · rw [run_eq, second.message_eq _ _ came, first.message_eq _ _ rfl,
      Complaint.lastStanding_append, Option.or_assoc]

/-- A computation that ends without a call of its own. -/
theorem Follows.ending {body : Eval α} {value : α} {result : Except EvalError β}
    {calls : List Call} {complaints : List Complaint}
    (first : Follows body (.ok value) calls complaints) (next : α → Eval β)
    (last : Follows (next value) result [] []) :
    Follows (body >>= next) result calls complaints := by
  simpa using first.bind next last

/-- Nothing is done after an error. -/
theorem Follows.stop {body : Eval α} {next : α → Eval β} {error : EvalError} {calls : List Call}
    {complaints : List Complaint} (first : Follows body (.error error) calls complaints) :
    Follows (body >>= next) (.error error) calls complaints := by
  have run_eq : ∀ state, (body >>= next).run state = (.error error, (body.run state).2) := by
    intro state
    have came := first.result_eq state
    rw [run_bind]
    cases ran : body.run state with
    | mk got state' =>
      rw [ran] at came
      cases came
      rfl
  refine ⟨fun state => ?_, fun state => ?_, fun _ _ came => by cases came⟩
  · rw [run_eq]
  · rw [run_eq, first.calls_eq]

/-- A call comes to its result, and leaves its complaint if it has one. -/
theorem call_follows (function : Function) (args : List Datum) :
    Follows (Eval.call function args) (Call.result ⟨function, args⟩) [⟨function, args⟩]
      (Call.complaints ⟨function, args⟩) := by
  have ran : ∀ state, ∃ patterns,
      (Eval.call function args).run state =
        (Call.result ⟨function, args⟩,
          ⟨(Call.complaint? ⟨function, args⟩).or state.message,
            ⟨⟨function, args⟩ :: state.ledger.calls, patterns⟩⟩) := by
    intro state
    have replied := function.call_fst args state.ledger.patterns
    refine ⟨(function.call args state.ledger.patterns).2, ?_⟩
    simp only [Eval.call, run_bind, run_get, Call.result, Call.complaint?]
    rw [← replied]
    cases (function.call args state.ledger.patterns).1 with
    | judged judgement => cases judgement <;> rfl
    | computed result => cases result <;> rfl
  refine ⟨fun state => ?_, fun state => ?_, fun state _ _ => ?_⟩
  · obtain ⟨patterns, came⟩ := ran state
    rw [came]
  · obtain ⟨patterns, came⟩ := ran state
    rw [came]
    rfl
  · obtain ⟨patterns, came⟩ := ran state
    rw [came]
    cases complaint : Call.complaint? ⟨function, args⟩ with
    | none => simp [Call.complaints, complaint]
    | some message =>
      simp [Call.complaints, complaint, Complaint.lastStanding, Complaint.stands]

/-- A node keeps the message found within it exactly when it comes out false. -/
theorem settle_follows {body : Eval Datum} {result : Except EvalError Datum} {calls : List Call}
    {complaints : List Complaint} (follows : Follows body result calls complaints) :
    Follows (settle body) result calls (complaints.map (Complaint.within result)) := by
  refine ⟨fun state => ?_, fun state => ?_, fun state datum came => ?_⟩
  · rw [(run_settle body state).1, follows.result_eq]
  · rw [(run_settle body state).2.1, follows.calls_eq]
  · subst came
    rw [(run_settle body state).2.2 datum (follows.result_eq _), follows.message_eq _ datum rfl,
      Option.or_none]
    cases truth : datum.truthy with
    | true =>
      have holds : isFalsy (.ok datum) = false := by simp [isFalsy, truth]
      simp [Complaint.lastStanding_within_of_not holds]
    | false =>
      have fails : isFalsy (.ok datum) = true := by simp [isFalsy, truth]
      simp [Complaint.lastStanding_within_of_falsy fails]

end Eval

/-! ## What a node does -/

namespace Account

/-- A computation that does what is written in the account. -/
def Describes (account : Account) (body : Eval Datum) : Prop :=
  body.Follows account.result account.calls account.complaints

/-- A node does what its account says when its own work does what is written below it. -/
theorem describes_settle {body : Eval Datum} {result : Except EvalError Datum}
    {call : Option Call} {parts : List Account}
    (follows : body.Follows result (callsOf parts ++ call.toList)
      (complaintsOf parts ++ call.toList.flatMap Call.complaints)) :
    (node result call parts).Describes (.settle body) := by
  unfold Describes
  simp only [Account.result, calls, complaints]
  exact Eval.settle_follows follows

theorem describes_leaf (datum : Datum) : (leaf datum).Describes (.settle (return datum)) :=
  describes_settle (.pure datum)

theorem describes_one {body : Eval Datum} {result : Except EvalError Datum} {part : Account}
    (follows : body.Follows result part.calls part.complaints) :
    (node result none [part]).Describes (.settle body) :=
  describes_settle (by simpa [callsOf, complaintsOf] using follows)

theorem describes_two {body : Eval Datum} {result : Except EvalError Datum} {left right : Account}
    (follows : body.Follows result (left.calls ++ right.calls)
      (left.complaints ++ right.complaints)) :
    (node result none [left, right]).Describes (.settle body) :=
  describes_settle (by simpa [callsOf, complaintsOf] using follows)

/-- A computation that goes on with the value of another one, without a call of its own. -/
theorem Describes.ending {account : Account} {body : Eval Datum} (does : account.Describes body)
    (apply : Datum → Except EvalError Datum) {next : Datum → Eval Datum}
    (applies : ∀ datum, (next datum).Follows (apply datum) [] []) :
    (body >>= next).Follows (account.result.bind apply) account.calls account.complaints := by
  unfold Describes at does
  cases came : account.result with
  | error error =>
    rw [came] at does
    exact does.stop
  | ok datum =>
    rw [came] at does
    exact does.ending next (applies datum)

/-- The computations of both operands, and then with their values. -/
theorem describes_both {left right : Account} {first second : Eval Datum}
    {apply : Datum → Datum → Except EvalError Datum} (left_does : left.Describes first)
    (right_does : right.Describes second) :
    (both apply left right).Describes (.settle do
      let left ← first
      let right ← second
      liftExcept (apply left right)) := by
  unfold both
  cases left_came : left.result with
  | error error =>
    rw [Describes, left_came] at left_does
    exact describes_one left_does.stop
  | ok datum =>
    rw [Describes, left_came] at left_does
    have right_then := right_does.ending (apply datum) fun other => .lift (apply datum other)
    exact describes_two
      (left_does.bind (fun left => second >>= fun right => liftExcept (apply left right)) right_then)

/-- The computation of the left side, and of the right side where the left one does not decide. -/
theorem describes_decide {left right : Account} {first second : Eval Datum} (decisive : Bool)
    {next : Datum → Eval Datum}
    (decided : ∀ datum : Datum, datum.truthy = decisive → next datum = return .bool decisive)
    (undecided : ∀ datum : Datum, datum.truthy ≠ decisive →
      next datum = second >>= fun other => return .bool other.truthy)
    (left_does : left.Describes first) (right_does : right.Describes second) :
    (decide decisive left right).Describes (.settle (first >>= next)) := by
  unfold decide
  cases left_came : left.result with
  | error error =>
    rw [Describes, left_came] at left_does
    exact describes_one left_does.stop
  | ok datum =>
    rw [Describes, left_came] at left_does
    by_cases decides : datum.truthy = decisive
    · simp only [if_pos decides]
      refine describes_one (left_does.ending next ?_)
      rw [decided datum decides]
      exact .pure _
    · simp only [if_neg decides]
      refine describes_two (left_does.bind next ?_)
      rw [undecided datum decides]
      exact right_does.ending (fun other => .ok (.bool other.truthy)) fun other => .pure _

end Account

namespace Node

variable {catalog : Catalog} {size : Nat} (heap : Heap catalog size) (scope : Scope size)

mutual

/-- The evaluator does what its account says. -/
theorem eval_follows : ∀ node : Node, (account heap scope node).Describes (eval heap scope node)
  | .literal value => by
    rw [account, eval]
    exact Account.describes_leaf _
  | .current => by
    rw [account, eval]
    exact Account.describes_leaf _
  | .sibling path => by
    rw [account, eval]
    exact Account.describes_leaf _
  | .unary op operand => by
    rw [account, eval]
    exact Account.describes_one ((eval_follows operand).ending op.apply fun _ => .lift _)
  | .arithmetic op left right => by
    rw [account, eval]
    exact Account.describes_both (eval_follows left) (eval_follows right)
  | .comparison op left right => by
    rw [account, eval]
    exact Account.describes_both (eval_follows left) (eval_follows right)
  | .connective .and left right => by
    rw [account, eval]
    refine Account.describes_decide false ?_ ?_ (eval_follows left) (eval_follows right)
    · intro datum truth
      simp [truth]
    · intro datum truth
      simp [truth]
  | .connective .or left right => by
    rw [account, eval]
    refine Account.describes_decide true ?_ ?_ (eval_follows left) (eval_follows right)
    · intro datum truth
      simp [truth]
    · intro datum truth
      simp [truth]
  | .call function args => by
    rw [account, eval]
    have args_do := evalAll_follows args
    unfold Account.ofCall
    cases args_came : Account.results (accounts heap scope args) with
    | error error =>
      rw [args_came] at args_do
      exact Account.describes_settle (by simpa using args_do.stop)
    | ok data =>
      rw [args_came] at args_do
      apply Account.describes_settle
      simpa using args_do.bind (fun args => Eval.call function args) (Eval.call_follows function data)

/-- Arguments are evaluated up to the first that ends in an error. -/
theorem evalAll_follows : ∀ nodes : List Node,
    (evalAll heap scope nodes).Follows (Account.results (accounts heap scope nodes))
      (Account.callsOf (accounts heap scope nodes))
      (Account.complaintsOf (accounts heap scope nodes))
  | [] => by
    rw [accounts, evalAll]
    exact .pure []
  | node :: rest => by
    rw [accounts, evalAll]
    have node_does := eval_follows node
    rw [Account.Describes] at node_does
    cases came : (account heap scope node).result with
    | error error =>
      rw [came] at node_does
      simpa [Account.results, Account.callsOf, Account.complaintsOf, came, Except.bind] using
        node_does.stop
    | ok datum =>
      rw [came] at node_does
      have rest_do := evalAll_follows rest
      have rest_then : (evalAll heap scope rest >>= fun others => return datum :: others).Follows
          ((Account.results (accounts heap scope rest)).map (datum :: ·))
          (Account.callsOf (accounts heap scope rest))
          (Account.complaintsOf (accounts heap scope rest)) := by
        cases rest_came : Account.results (accounts heap scope rest) with
        | error error =>
          rw [rest_came] at rest_do
          exact rest_do.stop
        | ok others =>
          rw [rest_came] at rest_do
          exact rest_do.ending _ (.pure _)
      have both := node_does.bind
        (fun first => evalAll heap scope rest >>= fun others => return first :: others) rest_then
      simpa [Account.results, Account.callsOf, Account.complaintsOf, came, Except.bind] using both

end

theorem run_fst (node : Node) (ledger : Ledger) :
    (node.run heap scope ledger).1 = (node.account heap scope).result :=
  (node.eval_follows heap scope).result_eq ⟨none, ledger⟩

theorem run_calls (node : Node) (ledger : Ledger) :
    (node.run heap scope ledger).2.ledger.calls =
      (node.account heap scope).calls.reverse ++ ledger.calls :=
  (node.eval_follows heap scope).calls_eq ⟨none, ledger⟩

/-- The message recorded in the end is that of the last complaint that stands. -/
theorem run_message (node : Node) (ledger : Ledger) {datum : Datum}
    (came : (node.account heap scope).result = .ok datum) :
    (node.run heap scope ledger).2.message = (node.account heap scope).standing := by
  have message := (node.eval_follows heap scope).message_eq ⟨none, ledger⟩ datum came
  rw [Option.or_none] at message
  exact message

end Node

namespace Account

mutual

/-- There is one complaint for each call of a predicate that failed, in the order of the calls. -/
theorem messages_complaints : ∀ account : Account,
    account.complaints.map (·.message) = account.calls.filterMap Call.complaint?
  | .node result call parts => by
    rw [complaints, calls, List.map_map, List.filterMap_append, ← messages_complaintsOf parts,
      List.map_append]
    congr 1
    cases call with
    | none => rfl
    | some call =>
      cases complaint : call.complaint? <;> simp [Call.complaints, complaint, Complaint.within]

theorem messages_complaintsOf : ∀ parts : List Account,
    (complaintsOf parts).map (·.message) = (callsOf parts).filterMap Call.complaint?
  | [] => rfl
  | part :: rest => by
    rw [complaintsOf, callsOf, List.map_append, List.filterMap_append, messages_complaints part,
      messages_complaintsOf rest]

end

end Account

end

/-! ## The verdict -/

namespace Rule

section

variable [PatternLibrary] {catalog : Catalog} {size : Nat} (heap : Heap catalog size)
  (scope : Scope size)

theorem explain_fst (rule : Rule) (recorded : Option String) (ledger : Ledger) :
    (rule.explain heap scope recorded ledger).1 =
      .fail ((rule.ownMessage heap scope).or recorded) := by
  unfold explain ownMessage
  cases rule.message with
  | none => rfl
  | some message =>
    have came := message.run_fst heap scope ledger
    simp only [Option.bind_some]
    rw [← came]
    cases message.run heap scope ledger with
    | mk result state => cases result <;> rfl

/-- A check comes to the verdict by the account of the condition. -/
theorem check_fst (rule : Rule) (ledger : Ledger) :
    (rule.check heap scope ledger).1 = rule.verdict heap scope := by
  have came := rule.condition.run_fst heap scope ledger
  have recorded : ∀ datum, (rule.condition.account heap scope).result = .ok datum → _ =
      (rule.condition.account heap scope).standing :=
    fun _ => rule.condition.run_message heap scope ledger
  unfold check verdict
  rw [← came] at recorded ⊢
  cases ran : rule.condition.run heap scope ledger with
  | mk result state =>
    rw [ran] at recorded
    cases result with
    | error error => simp [explain_fst]
    | ok datum =>
      cases truth : datum.truthy with
      | true => simp [truth]
      | false => simp [truth, explain_fst, ← recorded datum rfl]

/-- **What a check reports.**  The condition comes to what its account says, and makes the calls of
the account in their order; each of them that is a failed predicate has its complaint.  A check
passes exactly when the condition has a value that counts as true.  Otherwise the rule's own message
is reported where it has a value, and else the message of the last failed predicate around which
everything came out false; after an error there is none. -/
theorem check_reports_last_standing (rule : Rule) (ledger : Ledger) :
    let account := rule.condition.account heap scope
    (rule.check heap scope ledger).1 =
        (match account.result with
          | .ok datum =>
            if datum.truthy then .pass
            else .fail ((rule.ownMessage heap scope).or account.standing)
          | .error _ => .fail (rule.ownMessage heap scope)) ∧
      (∀ node : Node, (node.run heap scope ledger).1 = (node.account heap scope).result) ∧
      (rule.condition.run heap scope ledger).2.ledger.calls =
        account.calls.reverse ++ ledger.calls ∧
      account.complaints.map (·.message) = account.calls.filterMap Call.complaint? :=
  ⟨rule.check_fst heap scope ledger, fun node => node.run_fst heap scope ledger,
    rule.condition.run_calls heap scope ledger, Account.messages_complaints _⟩

end

attribute [local instance] Pattern.library

-- A rule's own message is reported as it is displayed, here a text and then a record; without one it
-- is the complaint of the predicate.
example :
    let heap : Heap ⟨1, #v[⟨"Account", "bank::Account", []⟩]⟩ 1 := ⟨#v[.record ⟨0, Nat.one_pos⟩ []]⟩
    let scope : Scope 1 := ⟨.object ⟨0, Nat.one_pos⟩, ⟨0, Nat.one_pos⟩⟩
    let condition : Node := .call .within [.literal (.int 7), .literal (.int 1), .literal (.int 5)]
    let verdict (message : Option Node) : Verdict :=
      (check heap scope ⟨"", condition, message, false⟩ (.start .empty)).1
    verdict (some (.literal (.str "too much"))) = .fail (some "too much") ∧
      verdict (some .current) = .fail (some "\x7bbank::Account\x7d") ∧
      verdict none = .fail (some "[1, 5] range exceeded") := by
  decide +kernel

end Rule

end Proviso
