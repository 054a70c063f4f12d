/- # Proviso.Proofs.Rule.Calls -- what rules call

A rule is compiled only if everything that is called in it is registered and admits the number of
its arguments, at any depth of the condition and of the message.  When a call is made, all its
arguments have a value, so it is made with as many as it is written with: whatever is evaluated, the
calls that are made are calls of registered functions that admit them (`Node.run_calls_admitted`). -/
import Proviso.Proofs.Clause.Meaning
import Proviso.Proofs.Rule.Message
import Proviso.Rule.Compile

namespace Proviso

set_option autoImplicit false

/-! ## What is checked -/

mutual

/-- Everything that a node can call is registered, and admits the number of its arguments. -/
def Node.Admitted (registry : Registry) : Node → Prop
  | .literal _ | .current | .sibling _ => True
  | .unary _ operand => operand.Admitted registry
  | .arithmetic _ left right | .comparison _ left right | .connective _ left right =>
    left.Admitted registry ∧ right.Admitted registry
  | .call function args =>
    function ∈ registry.functions ∧ function.Admits args.length ∧ AllAdmitted registry args

def AllAdmitted (registry : Registry) : List Node → Prop
  | [] => True
  | node :: rest => node.Admitted registry ∧ AllAdmitted registry rest

end

theorem Function.admits_of_checkArity {function : Function} {count : Nat}
    (checked : function.checkArity count = .ok ()) : function.Admits count := by
  unfold checkArity at checked
  split at checked
  · cases checked
  · rename_i enough
    refine ⟨Nat.not_lt.mp enough, fun most listed => ?_⟩
    rw [Option.mem_def.mp listed] at checked
    simp only at checked
    split at checked
    · cases checked
    · rename_i not_over
      exact Nat.not_lt.mp not_over

namespace Expr

variable {catalog : Catalog} {type : catalog.TypeId} {registry : Registry}

mutual

theorem resolve_admitted : ∀ {expr : Expr} {node : Node},
    expr.resolve catalog type registry = .ok node → node.Admitted registry
  | .literal value, node, resolved => by
    cases resolved
    trivial
  | .current, node, resolved => by
    cases resolved
    trivial
  | .sibling path, node, resolved => by
    rw [resolve] at resolved
    obtain ⟨steps, -, resolved⟩ := exists_of_bind_eq_ok resolved
    cases resolved
    trivial
  | .unary op operand, node, resolved => by
    rw [resolve] at resolved
    obtain ⟨inner, operand_resolved, resolved⟩ := exists_of_bind_eq_ok resolved
    cases resolved
    show inner.Admitted registry
    exact resolve_admitted operand_resolved
  | .arithmetic op left right, node, resolved
  | .comparison op left right, node, resolved
  | .connective op left right, node, resolved => by
    rw [resolve] at resolved
    obtain ⟨first, left_resolved, resolved⟩ := exists_of_bind_eq_ok resolved
    obtain ⟨second, right_resolved, resolved⟩ := exists_of_bind_eq_ok resolved
    cases resolved
    exact ⟨resolve_admitted left_resolved, resolve_admitted right_resolved⟩
  | .call name args, node, resolved => by
    rw [resolve] at resolved
    cases found : registry.lookup? name with
    | none =>
      rw [found] at resolved
      cases resolved
    | some function =>
      rw [found] at resolved
      obtain ⟨_, checked, resolved⟩ := exists_of_bind_eq_ok resolved
      obtain ⟨nodes, args_resolved, resolved⟩ := exists_of_bind_eq_ok resolved
      cases resolved
      obtain ⟨length_eq, admitted⟩ := resolveAll_admitted args_resolved
      have admits := Function.admits_of_checkArity checked
      rw [← length_eq] at admits
      exact ⟨List.mem_of_find?_eq_some found, admits, admitted⟩

theorem resolveAll_admitted : ∀ {exprs : List Expr} {nodes : List Node},
    resolveAll catalog type registry exprs = .ok nodes →
      nodes.length = exprs.length ∧ AllAdmitted registry nodes
  | [], nodes, resolved => by
    cases resolved
    exact ⟨rfl, trivial⟩
  | expr :: rest, nodes, resolved => by
    rw [resolveAll] at resolved
    obtain ⟨first, first_resolved, resolved⟩ := exists_of_bind_eq_ok resolved
    obtain ⟨others, rest_resolved, resolved⟩ := exists_of_bind_eq_ok resolved
    cases resolved
    obtain ⟨length_eq, admitted⟩ := resolveAll_admitted rest_resolved
    exact ⟨congrArg Nat.succ length_eq, resolve_admitted first_resolved, admitted⟩

end

end Expr

/-- What a rule evaluates, its message included, calls what is registered with as many arguments as
it admits. -/
theorem Rule.admitted_of_compile {catalog : Catalog} {type : catalog.TypeId} {registry : Registry}
    {source : String} {rule : Rule} (compiled : compile catalog type registry source = .ok rule) :
    rule.condition.Admitted registry ∧ ∀ message ∈ rule.message, message.Admitted registry := by
  unfold compile at compiled
  cases parsed : Clause.parse source with
  | error error =>
    rw [parsed] at compiled
    cases compiled
  | ok clause =>
    rw [parsed] at compiled
    obtain ⟨condition, condition_resolved, compiled⟩ := exists_of_bind_eq_ok compiled
    have condition_admitted := Expr.resolve_admitted condition_resolved
    cases written : clause.message with
    | none =>
      simp only [written] at compiled
      cases compiled
      exact ⟨condition_admitted, by simp⟩
    | some message =>
      simp only [written] at compiled
      obtain ⟨_, message_resolved, compiled⟩ := exists_of_bind_eq_ok compiled
      cases compiled
      cases came : message.resolve catalog type registry with
      | error error =>
        rw [came] at message_resolved
        cases message_resolved
      | ok node =>
        rw [came] at message_resolved
        cases message_resolved
        refine ⟨condition_admitted, fun other is_message => ?_⟩
        cases is_message
        exact Expr.resolve_admitted came

/-! ## What is called -/

/-- The function is registered, and admits the number of arguments that it is called with. -/
def Call.Admitted (registry : Registry) (call : Call) : Prop :=
  call.function ∈ registry.functions ∧ call.function.Admits call.args.length

namespace Account

variable {holds : Call → Prop} {left right : Account}

theorem forall_callsOf {parts : List Account}
    (in_parts : ∀ part ∈ parts, ∀ call ∈ part.calls, holds call) :
    ∀ call ∈ callsOf parts, holds call := by
  induction parts with
  | nil => simp [callsOf]
  | cons part rest ih =>
    obtain ⟨in_part, in_rest⟩ := List.forall_mem_cons.mp in_parts
    rw [callsOf]
    exact List.forall_mem_append.mpr ⟨in_part, ih in_rest⟩

/-- The calls of a node are those of its parts, and its own one. -/
theorem forall_calls {result : Except EvalError Datum} {own : Option Call} {parts : List Account}
    (in_parts : ∀ part ∈ parts, ∀ call ∈ part.calls, holds call)
    (holds_own : ∀ call ∈ own, holds call) :
    ∀ call ∈ (node result own parts).calls, holds call := by
  rw [calls]
  exact List.forall_mem_append.mpr ⟨forall_callsOf in_parts, by simpa using holds_own⟩

theorem calls_both (apply : Datum → Datum → Except EvalError Datum)
    (in_left : ∀ call ∈ left.calls, holds call) (in_right : ∀ call ∈ right.calls, holds call) :
    ∀ call ∈ (both apply left right).calls, holds call := by
  unfold both
  split
  · exact forall_calls (by simpa using in_left) (by simp)
  · exact forall_calls (by simpa using ⟨in_left, in_right⟩) (by simp)

theorem calls_decide (decisive : Bool) (in_left : ∀ call ∈ left.calls, holds call)
    (in_right : ∀ call ∈ right.calls, holds call) :
    ∀ call ∈ (decide decisive left right).calls, holds call := by
  unfold decide
  split
  · exact forall_calls (by simpa using in_left) (by simp)
  · split
    · exact forall_calls (by simpa using in_left) (by simp)
    · exact forall_calls (by simpa using ⟨in_left, in_right⟩) (by simp)

end Account

namespace Node

variable [PatternLibrary] {catalog : Catalog} {size : Nat} (heap : Heap catalog size) (scope : Scope size)

/-- The values of arguments are those of the first one and of the others. -/
theorem results_accounts_cons (node : Node) (rest : List Node) :
    Account.results (accounts heap scope (node :: rest)) =
      (node.account heap scope).result.bind fun datum =>
        (Account.results (accounts heap scope rest)).map (datum :: ·) := by
  rw [accounts]
  cases came : (node.account heap scope).result with
  | error error => simp [Account.results, came, Except.bind]
  | ok datum => simp [Account.results, came]

/-- A call is made with as many arguments as it is written with. -/
theorem length_of_results {nodes : List Node} {data : List Datum}
    (came : Account.results (accounts heap scope nodes) = .ok data) :
    data.length = nodes.length := by
  induction nodes generalizing data with
  | nil =>
    cases came
    rfl
  | cons node rest ih =>
    rw [results_accounts_cons] at came
    obtain ⟨first, -, came⟩ := exists_of_bind_eq_ok came
    cases others_came : Account.results (accounts heap scope rest) with
    | error error =>
      rw [others_came] at came
      cases came
    | ok others =>
      rw [others_came] at came
      cases came
      exact congrArg Nat.succ (ih others_came)

variable {registry : Registry}

mutual

theorem calls_admitted : ∀ {node : Node}, node.Admitted registry →
    ∀ call ∈ (node.account heap scope).calls, call.Admitted registry
  | .literal _, _ | .current, _ | .sibling _, _ => by
    rw [account]
    exact Account.forall_calls (by simp) (by simp)
  | .unary _ operand, admitted => by
    rw [account]
    have in_operand : ∀ call ∈ (operand.account heap scope).calls, call.Admitted registry :=
      calls_admitted admitted
    exact Account.forall_calls (by simpa using in_operand) (by simp)
  | .arithmetic _ left right, ⟨in_left, in_right⟩
  | .comparison _ left right, ⟨in_left, in_right⟩ => by
    rw [account]
    exact Account.calls_both _ (calls_admitted in_left) (calls_admitted in_right)
  | .connective .and left right, ⟨in_left, in_right⟩
  | .connective .or left right, ⟨in_left, in_right⟩ => by
    rw [account]
    exact Account.calls_decide _ (calls_admitted in_left) (calls_admitted in_right)
  | .call function args, ⟨listed, admits, all_admitted⟩ => by
    rw [account, Account.ofCall]
    have in_args := accounts_admitted all_admitted
    split
    · exact Account.forall_calls in_args (by simp)
    · rename_i data came
      have length_eq := length_of_results heap scope came
      have own : Call.Admitted registry ⟨function, data⟩ := ⟨listed, length_eq ▸ admits⟩
      exact Account.forall_calls in_args (by simpa using own)

theorem accounts_admitted : ∀ {nodes : List Node}, AllAdmitted registry nodes →
    ∀ part ∈ accounts heap scope nodes, ∀ call ∈ part.calls, call.Admitted registry
  | [], _ => by simp [accounts]
  | node :: rest, ⟨admitted, rest_admitted⟩ => by
    have in_node := calls_admitted admitted
    rw [accounts]
    split
    · exact List.forall_mem_cons.mpr ⟨in_node, accounts_admitted rest_admitted⟩
    · exact List.forall_mem_cons.mpr ⟨in_node, by simp⟩

end

/-- **Whatever is evaluated, each call that is made is admitted.**  The calls that an evaluation adds
to the ledger are calls of registered functions with a number of arguments that they admit. -/
theorem run_calls_admitted {node : Node} (admitted : node.Admitted registry) (ledger : Ledger) :
    ∃ calls, (node.run heap scope ledger).2.ledger.calls = calls ++ ledger.calls ∧
      ∀ call ∈ calls, call.Admitted registry := by
  refine ⟨(node.account heap scope).calls.reverse, node.run_calls heap scope ledger, ?_⟩
  intro call made
  exact calls_admitted heap scope admitted call (List.mem_reverse.mp made)

end Node

end Proviso
