/- # Proviso.Proofs.Walk.AbsentField -- which rules run on absent fields

A condition asks about absence when it has a nil literal somewhere, or `$` somewhere below a call
(`Expr.AsksAboutAbsence`).  Whether it does is found by two recursions over the tree, one that looks
for `$` and one that starts the other at each call; `Expr.mentionsCurrent_iff` and
`Expr.testsAbsence_iff` say what they find.

The answer for the tree as written is kept with the compiled rule, and it alone decides about a field
that holds nothing: `Walk.run_visitField_absent`.  Below such a field there is nothing to visit. -/
import Proviso.Pattern.OfText
import Proviso.Proofs.Rule.Resolution
import Proviso.Proofs.Walk.Play

namespace Proviso

set_option autoImplicit false

/-! ## What a condition asks about -/

namespace Expr

/-- There is a nil literal, or `$` occurs in an argument of a call, at any depth. -/
def AsksAboutAbsence (condition : Expr) : Prop :=
  .literal .nil ∈ condition.nodes ∨
    ∃ name args, .call name args ∈ condition.nodes ∧ ∃ arg ∈ args, .current ∈ arg.nodes

/-- The nodes of expressions are those of each of them. -/
theorem mem_nodesOfAll {node : Expr} {exprs : List Expr} :
    node ∈ nodesOfAll exprs ↔ ∃ expr ∈ exprs, node ∈ expr.nodes := by
  induction exprs with
  | nil => simp [nodesOfAll]
  | cons expr rest ih => simp [nodesOfAll, ih]

mutual

theorem mentionsCurrent_iff : ∀ expr : Expr, expr.mentionsCurrent ↔ .current ∈ expr.nodes
  | .literal value => by simp [mentionsCurrent, nodes]
  | .current => by simp [mentionsCurrent, nodes]
  | .sibling path => by simp [mentionsCurrent, nodes]
  | .unary op operand => by simp [mentionsCurrent, nodes, mentionsCurrent_iff operand]
  | .arithmetic op left right => by
    simp [mentionsCurrent, nodes, mentionsCurrent_iff left, mentionsCurrent_iff right]
  | .comparison op left right => by
    simp [mentionsCurrent, nodes, mentionsCurrent_iff left, mentionsCurrent_iff right]
  | .connective op left right => by
    simp [mentionsCurrent, nodes, mentionsCurrent_iff left, mentionsCurrent_iff right]
  | .call name args => by
    simp [mentionsCurrent, nodes, anyMentionsCurrent_iff args, mem_nodesOfAll]

theorem anyMentionsCurrent_iff : ∀ exprs : List Expr,
    anyMentionsCurrent exprs ↔ ∃ expr ∈ exprs, .current ∈ expr.nodes
  | [] => by simp [anyMentionsCurrent]
  | expr :: rest => by
    simp [anyMentionsCurrent, mentionsCurrent_iff expr, anyMentionsCurrent_iff rest]

end

/-! ### What a node asks by itself or through those below it -/

theorem asksAboutAbsence_unary (op : UnaryOperator) (operand : Expr) :
    (unary op operand).AsksAboutAbsence ↔ operand.AsksAboutAbsence := by
  simp [AsksAboutAbsence, nodes]

/-- A node that is no call of itself and no literal asks what its two operands ask. -/
theorem asksAboutAbsence_pair (whole left right : Expr)
    (nodes_eq : whole.nodes = whole :: (left.nodes ++ right.nodes))
    (no_literal : whole ≠ .literal .nil) (no_call : ∀ name args, whole ≠ .call name args) :
    whole.AsksAboutAbsence ↔ left.AsksAboutAbsence ∨ right.AsksAboutAbsence := by
  unfold AsksAboutAbsence
  rw [nodes_eq]
  simp only [List.mem_cons, List.mem_append, no_literal.symm, (no_call _ _).symm, false_or]
  constructor
  · rintro ((nil | nil) | ⟨name, args, called | called, hands⟩)
    · exact .inl (.inl nil)
    · exact .inr (.inl nil)
    · exact .inl (.inr ⟨name, args, called, hands⟩)
    · exact .inr (.inr ⟨name, args, called, hands⟩)
  · rintro ((nil | ⟨name, args, called, hands⟩) | (nil | ⟨name, args, called, hands⟩))
    · exact .inl (.inl nil)
    · exact .inr ⟨name, args, .inl called, hands⟩
    · exact .inl (.inr nil)
    · exact .inr ⟨name, args, .inr called, hands⟩

/-- A call asks by `$` in an argument, or through an argument. -/
theorem asksAboutAbsence_call (name : String) (args : List Expr) :
    (call name args).AsksAboutAbsence ↔
      ∃ arg ∈ args, .current ∈ arg.nodes ∨ arg.AsksAboutAbsence := by
  unfold AsksAboutAbsence
  simp only [nodes, List.mem_cons, mem_nodesOfAll, reduceCtorEq, false_or, call.injEq]
  constructor
  · rintro (⟨arg, given, nil⟩ | ⟨inner, others, ⟨rfl, rfl⟩ | ⟨arg, given, called⟩, hands⟩)
    · exact ⟨arg, given, .inr (.inl nil)⟩
    · obtain ⟨arg, given, here⟩ := hands
      exact ⟨arg, given, .inl here⟩
    · exact ⟨arg, given, .inr (.inr ⟨inner, others, called, hands⟩)⟩
  · rintro ⟨arg, given, here | nil | ⟨inner, others, called, hands⟩⟩
    · exact .inr ⟨name, args, .inl ⟨rfl, rfl⟩, arg, given, here⟩
    · exact .inl ⟨arg, given, nil⟩
    · exact .inr ⟨inner, others, .inr ⟨arg, given, called⟩, hands⟩

mutual

theorem testsAbsence_iff : ∀ expr : Expr, expr.testsAbsence ↔ expr.AsksAboutAbsence
  | .literal value => by simp [testsAbsence, AsksAboutAbsence, nodes, @eq_comm _ value]
  | .current => by simp [testsAbsence, AsksAboutAbsence, nodes]
  | .sibling path => by simp [testsAbsence, AsksAboutAbsence, nodes]
  | .unary op operand => by
    rw [testsAbsence, testsAbsence_iff operand, asksAboutAbsence_unary]
  | .arithmetic op left right => by
    rw [testsAbsence, Bool.or_eq_true, testsAbsence_iff left, testsAbsence_iff right,
      asksAboutAbsence_pair (.arithmetic op left right) left right (by rw [nodes]) nofun nofun]
  | .comparison op left right => by
    rw [testsAbsence, Bool.or_eq_true, testsAbsence_iff left, testsAbsence_iff right,
      asksAboutAbsence_pair (.comparison op left right) left right (by rw [nodes]) nofun nofun]
  | .connective op left right => by
    rw [testsAbsence, Bool.or_eq_true, testsAbsence_iff left, testsAbsence_iff right,
      asksAboutAbsence_pair (.connective op left right) left right (by rw [nodes]) nofun nofun]
  | .call name args => by
    rw [testsAbsence, anyTestsAbsence_iff args, asksAboutAbsence_call]

theorem anyTestsAbsence_iff : ∀ exprs : List Expr,
    anyTestsAbsence exprs ↔ ∃ expr ∈ exprs, .current ∈ expr.nodes ∨ expr.AsksAboutAbsence
  | [] => by simp [anyTestsAbsence]
  | expr :: rest => by
    simp [anyTestsAbsence, mentionsCurrent_iff expr, testsAbsence_iff expr,
      anyTestsAbsence_iff rest]

end

end Expr

/-- A compiled rule knows whether the condition that was written asks about absence. -/
theorem Rule.testsAbsence_of_compile {catalog : Catalog} {type : catalog.TypeId}
    {registry : Registry} {source : String} {rule : Rule}
    (compiled : compile catalog type registry source = .ok rule) :
    ∃ clause, Clause.parse source = .ok clause ∧ rule.erase? catalog type = some clause ∧
      (rule.testsAbsence ↔ clause.condition.AsksAboutAbsence) := by
  unfold compile at compiled
  cases parsed : Clause.parse source with
  | error error =>
    rw [parsed] at compiled
    cases compiled
  | ok clause =>
    rw [parsed] at compiled
    have reports := @ofClause_reports catalog type registry source clause
    rw [show ofClause catalog type registry source clause = .ok rule from compiled] at reports
    have restates := reports.good_of_ok
    refine ⟨clause, rfl, restates.erased, ?_⟩
    rw [restates.testsAbsence_eq, Expr.testsAbsence_iff]

/-! ## A visit to an absent field -/

namespace Walk

variable [PatternLibrary] {catalog : Catalog} {size : Nat} (context : WalkContext catalog size)

/-- What a visit to a field comes to when its rule is evaluated and there is nothing below: the calls
of the check are kept, and a failure is added at the path of the field. -/
def evaluate (rule : Rule) (scope : Scope size) (name : String) (state : WalkState catalog size) :
    Except CompileError Flow × WalkState catalog size :=
  match rule.check context.heap scope state.ledger with
  | (.pass, ledger) => (.ok .continue, state.withLedger ledger)
  | (.fail message, ledger) =>
    (.ok (if context.collectAll then .continue else .stop),
      ⟨state.cache, ledger, state.path, state.guard,
        ⟨state.path.push (.field name), message⟩ :: state.failures⟩)

/-- A field that holds nothing has its rule evaluated if the rule tests for absence, and that is
all. -/
theorem run_visitField_absent {record : Fin size} {field : FieldRule} {rule : Rule}
    (has_rule : field.rule = some rule)
    (absent : (context.heap.object record).get (.field field.index) = .nil) (levels : Nat)
    (state : WalkState catalog size) :
    (visitField context (descend context levels) record field).run state =
      if rule.testsAbsence then evaluate context rule ⟨.nil, record⟩ field.name state
      else (.ok .continue, state) := by
  unfold visitField
  rw [run_within, absent, has_rule, run_bind]
  unfold checkField
  by_cases tests : rule.testsAbsence = true
  · have applied : applies rule (.nil : Value size) = true := by
      simp [applies, tests]
    simp only [applied, if_true, tests]
    rw [run_bind, show (get : Walk catalog size _).run (state.withPath _) = (.ok _, _) from rfl]
    unfold evaluate
    dsimp only [WalkState.withPath]
    rcases rule.check context.heap ⟨.nil, record⟩ state.ledger with ⟨_ | message, ledger⟩
    · cases levels <;> rfl
    · cases context.collectAll <;> cases levels <;> rfl
  · have skipped : applies rule (.nil : Value size) = false := by
      simpa [applies] using tests
    simp only [skipped, tests]
    cases levels <;> rfl

end Walk

/-! ## What lies below -/

namespace Heap

variable {catalog : Catalog} {size : Nat} (heap : Heap catalog size)

/-- A field that holds nothing is met by a step that leads to nothing. -/
theorem itinerary_of_stop_absent {visit : Visit size} {id : Fin size} {trail : Trail size}
    {move : (Segment × Value size) × Nat} (listed : move ∈ (heap.moves id).zipIdx)
    (met : (.check visit : Event catalog size) ∈
      Trail.stop (trail.down id move.2 move.1.1) id move.2 move.1.1)
    (absent : (heap.object visit.record).get (.field visit.position) = .nil) :
    heap.itinerary (trail.down id move.2 move.1.1) move.1.2 = [] := by
  obtain ⟨⟨segment, child⟩, position⟩ := move
  cases segment with
  | field name =>
    simp only [Trail.stop, List.mem_singleton, Event.check.injEq] at met
    subst met
    have holds := get_of_move (List.mk_mem_zipIdx_iff_getElem?.mp listed)
    simp only [← holds, absent, itinerary]
  | index position => simp [Trail.stop] at met
  | mapValue => simp [Trail.stop] at met

/-- Nothing that is met lies below a field that holds nothing. -/
theorem not_below_absent {visit below : Visit size} {trail : Trail size} {value : Value size}
    (listed : .check visit ∈ heap.itinerary trail value)
    (absent : (heap.object visit.record).get (.field visit.position) = .nil)
    (also_listed : .check below ∈ heap.itinerary trail value) (position : Nat) (rest : List Nat) :
    below.address ≠ visit.address ++ position :: rest := by
  fun_induction heap.itinerary trail value with
  | case1 trail id again => simp at listed
  | case3 trail value scalar => simp at listed
  | case2 trail id unentered ih =>
    simp only [List.mem_append, heap.check_not_mem_arrival, false_or, List.mem_flatMap]
      at listed also_listed
    obtain ⟨move, leads, met⟩ := listed
    obtain ⟨other, also_leads, also_met⟩ := also_listed
    obtain ⟨onward, address⟩ := heap.address_of_mem_step (List.mem_append.mpr met)
    obtain ⟨others, also_address⟩ := heap.address_of_mem_step (List.mem_append.mpr also_met)
    intro deeper
    -- Both are met by the same step, since their addresses go on alike.
    have same_place : other.2 = move.2 := by
      rw [address, also_address, List.append_assoc, List.append_cancel_left_eq] at deeper
      exact (List.cons.inj deeper).1
    have same : other = move := by
      refine Prod.ext ?_ same_place
      have here := List.mk_mem_zipIdx_iff_getElem?.mp leads
      have there := List.mk_mem_zipIdx_iff_getElem?.mp also_leads
      rw [same_place, here] at there
      exact (Option.some.inj there).symm
    subst same
    rcases met with stops | lies
    · have nothing := heap.itinerary_of_stop_absent leads stops absent
      rw [nothing] at also_met
      have at_stop := address_of_mem_stop (also_met.resolve_right List.not_mem_nil)
      rw [address_of_mem_stop stops] at deeper
      simp [at_stop] at deeper
    · rcases also_met with stops | also_lies
      · obtain ⟨next, later, longer⟩ := heap.address_of_mem_itinerary lies
        rw [address_of_mem_stop stops, longer] at deeper
        simp at deeper
      · exact ih other lies also_lies deeper

end Heap

/-! ## Rules on absent fields -/

namespace Walk

variable {catalog : Catalog} {size : Nat}

/-- **On an absent field the rules run that ask about absence.**  For every text that compiles to a
rule: a visit to a field that holds nothing evaluates the rule exactly when the condition that was
written has a nil literal, or `$` in an argument of a call, at any depth; the message makes no
difference.  When the rule is evaluated, the visit does what the check does and no more; when it is
not, the visit changes nothing.  And no walk of any root visits anything below the field. -/
theorem absent_field_runs_rules_that_ask [PatternLibrary] {type : catalog.TypeId}
    {registry : Registry} {source : String} {rule : Rule}
    (compiled : Rule.compile catalog type registry source = .ok rule)
    (context : WalkContext catalog size) (record : Fin size) (name : String) (index : Nat)
    (absent : (context.heap.object record).get (.field index) = .nil) :
    ∃ clause, Clause.parse source = .ok clause ∧ rule.erase? catalog type = some clause ∧
      (∀ levels state,
        let visited :=
          (visitField context (descend context levels) record ⟨name, index, some rule⟩).run state
        (clause.condition.AsksAboutAbsence →
          visited = evaluate context rule ⟨.nil, record⟩ name state) ∧
        (¬ clause.condition.AsksAboutAbsence → visited = (.ok .continue, state))) ∧
      ∀ root, ∀ visit ∈ context.heap.visits root, visit.record = record → visit.position = index →
        ∀ below ∈ context.heap.visits root, ∀ position rest,
          below.address ≠ visit.address ++ position :: rest := by
  obtain ⟨clause, parsed, erased, tests⟩ := Rule.testsAbsence_of_compile compiled
  refine ⟨clause, parsed, erased, fun levels state => ?_, ?_⟩
  · intro visited
    have ran : visited = _ := run_visitField_absent context rfl absent levels state
    rw [ran]
    constructor
    · intro asks
      rw [if_pos (tests.mpr asks)]
    · intro asks_not
      rw [if_neg fun applied => asks_not (tests.mp applied)]
  · rintro root visit listed rfl rfl below also_listed
    exact context.heap.not_below_absent (Heap.mem_checks.mp listed) absent
      (Heap.mem_checks.mp also_listed)

attribute [local instance] Pattern.library

def guestCatalog : Catalog := ⟨1, #v[⟨"Guest", "Guest", [⟨"Nick", [], none⟩]⟩]⟩

def guestType : guestCatalog.TypeId := ⟨0, by decide⟩

def namelessGuest : Heap guestCatalog 1 := ⟨#v[.record guestType [.nil]]⟩

/-- A rule that has `$` below an operator in an argument of a call, and below a call in that. -/
def guestRule : Rule where
  source := "in(1 + len($), 2, 3)"
  condition := .call .oneOf [.arithmetic .add (.literal (.int 1)) (.call .len [.current]),
    .literal (.int 2), .literal (.int 3)]
  message := none
  testsAbsence := true

theorem nameless_guest_fails :
    Rule.compile guestCatalog guestType .builtins guestRule.source = .ok guestRule ∧
      (namelessGuest.object 0).get (.field 0) = .nil ∧
      ((visitField ⟨namelessGuest, .builtins, true⟩ (descend ⟨namelessGuest, .builtins, true⟩ 2) 0
        ⟨"Nick", 0, some guestRule⟩).run (.initial (.empty _ "vd") (.start .empty))).2.failures =
          [⟨.push .root (.field "Nick"), some "[2 3] range exceeded"⟩] := by
  have parsed : Clause.parse guestRule.source = .ok ⟨
      .call "in" [.arithmetic .add (.literal (.int 1)) (.call "len" [.current]),
        .literal (.int 2), .literal (.int 3)], none⟩ := by decide +kernel
  have compiled :
      Rule.compile guestCatalog guestType .builtins guestRule.source = .ok guestRule := by
    unfold Rule.compile
    rw [parsed]
    rfl
  obtain ⟨clause, also_parsed, -, visits, -⟩ := absent_field_runs_rules_that_ask compiled
    ⟨namelessGuest, .builtins, true⟩ 0 "Nick" 0 rfl
  refine ⟨compiled, rfl, ?_⟩
  have asks : clause.condition.AsksAboutAbsence := by
    cases also_parsed.symm.trans parsed
    rw [← Expr.testsAbsence_iff]
    rfl
  rw [(visits 2 _).1 asks]
  decide +kernel

end Walk

end Proviso
