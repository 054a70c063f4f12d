/- # Proviso.Proofs.Rule.Modular -- sums and products modulo two to the power 64

Every text of sums and products compiles, and comes to a whole number wherever `$` stands for one:
the one in the range of 64 bits that differs from the integer that the text stands for by a multiple
of two to the power 64 (`Rule.arithmetic_modular`).  It does not matter how often a sum or a product
in between is out of range, because each operator is the one on integers up to such multiples. -/
import Proviso.Pattern.OfText
import Proviso.Proofs.Clause.Arithmetic
import Proviso.Proofs.Rule.Bare
import Proviso.Proofs.Rule.Values

namespace Proviso

set_option autoImplicit false

/-- Where `$` is a whole number, the expression comes to the word of the value. -/
def Node.Wraps [PatternLibrary] (catalog : Catalog) (node : Node) (value : Int → Int) : Prop :=
  ∀ (size : Nat) (heap : Heap catalog size) (scope : Scope size) (x : Int64),
    scope.current = .int x → node.ComesTo heap scope (.int (.ofInt (value x.toInt)))

theorem Expr.Amounts.resolve [PatternLibrary] {expr : Expr} {value : Int → Int}
    (amounts : expr.Amounts value) (catalog : Catalog) (type : catalog.TypeId)
    (registry : Registry) :
    ∃ node, expr.resolve catalog type registry = .ok node ∧ node.Wraps catalog value := by
  induction amounts with
  | literal number =>
    refine ⟨_, rfl, fun size heap scope x is_whole => ?_⟩
    rw [Int64.ofInt_toInt]
    exact Node.comesTo_literal (.int number)
  | current =>
    refine ⟨_, rfl, fun size heap scope x is_whole => ?_⟩
    have comes : Node.current.ComesTo heap scope (heap.datum scope.current) := Node.comesTo_current
    rw [is_whole] at comes
    rw [id, Int64.ofInt_toInt]
    exact comes
  | @neg operand value amounts ih =>
    obtain ⟨node, resolved, wraps⟩ := ih
    refine ⟨.unary .neg node, by rw [Expr.resolve, resolved]; rfl, ?_⟩
    intro size heap scope x is_whole
    refine (wraps size heap scope x is_whole).unary ?_
    rw [Int64.ofInt_neg]
    rfl
  | @arithmetic op apply left right value value' on_integers amounts amounts' ih ih' =>
    obtain ⟨node, resolved, wraps⟩ := ih
    obtain ⟨node', resolved', wraps'⟩ := ih'
    refine ⟨.arithmetic op node node', by rw [Expr.resolve, resolved, resolved']; rfl, ?_⟩
    intro size heap scope x is_whole
    exact (wraps size heap scope x is_whole).arithmetic (wraps' size heap scope x is_whole)
      (op.apply_ofInt on_integers _ _)

namespace Rule

/-- What is parsed as such an expression is compiled to a rule that comes to its value. -/
theorem compile_amounts [PatternLibrary] {source : String} {expr : Expr} {value : Int → Int}
    (parsed : Clause.parse source = .ok ⟨expr, none⟩) (amounts : expr.Amounts value)
    (catalog : Catalog) (type : catalog.TypeId) (registry : Registry) :
    ∃ rule, compile catalog type registry source = .ok rule ∧
      rule.condition.Wraps catalog value := by
  obtain ⟨node, resolved, wraps⟩ := amounts.resolve catalog type registry
  refine ⟨⟨source, node, none, expr.testsAbsence⟩, ?_, wraps⟩
  delta compile
  rw [parsed]
  show ofClause catalog type registry source ⟨expr, none⟩ = _
  rw [ofClause, resolved]
  rfl

/-- **Integer arithmetic is modulo two to the power 64.**  Every text of sums and products compiles
for every record type, and where `$` stands for a whole number it comes to the whole number that
differs from the integer it stands for by a multiple of two to the power 64. -/
theorem arithmetic_modular [PatternLibrary] {source : String} {value : Int → Int}
    (arithmetic : Arithmetic .sum source.toList value) (catalog : Catalog) (type : catalog.TypeId)
    (registry : Registry) :
    ∃ rule, compile catalog type registry source = .ok rule ∧
      ∀ (size : Nat) (heap : Heap catalog size) (scope : Scope size) (x : Int64),
        scope.current = .int x → ∃ result : Int64,
          rule.condition.ComesTo heap scope (.int result) ∧
          -0x8000000000000000 ≤ result.toInt ∧ result.toInt < 0x8000000000000000 ∧
          (0x10000000000000000 : Int) ∣ value x.toInt - result.toInt := by
  obtain ⟨expr, word, parsed, amounts, same⟩ := arithmetic.parse
  obtain ⟨rule, compiled, wraps⟩ := compile_amounts parsed amounts catalog type registry
  refine ⟨rule, compiled, fun size heap scope x is_whole => ?_⟩
  have comes := wraps size heap scope x is_whole
  rw [same x.toInt] at comes
  refine ⟨_, comes, Int64.le_toInt _, Int64.toInt_lt _, ?_⟩
  rw [Int64.toInt_ofInt]
  exact Int.dvd_self_sub_bmod

theorem arithmetic_two_minuses :
    Arithmetic .sum "-(--9223372036854775807 + 2) * $".toList
      fun x => -(- -9223372036854775807 + 2) * x := by
  have blank : ∀ c ∈ [' '], Phrase.isBlank c = true := List.all_eq_true.mp rfl
  have none_blank : ∀ c ∈ ([] : List Char), Phrase.isBlank c = true := nofun
  have greatest : Arithmetic .factor "9223372036854775807".toList fun _ => 9223372036854775807 :=
    .number ⟨by decide, List.all_eq_true.mp rfl, by decide⟩ (by decide)
  have two : Arithmetic .factor "2".toList fun _ => 2 :=
    .number ⟨by decide, List.all_eq_true.mp rfl, by decide⟩ (by decide)
  have inside := Arithmetic.plus
    (.blanks none_blank blank (.sum (.product greatest.minus.minus)))
    (.product (.blanks blank none_blank two))
  have whole := Arithmetic.sum (.times
    (.product (.blanks none_blank blank inside.group.minus))
    (.blanks blank none_blank .current))
  exact whole

attribute [local instance] Pattern.library

/-- At the least integer the sum is out of range, and so is the product. -/
theorem arithmetic_modular_leastCounter :
    ∃ rule, compile counterCatalog counterType .builtins "-(--9223372036854775807 + 2) * $" =
        .ok rule ∧
      rule.condition.ComesTo leastCounter ⟨.int Int64.minValue, 0⟩ (.int Int64.minValue) := by
  obtain ⟨rule, compiled, comes⟩ :=
    arithmetic_modular arithmetic_two_minuses counterCatalog counterType .builtins
  obtain ⟨result, comes, low, high, divides⟩ :=
    comes 1 leastCounter ⟨.int Int64.minValue, 0⟩ Int64.minValue rfl
  have result_eq : result = Int64.minValue := by
    apply Int64.toInt_inj.mp
    rw [Int64.toInt_minValue] at divides ⊢
    omega
  exact ⟨rule, compiled, result_eq ▸ comes⟩

end Rule

end Proviso
