/- # Proviso.Proofs.Rule.Comparison -- integers of 64 bits compared

An integer that fits in 64 bits with a sign is a whole number to an expression; one that takes 64
bits without a sign is the nearest double (`Datum.ofInteger`).  Whole numbers are compared exactly.
As soon as one side is a double both are, and as the doubles of integers are in the order of the
integers, all that can be lost is the difference of two integers with the same double
(`ComparisonOperator.holds_ofInteger`). -/
import Proviso.Pattern.OfText
import Proviso.Proofs.Binary64.Order
import Proviso.Proofs.Clause.Integers
import Proviso.Proofs.Clause.Layers
import Proviso.Proofs.Rule.Values
import Proviso.Rule.Compile

namespace Proviso

set_option autoImplicit false

/-! ## Operators by the order of their sides -/

/-- Whether the comparison holds of two sides in that order. -/
def ComparisonOperator.onOrdering (op : ComparisonOperator) (order : Ordering) : Bool :=
  match op with
  | .eq => order == .eq
  | .ne => order != .eq
  | .lt => order == .lt
  | .le => order != .gt
  | .gt => order == .gt
  | .ge => order != .lt

namespace ComparisonOperator

variable (op : ComparisonOperator)

/-- Data that have an order, and are equal where the order says so, are compared by it. -/
theorem holds_of_ordered {left right : Datum} {order : Ordering}
    (same : left.same right = (order == .eq)) (ordered : left.compare? right = some order) :
    op.holds left right = op.onOrdering order := by
  cases op <;> cases order <;> simp [holds, onOrdering, same, ordered]

theorem onOrdering_compare (m n : Int) : op.onOrdering (compare m n) ↔ op.onIntegers m n := by
  rcases Int.lt_trichotomy m n with less | equal | greater
  · rw [Int.compare_eq_lt.mpr less]
    cases op <;> simp [onOrdering, onIntegers] <;> omega
  · rw [Int.compare_eq_eq.mpr equal]
    cases op <;> simp [onOrdering, onIntegers] <;> omega
  · rw [Int.compare_eq_gt.mpr greater]
    cases op <;> simp [onOrdering, onIntegers] <;> omega

end ComparisonOperator

/-! ## Integers as data -/

/-- The integer that a field holds, with or without a sign. -/
def Value.integer? {size : Nat} : Value size → Option Int
  | .int value => some value.toInt
  | .uint value => some value.toNat
  | _ => none

/-- The datum of an integer.  From two to the power 63 on it is the nearest double. -/
def Datum.ofInteger (n : Int) : Datum :=
  if n < 0x8000000000000000 then .int (.ofInt n) else .float (.ofInt n)

/-- One of the integers takes a double, and the other has the same double. -/
def RoundedAlike (m n : Int) : Prop :=
  (0x8000000000000000 ≤ m ∨ 0x8000000000000000 ≤ n) ∧ Binary64.ofInt m = Binary64.ofInt n

instance (m n : Int) : Decidable (RoundedAlike m n) :=
  inferInstanceAs (Decidable ((_ ∨ _) ∧ _))

variable {m n : Int}

theorem Value.low_of_integer? {size : Nat} {value : Value size} (holds : value.integer? = some n) :
    -0x8000000000000000 ≤ n := by
  cases value with
  | int value =>
    cases holds
    exact value.le_toInt
  | uint value =>
    cases holds
    omega
  | nil | bool | float | str | object => cases holds

theorem Value.whole?_of_integer? {size : Nat} {value : Value size} (holds : value.integer? = some n)
    (small : n < 0x8000000000000000) : value.whole? = some n := by
  cases value with
  | int value => exact holds
  | uint value =>
    cases holds
    exact if_pos (by omega)
  | nil | bool | float | str | object => cases holds

theorem Heap.datum_of_integer? {catalog : Catalog} {size : Nat} (heap : Heap catalog size)
    {value : Value size} (holds : value.integer? = some n) :
    heap.datum value = .ofInteger n := by
  by_cases small : n < 0x8000000000000000
  · obtain ⟨number, datum_eq, rfl⟩ := heap.datum_of_whole? (Value.whole?_of_integer? holds small)
    rw [datum_eq, Datum.ofInteger, if_pos small, Int64.ofInt_toInt]
  · cases value with
    | int value =>
      cases holds
      exact absurd value.toInt_lt small
    | uint value =>
      cases holds
      show Datum.ofUInt64 value = _
      rw [Datum.ofUInt64, Datum.ofInteger, if_neg (by omega), if_neg small]
    | nil | bool | float | str | object => cases holds

theorem Datum.number?_ofInteger (low : -0x8000000000000000 ≤ n) :
    (ofInteger n).number? = some (.ofInt n) := by
  rw [ofInteger]
  split
  · rw [number?, Int64.toInt_ofInt_of_le low ‹_›]
  · rfl

/-- With a double on one side, two numbers are compared as doubles. -/
theorem Datum.compared_as_doubles {left right : Datum} {x y : Binary64}
    (left_is : left.number? = some x) (right_is : right.number? = some y)
    (rounded : left = .float x ∨ right = .float y) :
    left.compare? right = x.compare? y ∧ left.same right = x.eq y := by
  rcases rounded with rfl | rfl
  · cases right with
    | int value =>
      rw [← Option.some.inj right_is]
      exact ⟨rfl, rfl⟩
    | float value =>
      rw [← Option.some.inj right_is]
      exact ⟨rfl, rfl⟩
    | nil | bool | str | record | sequence | map => cases right_is
  · cases left with
    | int value =>
      rw [← Option.some.inj left_is]
      exact ⟨rfl, rfl⟩
    | float value =>
      rw [← Option.some.inj left_is]
      exact ⟨rfl, rfl⟩
    | nil | bool | str | record | sequence | map => cases left_is

def orderOfData (m n : Int) : Ordering := if RoundedAlike m n then .eq else compare m n

theorem Datum.ofInteger_ordered (low : -0x8000000000000000 ≤ m) (low' : -0x8000000000000000 ≤ n) :
    (ofInteger m).compare? (ofInteger n) = some (orderOfData m n) ∧
      (ofInteger m).same (ofInteger n) = (orderOfData m n == .eq) := by
  by_cases rounded : 0x8000000000000000 ≤ m ∨ 0x8000000000000000 ≤ n
  · have as_double : ofInteger m = .float (.ofInt m) ∨ ofInteger n = .float (.ofInt n) :=
      rounded.imp (fun large => if_neg (by omega)) (fun large => if_neg (by omega))
    obtain ⟨compared, same⟩ :=
      compared_as_doubles (number?_ofInteger low) (number?_ofInteger low') as_double
    have order_eq : orderOfData m n =
        if Binary64.ofInt m = Binary64.ofInt n then .eq else compare m n := by
      simp only [orderOfData, RoundedAlike, rounded, true_and]
    rw [compared, same, Binary64.eq, Binary64.compare?_ofInt, ← order_eq]
    exact ⟨rfl, Option.some_beq_some⟩
  · have order_eq : orderOfData m n = compare m n :=
      if_neg fun alike => rounded alike.1
    have whole : ofInteger m = .int (.ofInt m) := if_pos (by omega)
    have whole' : ofInteger n = .int (.ofInt n) := if_pos (by omega)
    have toInt_eq := Int64.toInt_ofInt_of_le low (by omega)
    have toInt_eq' := Int64.toInt_ofInt_of_le low' (by omega)
    rw [whole, whole', order_eq]
    constructor
    · rw [compare?, toInt_eq, toInt_eq']
    · rw [same, Bool.eq_iff_iff, beq_iff_eq, beq_iff_eq, Int.compare_eq_eq, ← Int64.toInt_inj,
        toInt_eq, toInt_eq']

/-- **Integers are compared exactly, save that those with the same double are taken to be equal as
soon as one of them takes a double.** -/
theorem ComparisonOperator.holds_ofInteger (op : ComparisonOperator)
    (low : -0x8000000000000000 ≤ m) (low' : -0x8000000000000000 ≤ n) :
    op.holds (.ofInteger m) (.ofInteger n) ↔
      if RoundedAlike m n then op.onIntegers m m else op.onIntegers m n := by
  obtain ⟨ordered, same⟩ := Datum.ofInteger_ordered low low'
  rw [op.holds_of_ordered same ordered, orderOfData]
  split
  · rw [← Int.compare_eq_eq.mpr (rfl : m = m)]
    exact op.onOrdering_compare m m
  · exact op.onOrdering_compare m n

/-! ## Conditions that compare two fields -/

namespace Rule

open Phrase

/-- The text of a comparison of the value under test with a field of its record, as it is usually
written. -/
def comparisonText (op : ComparisonOperator) (path : List Char) : String :=
  "$ " ++ op.symbol ++ " (" ++ String.ofList path ++ ")$"

theorem parse_comparison (op : ComparisonOperator) {path : List PathStep} {chars : List Char}
    (printable : PathPrintable path) (written : PathWritten path chars) :
    Clause.parse (comparisonText op chars) =
      .ok ⟨.comparison op .current (.sibling path), none⟩ := by
  have blank : ∀ c ∈ [' '], isBlank c = true := List.forall_mem_singleton.mpr rfl
  have none_blank : ∀ c ∈ [], isBlank c = true := nofun
  have left : Layered operandLevel ['$', ' '] .current := .blanks .current none_blank blank
  have right : Layered operandLevel (' ' :: ('(' :: (chars ++ [')', '$']) ++ [])) (.sibling path) :=
    (Layered.sibling printable written).blanks blank none_blank
  have level_lt := BinaryOperator.level_lt (.comparison op)
  have text_eq : comparisonText op chars = String.ofList (['$', ' '] ++
      ((BinaryOperator.comparison op).symbol.toList ++
        (' ' :: ('(' :: (chars ++ [')', '$']) ++ [])))) := by
    apply String.toList_inj.mp
    simp [comparisonText, BinaryOperator.symbol]
  rw [text_eq]
  exact (left.join right (Nat.le_of_lt level_lt) level_lt).parse

variable {catalog : Catalog} {type : catalog.TypeId}

/-- The comparison is compiled to the comparison with what the path is resolved to. -/
theorem compile_comparison (registry : Registry) (op : ComparisonOperator)
    {path : List PathStep} {chars : List Char} {steps : List Step}
    (printable : PathPrintable path) (written : PathWritten path chars)
    (resolved : resolvePath catalog (catalog.type type).name (some type) path = .ok steps) :
    compile catalog type registry (comparisonText op chars) =
      .ok ⟨comparisonText op chars, .comparison op .current (.sibling steps), none, false⟩ := by
  delta compile
  rw [parse_comparison op printable written]
  show ofClause catalog type registry _ ⟨.comparison op .current (.sibling path), none⟩ = _
  rw [ofClause, Expr.resolve, Expr.resolve, Expr.resolve, resolved]
  rfl

/-- **Fields compare as integers, up to rounding.**  For all integers that fields of 64 bits hold,
with or without a sign, and for each operator, `$ op (path)$` compiles and comes to a truth value.
It is that of the comparison of the integers; only if one of them is two to the power 63 or more,
and both have the same nearest double, are they taken to be equal. -/
theorem comparison_exact_up_to_rounding [PatternLibrary] {size : Nat} (heap : Heap catalog size)
    (scope : Scope size) (registry : Registry) (op : ComparisonOperator) {path : List PathStep}
    {chars : List Char} {steps : List Step} (printable : PathPrintable path) (written : PathWritten path chars)
    (resolved : resolvePath catalog (catalog.type type).name (some type) path = .ok steps)
    {m n : Int} (current_holds : scope.current.integer? = some m)
    (other_holds : (heap.select (.object scope.record) steps).integer? = some n) :
    ∃ (rule : Rule) (holds : Bool),
      compile catalog type registry (comparisonText op chars) = .ok rule ∧
      rule.condition.ComesTo heap scope (.bool holds) ∧
      (¬ RoundedAlike m n → (holds ↔ op.onIntegers m n)) ∧
      (RoundedAlike m n → (holds ↔ op.onIntegers m m)) := by
  refine ⟨_, _, compile_comparison registry op printable written resolved,
    Node.comesTo_current.comparison op (Node.comesTo_sibling steps), ?_⟩
  rw [heap.datum_of_integer? current_holds, heap.datum_of_integer? other_holds,
    op.holds_ofInteger (Value.low_of_integer? current_holds) (Value.low_of_integer? other_holds)]
  exact ⟨fun exact => by rw [if_neg exact], fun alike => by rw [if_pos alike]⟩

def pairs : Catalog := ⟨1, #v[⟨"Pair", "Pair", [⟨"First", [], none⟩, ⟨"Second", [], none⟩]⟩]⟩

def pairType : pairs.TypeId := ⟨0, Nat.one_pos⟩

def pair (first second : Value 1) : Heap pairs 1 := ⟨#v[.record pairType [first, second]]⟩

theorem second_printable : PathPrintable [.field "Second"] := ⟨by decide, nofun⟩

theorem second_written : PathWritten [.field "Second"] "Second".toList := ⟨[], rfl, rfl⟩

theorem second_resolved : resolvePath pairs (pairs.type pairType).name (some pairType)
    [.field "Second"] = .ok [.field 1] := rfl

attribute [local instance] Pattern.library

/-- A whole number is less than the least integer without one, if it is not rounded to it. -/
theorem comparison_below_doubles :
    ∃ rule, compile pairs pairType .builtins "$ < (Second)$" = .ok rule ∧
      rule.condition.ComesTo (pair (.int 9223372036854775295) (.uint 9223372036854775808))
        ⟨.int 9223372036854775295, 0⟩ (.bool true) := by
  let heap := pair (.int 9223372036854775295) (.uint 9223372036854775808)
  have text_eq : comparisonText .lt "Second".toList = "$ < (Second)$" := by decide +kernel
  obtain ⟨rule, holds, compiled, comes, exact, -⟩ :=
    comparison_exact_up_to_rounding heap ⟨.int 9223372036854775295, 0⟩ .builtins .lt
      second_printable second_written second_resolved (m := 9223372036854775295)
      (n := 9223372036854775808) rfl rfl
  have less : ComparisonOperator.lt.onIntegers 9223372036854775295 9223372036854775808 := by
    simp [ComparisonOperator.onIntegers]
  obtain rfl : holds = true := (exact (by decide +kernel)).mpr less
  exact ⟨rule, text_eq ▸ compiled, comes⟩

/-- The two greatest integers have the same double, and are taken to be equal. -/
theorem greatest_integers_equal :
    ∃ rule, compile pairs pairType .builtins "$ == (Second)$" = .ok rule ∧
      rule.condition.ComesTo
        (pair (.uint 18446744073709551615) (.uint 18446744073709551614))
        ⟨.uint 18446744073709551615, 0⟩ (.bool true) ∧
      ¬ ComparisonOperator.eq.onIntegers 18446744073709551615 18446744073709551614 := by
  have text_eq : comparisonText .eq "Second".toList = "$ == (Second)$" := by decide +kernel
  have compiled := compile_comparison .builtins .eq second_printable second_written second_resolved
  refine ⟨_, text_eq ▸ compiled, ?_, by simp [ComparisonOperator.onIntegers]⟩
  rw [Node.comesTo_iff]
  decide +kernel

end Rule

end Proviso
