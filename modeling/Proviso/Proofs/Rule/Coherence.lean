/- # Proviso.Proofs.Rule.Coherence -- equality and order agree

Equality and order of data are given apart, each by cases of its own.  They agree all the same.  Both
can be read from either side (`Datum.same_comm`, `Datum.compare?_swap`), and two texts, or two numbers
that are not NaN, are equal exactly if their order says so (`Datum.exists_order`).

Whole numbers are compared exactly and other numbers by their places, where different whole numbers
may have one place.  So a place that comes before another one makes a number less
(`Datum.lt_of_place_lt`), and of two numbers the less one comes before the other or at the same
place, and at the same place only if both are whole (`Datum.place_of_lt`).  That is enough for the
order to be transitive, which it would not be with equality (`Datum.le_not_transitive`). -/
import Proviso.Function.Registry
import Proviso.Pattern.OfText
import Proviso.Proofs.Rule.Comparison

namespace Proviso

set_option autoImplicit false

/-! ## Both sides -/

theorem Binary64.compare?_swap (a b : Binary64) :
    b.compare? a = (a.compare? b).map Ordering.swap := by
  unfold compare?
  cases a.place? with
  | none => cases b.place? <;> rfl
  | some x =>
    cases b.place? with
    | none => rfl
    | some y => exact congrArg some Std.OrientedCmp.eq_swap

theorem Binary64.eq_comm (a b : Binary64) : a.eq b = b.eq a := by
  rw [eq, eq, compare?_swap a b]
  rcases a.compare? b with _ | _ | _ | _ <;> rfl

namespace Datum

/-- The order of two data is turned around with their sides. -/
theorem compare?_swap (a b : Datum) : b.compare? a = (a.compare? b).map Ordering.swap := by
  cases a <;> cases b
  case int.int i j => exact congrArg some Std.OrientedCmp.eq_swap
  case str.str s t => exact congrArg some Std.OrientedCmp.eq_swap
  case int.float i y => exact Binary64.compare?_swap (.ofInt i.toInt) y
  case float.int x j => exact Binary64.compare?_swap x (.ofInt j.toInt)
  case float.float x y => exact Binary64.compare?_swap x y
  -- Nothing else has an order.
  all_goals rfl

theorem same_comm (a b : Datum) : a.same b = b.same a := by
  cases a <;> cases b
  case bool.bool | int.int | str.str | record.record | sequence.sequence | map.map =>
    exact BEq.comm
  case int.float i y => exact Binary64.eq_comm (.ofInt i.toInt) y
  case float.int x j => exact Binary64.eq_comm x (.ofInt j.toInt)
  case float.float x y => exact Binary64.eq_comm x y
  -- What is left are two nils and data that cannot be equal.
  all_goals rfl

/-! ## Order and equality -/

/-- A number other than NaN. -/
def IsNumber (datum : Datum) : Prop := ∃ x, datum.number? = some x ∧ x ≠ .nan

/-- Two texts, or two numbers other than NaN. -/
def Related (a b : Datum) : Prop :=
  (∃ s t, a = .str s ∧ b = .str t) ∨ (a.IsNumber ∧ b.IsNumber)

/-- Where a number lies on the line, as a double. -/
def place? (datum : Datum) : Option Int := datum.number?.bind Binary64.place?

theorem IsNumber.exists_place {datum : Datum} (is_number : datum.IsNumber) :
    ∃ place, datum.place? = some place := by
  obtain ⟨x, is_x, not_nan⟩ := is_number
  rw [place?, is_x, Option.bind_some]
  cases x with
  | nan => exact absurd rfl not_nan
  | infinite negative => exact ⟨_, Binary64.place?_infinite negative⟩
  | finite negative quanta isDouble => exact ⟨_, Binary64.place?_finite negative quanta isDouble⟩

theorem whole_or_float {datum : Datum} {x : Binary64} (is_x : datum.number? = some x) :
    (∃ i, datum = .int i ∧ .ofInt i.toInt = x) ∨ datum = .float x := by
  cases datum with
  | int i => exact .inl ⟨i, rfl, Option.some.inj is_x⟩
  | float y => exact .inr (congrArg _ (Option.some.inj is_x))
  | nil | bool | str | record | sequence | map => cases is_x

/-- Two numbers are both whole, or one of them is a float and both are compared by their places. -/
theorem compared_by_places {a b : Datum} {p q : Int} (at_p : a.place? = some p)
    (at_q : b.place? = some q) :
    (∃ i j, a = .int i ∧ b = .int j ∧ p = Binary64.placeOfInt i.toInt ∧
        q = Binary64.placeOfInt j.toInt) ∨
      (a.compare? b = some (compare p q) ∧ a.same b = (compare p q == .eq)) := by
  obtain ⟨x, is_x, x_at⟩ := Option.bind_eq_some_iff.mp at_p
  obtain ⟨y, is_y, y_at⟩ := Option.bind_eq_some_iff.mp at_q
  have by_places (rounded : a = .float x ∨ b = .float y) :
      a.compare? b = some (compare p q) ∧ a.same b = (compare p q == .eq) := by
    obtain ⟨compared, same⟩ := compared_as_doubles is_x is_y rounded
    rw [compared, same, Binary64.eq, Binary64.compare?_of_place? x_at y_at]
    exact ⟨rfl, Option.some_beq_some⟩
  rcases whole_or_float is_x with ⟨i, rfl, rfl⟩ | float
  · rcases whole_or_float is_y with ⟨j, rfl, rfl⟩ | float
    · rw [Binary64.place?_ofInt, Option.some.injEq] at x_at y_at
      exact .inl ⟨i, j, rfl, rfl, x_at.symm, y_at.symm⟩
    · exact .inr (by_places (.inr float))
  · exact .inr (by_places (.inl float))

/-- Two texts, or two numbers, have an order, and are equal exactly if it says so. -/
theorem Related.exists_order {a b : Datum} (related : a.Related b) :
    ∃ order, a.compare? b = some order ∧ a.same b = (order == .eq) := by
  rcases related with ⟨s, t, rfl, rfl⟩ | ⟨a_number, b_number⟩
  · refine ⟨compare s t, rfl, ?_⟩
    rw [same, Bool.eq_iff_iff, beq_iff_eq, beq_iff_eq, Std.compare_eq_iff_eq]
  · obtain ⟨p, at_p⟩ := a_number.exists_place
    obtain ⟨q, at_q⟩ := b_number.exists_place
    rcases compared_by_places at_p at_q with ⟨i, j, rfl, rfl, -, -⟩ | ordered
    · refine ⟨compare i.toInt j.toInt, rfl, ?_⟩
      rw [same, Bool.eq_iff_iff, beq_iff_eq, beq_iff_eq, Int.compare_eq_eq, Int64.toInt_inj]
    · exact ⟨_, ordered⟩

/-! ## Numbers in order -/

/-- Of two numbers the one at the earlier place is the less one. -/
theorem lt_of_place_lt {a b : Datum} {p q : Int} (at_p : a.place? = some p)
    (at_q : b.place? = some q) (before : p < q) : ComparisonOperator.lt.holds a b = true := by
  rcases compared_by_places at_p at_q with ⟨i, j, rfl, rfl, rfl, rfl⟩ | ⟨ordered, same⟩
  · rw [ComparisonOperator.holds_int, ComparisonOperator.onIntegers]
    exact Int.not_le.mp fun le => Int.not_le.mpr before (Binary64.placeOfInt_mono le)
  · rw [ComparisonOperator.holds_of_ordered .lt same ordered, Int.compare_eq_lt.mpr before]
    rfl

/-- The less one of two numbers is at the earlier place, unless both are whole. -/
theorem place_of_lt {a b : Datum} {p q : Int} (at_p : a.place? = some p)
    (at_q : b.place? = some q) (less : ComparisonOperator.lt.holds a b = true) :
    p < q ∨ p = q ∧ ∃ i j : Int64, a = .int i ∧ b = .int j ∧ i.toInt < j.toInt := by
  rcases compared_by_places at_p at_q with ⟨i, j, rfl, rfl, rfl, rfl⟩ | ⟨ordered, same⟩
  · rw [ComparisonOperator.holds_int, ComparisonOperator.onIntegers] at less
    rcases Int.lt_or_eq_of_le (Binary64.placeOfInt_mono (Int.le_of_lt less)) with before | alike
    · exact .inl before
    · exact .inr ⟨alike, i, j, rfl, rfl, less⟩
  · rw [ComparisonOperator.holds_of_ordered .lt same ordered] at less
    exact .inl (Int.compare_eq_lt.mp (beq_iff_eq.mp less))

/-- The order of numbers is transitive. -/
theorem lt_trans {a b c : Datum} (a_number : a.IsNumber) (b_number : b.IsNumber)
    (c_number : c.IsNumber) (less : ComparisonOperator.lt.holds a b = true)
    (further : ComparisonOperator.lt.holds b c = true) :
    ComparisonOperator.lt.holds a c = true := by
  obtain ⟨p, at_p⟩ := a_number.exists_place
  obtain ⟨q, at_q⟩ := b_number.exists_place
  obtain ⟨r, at_r⟩ := c_number.exists_place
  rcases place_of_lt at_p at_q less with before | ⟨rfl, i, j, rfl, rfl, i_lt⟩
  · -- What is less than the middle one is before it, so before whatever is not before it.
    have not_back : q ≤ r := by
      rcases place_of_lt at_q at_r further with before | ⟨alike, -⟩
      · exact Int.le_of_lt before
      · exact Int.le_of_eq alike
    exact lt_of_place_lt at_p at_r (Int.lt_of_lt_of_le before not_back)
  · rcases place_of_lt at_q at_r further with before | ⟨rfl, j', k, same, rfl, j_lt⟩
    · exact lt_of_place_lt at_p at_r before
    · -- All three are whole, and at one place.
      cases same
      rw [ComparisonOperator.holds_int, ComparisonOperator.onIntegers]
      exact Int.lt_trans i_lt j_lt

/-- With equality, the order of numbers is not: `2^53 + 1` is not at most `2^53`. -/
theorem le_not_transitive :
    ComparisonOperator.le.holds (.int 9007199254740993) (.float (.ofInt 9007199254740992)) ∧
      ComparisonOperator.le.holds (.float (.ofInt 9007199254740992)) (.int 9007199254740992) ∧
      ¬ ComparisonOperator.le.holds (.int 9007199254740993) (.int 9007199254740992) := by
  decide +kernel

end Datum

/-! ## One of some values -/

/-- `in` compares its first argument with each of the others. -/
theorem Function.oneOf_result [PatternLibrary] (subject : Datum) (candidates : List Datum) :
    Call.result ⟨.oneOf, subject :: candidates⟩ =
      .ok (.bool (candidates.any (·.same subject))) := by
  have judged : oneOf.reply (subject :: candidates) =
      .judged (isOneOf (subject :: candidates)) := rfl
  rw [Call.result, judged, isOneOf]
  cases candidates.any (·.same subject) <;> rfl

namespace Node

variable [PatternLibrary] {catalog : Catalog} {size : Nat} {heap : Heap catalog size} {scope : Scope size}

/-- A value equals one of some data if and only if it is found equal to one of the expressions that
come to them. -/
theorem AllComeTo.any_same_iff {subject : Node} {datum : Datum} {candidates : List Node}
    {data : List Datum} (comes : subject.ComesTo heap scope datum)
    (come : AllComeTo heap scope candidates data) :
    data.any (·.same datum) ↔ ∃ candidate ∈ candidates,
      (Node.comparison .eq subject candidate).ComesTo heap scope (.bool true) := by
  induction come with
  | nil => simp only [List.any_nil, Bool.false_eq_true, List.not_mem_nil, false_and, exists_false]
  | @cons node rest first data first_comes further ih =>
    have compared : (Node.comparison .eq subject node).ComesTo heap scope (.bool true) ↔
        first.same datum := by
      have result := comesTo_iff.mp (comes.comparison .eq first_comes)
      rw [comesTo_iff, result, Except.ok.injEq, Datum.bool.injEq, first.same_comm]
      rfl
    simp only [List.any_cons, Bool.or_eq_true, List.mem_cons, exists_eq_or_imp, compared, ih]

/-- `in` passes if and only if its subject is equal to some candidate. -/
theorem in_iff_some_equal {function : Function}
    (named : Registry.builtins.lookup? "in" = some function) {subject : Node} {datum : Datum}
    {candidates : List Node} {data : List Datum} (comes : subject.ComesTo heap scope datum)
    (come : AllComeTo heap scope candidates data) :
    ∃ passes : Bool,
      (Node.call function (subject :: candidates)).ComesTo heap scope (.bool passes) ∧
      (passes ↔ ∃ candidate ∈ candidates,
        (Node.comparison .eq subject candidate).ComesTo heap scope (.bool true)) := by
  cases (rfl : Registry.builtins.lookup? "in" = some .oneOf).symm.trans named
  exact ⟨_, (AllComeTo.cons comes come).call (Function.oneOf_result datum data),
    come.any_same_iff comes⟩

end Node

/-! ## The whole -/

namespace ComparisonOperator

/-- Each comparison is one from the other side, and `!=` denies `==`. -/
theorem either_side (a b : Datum) :
    (eq.holds a b ↔ eq.holds b a) ∧ (ne.holds a b ↔ ¬ eq.holds a b) ∧
      (lt.holds a b ↔ gt.holds b a) ∧ (le.holds a b ↔ ge.holds b a) := by
  refine ⟨?_, ?_, ?_, ?_⟩
  · rw [holds, holds, a.same_comm]
  · rw [holds, holds, Bool.not_eq_true', Bool.not_eq_true]
  · rw [holds, holds, a.compare?_swap b]
    rcases a.compare? b with _ | _ | _ | _ <;> decide
  · rw [holds, holds, a.compare?_swap b]
    rcases a.compare? b with _ | _ | _ | _ <;> decide

/-- Of data that have an order, one is less than, equal to or greater than the other. -/
theorem trichotomy {a b : Datum} (related : a.Related b) :
    (∃! op, op ∈ [lt, eq, gt] ∧ op.holds a b) ∧
      (le.holds a b ↔ lt.holds a b ∨ eq.holds a b) := by
  obtain ⟨order, ordered, same⟩ := related.exists_order
  simp only [holds_of_ordered _ same ordered]
  constructor
  · cases order with
    | lt => exact ⟨lt, by decide, by simp [onOrdering]⟩
    | eq => exact ⟨eq, by decide, by simp [onOrdering]⟩
    | gt => exact ⟨gt, by decide, by simp [onOrdering]⟩
  · cases order <;> decide

end ComparisonOperator

open ComparisonOperator in
/-- **Equality and order agree.**  Of any data, equality can be read from either side, `!=` denies
it, and each order turned around is the one from the other side.  Of two texts, and of two numbers
other than NaN, exactly one of less, equal and greater holds, and `<=` is less or equal.  Of such
numbers less is transitive, be they whole or not.  `in` passes if and only if its subject is equal
to one of the candidates, however many there are. -/
theorem comparison_coherent [PatternLibrary] :
    (∀ a b : Datum,
      (eq.holds a b ↔ eq.holds b a) ∧ (ne.holds a b ↔ ¬ eq.holds a b) ∧
      (lt.holds a b ↔ gt.holds b a) ∧ (le.holds a b ↔ ge.holds b a)) ∧
    (∀ a b : Datum, a.Related b →
      (∃! op, op ∈ [lt, eq, gt] ∧ op.holds a b) ∧
      (le.holds a b ↔ lt.holds a b ∨ eq.holds a b)) ∧
    (∀ a b c : Datum, a.IsNumber → b.IsNumber → c.IsNumber →
      lt.holds a b → lt.holds b c → lt.holds a c) ∧
    (∀ {catalog : Catalog} {size : Nat} {heap : Heap catalog size} {scope : Scope size}
      {function : Function} {subject : Node} {datum : Datum} {candidates : List Node}
      {data : List Datum}, Registry.builtins.lookup? "in" = some function →
      subject.ComesTo heap scope datum → Node.AllComeTo heap scope candidates data →
      ∃ passes : Bool,
        (Node.call function (subject :: candidates)).ComesTo heap scope (.bool passes) ∧
        (passes ↔ ∃ candidate ∈ candidates,
          (Node.comparison .eq subject candidate).ComesTo heap scope (.bool true))) :=
  ⟨either_side, fun _ _ => trichotomy, fun _ _ _ => Datum.lt_trans,
    fun named comes => Node.in_iff_some_equal named comes⟩

attribute [local instance] Pattern.library

/-- A float is less than two whole numbers that share a double, and a whole number is one of some
values if a float among them is equal to it. -/
theorem comparison_coherent_mixed :
    (ComparisonOperator.lt.holds (.float (.ofInt 9007199254740991)) (.int 9007199254740992) ∧
      ComparisonOperator.lt.holds (.int 9007199254740992) (.int 9007199254740993) ∧
      ComparisonOperator.lt.holds (.float (.ofInt 9007199254740991)) (.int 9007199254740993)) ∧
    (Node.call .oneOf [.current, .literal (.int 1), .literal (.float (.ofInt 2))]).ComesTo
      (Rule.pair (.int 2) .nil) ⟨.int 2, 0⟩ (.bool true) := by
  constructor
  · have first : ComparisonOperator.lt.holds (.float (.ofInt 9007199254740991))
        (.int 9007199254740992) := by decide +kernel
    have second : ComparisonOperator.lt.holds (.int 9007199254740992)
        (.int 9007199254740993) := by decide
    have below_number : (Datum.float (.ofInt 9007199254740991)).IsNumber :=
      ⟨_, rfl, by decide +kernel⟩
    exact ⟨first, second, comparison_coherent.2.2.1 _ _ _ below_number
      ⟨_, rfl, by decide +kernel⟩ ⟨_, rfl, by decide +kernel⟩ first second⟩
  · have subject_comes : Node.current.ComesTo (Rule.pair (.int 2) .nil) ⟨.int 2, 0⟩ (.int 2) :=
      Node.comesTo_current
    have first_comes : (Node.literal (.int 1)).ComesTo (Rule.pair (.int 2) .nil) ⟨.int 2, 0⟩
        (.int 1) := Node.comesTo_literal _
    have second_comes : (Node.literal (.float (.ofInt 2))).ComesTo (Rule.pair (.int 2) .nil)
        ⟨.int 2, 0⟩ (.float (.ofInt 2)) := Node.comesTo_literal _
    have named : Registry.builtins.lookup? "in" = some .oneOf := rfl
    have candidates := Node.AllComeTo.cons first_comes (.cons second_comes .nil)
    obtain ⟨passes, call, passes_iff⟩ := comparison_coherent.2.2.2 named subject_comes candidates
    have equal := subject_comes.comparison .eq second_comes
    rw [(by decide +kernel : ComparisonOperator.eq.holds (.int 2) (.float (.ofInt 2)) = true)]
      at equal
    have passed : passes = true :=
      passes_iff.mpr ⟨.literal (.float (.ofInt 2)), by simp only [List.mem_cons, true_or, or_true],
        equal⟩
    exact passed ▸ call

end Proviso
