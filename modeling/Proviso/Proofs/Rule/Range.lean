/- # Proviso.Proofs.Rule.Range -- bounds against comparisons

A comparison of whole numbers is one of integers, but `range` compares its subject with the bounds
as doubles.  So `range` holds wherever the comparisons with the bounds hold, and also of a subject
out of bounds that has the same double as the bound it is past
(`Node.range_iff_comparisons_or_rounded`).  Less than two to the power 53 from zero there is no such
subject. -/
import Proviso.Function.Registry
import Proviso.Pattern.OfText
import Proviso.Proofs.Binary64.Order
import Proviso.Proofs.Clause.Integers
import Proviso.Proofs.Rule.Values

namespace Proviso

set_option autoImplicit false

/-- `range` compares its arguments as doubles. -/
theorem Function.within_result [PatternLibrary] {subject least most : Datum}
    {x lo hi : Binary64} (subject_is : subject.number? = some x)
    (least_is : least.number? = some lo) (most_is : most.number? = some hi) :
    Call.result ⟨.within, [subject, least, most]⟩ = .ok (.bool (lo.le x && x.le hi)) := by
  have judged : within.reply [subject, least, most] =
      .judged (isWithin [subject, least, most]) := rfl
  rw [Call.result, judged]
  simp only [isWithin, subject_is, least_is, most_is]
  cases lo.le x && x.le hi <;> rfl

namespace Node

section

variable [PatternLibrary] {catalog : Catalog} {size : Nat} {heap : Heap catalog size} {scope : Scope size}

theorem ComesTo.le {left right : Node} {a b : Int64} (comes : left.ComesTo heap scope (.int a))
    (also : right.ComesTo heap scope (.int b)) :
    ∃ holds : Bool, (holds ↔ a.toInt ≤ b.toInt) ∧
      (Node.comparison .le left right).ComesTo heap scope (.bool holds) :=
  ⟨_, ComparisonOperator.le.holds_int a b, comes.comparison .le also⟩

/-- **`range` holds where the comparisons with its bounds hold, or where rounding hides that they do
not.**  Each comparison of whole numbers has the truth value of the integers.  `range` comes to true
if and only if the subject keeps to each bound or has the same double as it.  So it never fails where
the comparisons hold, and agrees with them less than two to the power 53 from zero. -/
theorem range_iff_comparisons_or_rounded {function : Function}
    (named : Registry.builtins.lookup? "range" = some function) {subject least most : Node}
    {x lo hi : Int64} (subject_comes : subject.ComesTo heap scope (.int x))
    (least_comes : least.ComesTo heap scope (.int lo))
    (most_comes : most.ComesTo heap scope (.int hi)) :
    ∃ passes above below : Bool,
      (Node.call function [subject, least, most]).ComesTo heap scope (.bool passes) ∧
      (Node.comparison .le least subject).ComesTo heap scope (.bool above) ∧
      (Node.comparison .le subject most).ComesTo heap scope (.bool below) ∧
      (above ↔ lo.toInt ≤ x.toInt) ∧ (below ↔ x.toInt ≤ hi.toInt) ∧
      (passes ↔ (above ∨ Binary64.ofInt lo.toInt = .ofInt x.toInt) ∧
        (below ∨ Binary64.ofInt x.toInt = .ofInt hi.toInt)) ∧
      (x.toInt.natAbs < 0x20000000000000 → lo.toInt.natAbs < 0x20000000000000 →
        hi.toInt.natAbs < 0x20000000000000 → (passes ↔ above ∧ below)) := by
  cases (rfl : Registry.builtins.lookup? "range" = some .within).symm.trans named
  have arguments := AllComeTo.cons subject_comes (.cons least_comes (.cons most_comes .nil))
  obtain ⟨above, above_iff, lower⟩ := least_comes.le subject_comes
  obtain ⟨below, below_iff, upper⟩ := subject_comes.le most_comes
  refine ⟨_, above, below, arguments.call (Function.within_result rfl rfl rfl), lower, upper,
    above_iff, below_iff, ?_⟩
  rw [Bool.and_eq_true, Binary64.le_ofInt_iff, Binary64.le_ofInt_iff, above_iff, below_iff]
  refine ⟨.rfl, ?_⟩
  intro x_small lo_small hi_small
  rw [Binary64.le_or_same_iff lo_small x_small, Binary64.le_or_same_iff x_small hi_small]

end

attribute [local instance] Pattern.library

/-- A record with a bound that has no double of its own. -/
def reading : Heap ⟨1, #v[⟨"Reading", "Reading", [⟨"Amount", [], none⟩, ⟨"Bound", [], none⟩]⟩]⟩ 1 :=
  ⟨#v[.record ⟨0, Nat.one_pos⟩ [.int 9007199254740992, .int 9007199254740993]]⟩

/-- The greatest number below two to the power 53 is out of bounds that are one below it. -/
theorem range_fails_above_bound :
    (Node.call .within
        [.current, .literal (.int 9007199254740990), .literal (.int 9007199254740990)]).ComesTo
      reading ⟨.int 9007199254740991, 0⟩ (.bool false) := by
  let scope : Scope 1 := ⟨.int 9007199254740991, 0⟩
  have subject_comes : Node.current.ComesTo reading scope (.int 9007199254740991) :=
    comesTo_current
  have bound_comes : (Node.literal (.int 9007199254740990)).ComesTo reading scope
      (.int 9007199254740990) := comesTo_literal _
  obtain ⟨passes, above, below, call, -, -, -, below_iff, -, agrees⟩ :=
    range_iff_comparisons_or_rounded rfl subject_comes bound_comes bound_comes
  have not_below : ¬ below := fun holds => absurd (below_iff.mp holds) (by decide)
  have not_passes : passes = false :=
    Bool.eq_false_iff.mpr fun holds =>
      not_below ((agrees (by decide) (by decide) (by decide)).mp holds).2
  rwa [not_passes] at call

/-- A bound is past two to the power 53, the amount is one below it, and `range` takes the amount to
be within bounds. -/
theorem range_holds_below_bound :
    (Node.call .within [.current, .sibling [.field 1], .sibling [.field 1]]).ComesTo
        reading ⟨.int 9007199254740992, 0⟩ (.bool true) ∧
      (Node.comparison .le (.sibling [.field 1]) .current).ComesTo
        reading ⟨.int 9007199254740992, 0⟩ (.bool false) := by
  constructor
  · rw [comesTo_iff]
    decide +kernel
  · rw [comesTo_iff]
    decide +kernel

end Node

end Proviso
