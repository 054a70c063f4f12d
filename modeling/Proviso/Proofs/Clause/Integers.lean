/- # Proviso.Proofs.Clause.Integers -- integers of 64 bits as literals

The digits of an integer are read first, and a minus before them is folded in afterwards.  Digits
that do not fit become the nearest double, so the least integer, whose digits do not fit without the
minus, is read as a double; every other integer is read as itself (`Literal.ofInteger`).

A comparison of a whole number with an integer is exact.  A comparison with a double is not, and for
the least integer it confuses neighbours: `parse_integer_exact_iff`. -/
import Proviso.Pattern.OfText
import Proviso.Proofs.Clause.Precedence
import Proviso.Proofs.Rule.Message

namespace Proviso

set_option autoImplicit false

/-! ## Digits and a minus -/

/-- What the numeral of an integer stands for; the first one is the least integer of 64 bits. -/
def Literal.ofInteger (n : Int) : Literal :=
  if n = -0x8000000000000000 then .float (-(.ofInt 0x8000000000000000)) else .int (.ofInt n)

section

variable {n : Int} {digits : List Char}

/-- Digits without a minus stand for the integer. -/
theorem Literal.ofDigits_eq (numeral : IsNumeral n.natAbs digits) (natural : 0 ≤ n)
    (high : n < 0x8000000000000000) : ofDigits digits = ofInteger n := by
  have small : n.natAbs < 0x8000000000000000 := by omega
  have not_least : n ≠ -0x8000000000000000 := by omega
  simp only [ofDigits, numeral.2.2, small, if_true, ofInteger, not_least, if_false]
  congr 1
  apply Int64.toInt_inj.mp
  rw [Int64.toInt_ofNat_of_lt (by omega), Int64.toInt_ofInt_of_le (by omega) (by omega)]
  omega

/-- A minus over digits is folded into the integer, or into the double that the digits of the least
one are. -/
theorem applyUnary_ofDigits (numeral : IsNumeral n.natAbs digits) (negative : n < 0)
    (low : -0x8000000000000000 ≤ n) :
    Expr.applyUnary .neg (.literal (.ofDigits digits)) = .literal (.ofInteger n) := by
  by_cases least : n = -0x8000000000000000
  · subst least
    have large : Literal.ofDigits digits = .float (.ofInt 0x8000000000000000) := by
      rw [Literal.ofDigits, numeral.2.2]
      rfl
    rw [large]
    rfl
  · have small : n.natAbs < 0x8000000000000000 := by omega
    have read : Literal.ofDigits digits = .int (.ofNat n.natAbs) := by
      simp only [Literal.ofDigits, numeral.2.2, small, if_true]
    have folded : -Int64.ofNat n.natAbs = .ofInt n := by
      apply Int64.toInt_inj.mp
      rw [Int64.toInt_neg_ofNat_of_le (by omega), Int64.toInt_ofInt_of_le (by omega) (by omega)]
      omega
    rw [read, Literal.ofInteger, if_neg least, Expr.applyUnary, folded]

end

/-- The numeral of an integer, by the digits of its size. -/
def signed (n : Int) (digits : List Char) : String :=
  String.ofList (if n < 0 then '-' :: digits else digits)

namespace Phrase

open Grammar

/-- Digits are one operand, and nothing else stands in their text. -/
theorem digits_are_primary {value : Nat} {digits : List Char} (numeral : IsNumeral value digits) :
    ∃ found, Phrase.primary.Derivable (String.ofList digits) found ∧ found.cursor.rest = [] := by
  have spells : Cursor.Spells ⟨digits, 0⟩ digits ⟨[], digits.length⟩ :=
    ⟨(List.append_nil digits).symm, (Nat.zero_add _).symm⟩
  have derives := spelled_number numeral spells (by simp [Cursor.Lacks])
  refine ⟨⟨[.node .integer 0 digits []], ⟨[], digits.length⟩⟩, ?_, rfl⟩
  unfold Derivable
  rw [String.toList_ofList]
  exact derives

def integerOperand {n : Int} {digits : List Char} (numeral : IsNumeral n.natAbs digits) :
    Operand where
  prefixes := if n < 0 then [.neg] else []
  primary := String.ofList digits
  is_primary := digits_are_primary numeral

theorem parse_digits {value : Nat} {digits : List Char} (numeral : IsNumeral value digits) :
    Clause.parse (String.ofList digits) = .ok ⟨.literal (.ofDigits digits), none⟩ := by
  have means : Means [digits] (.literal (.ofDigits digits)) := by
    rintro start stop ⟨place, after, blanks, spells, rfl⟩ ends
    exact reads_of_operand (reads_digits numeral blanks spells ends)
  refine parse_of_means means ?_
  rw [String.toList_ofList]
  exact laidOut_token digits

variable {n : Int} {digits : List Char}

theorem integerOperand_expr? (numeral : IsNumeral n.natAbs digits) (low : -0x8000000000000000 ≤ n)
    (high : n < 0x8000000000000000) :
    (integerOperand numeral).expr? = some (.literal (.ofInteger n)) := by
  unfold Operand.expr? Operand.value? integerOperand
  simp only [parse_digits numeral]
  by_cases negative : n < 0
  · simp only [negative, if_true]
    exact congrArg some (applyUnary_ofDigits numeral negative low)
  · simp only [negative, if_false]
    exact congrArg (fun literal => some (Expr.literal literal))
      (Literal.ofDigits_eq numeral (by omega) high)

theorem integerOperand_laidOut (numeral : IsNumeral n.natAbs digits) :
    LaidOut (integerOperand numeral).tokens (signed n digits).toList := by
  unfold Operand.tokens integerOperand signed
  simp only [String.toList_ofList]
  by_cases negative : n < 0
  · simp only [negative, if_true]
    exact (laidOut_token ['-']).append (laidOut_token digits)
  · simp only [negative, if_false]
    exact laidOut_token digits

theorem current_is_primary :
    ∃ found, Phrase.primary.Derivable "$" found ∧ found.cursor.rest = [] :=
  is_primary_of_read (by decide +kernel)

def currentOperand : Operand := ⟨[], "$", current_is_primary⟩

theorem currentOperand_expr? : currentOperand.expr? = some .current := by
  have parsed : Clause.parse "$" = .ok ⟨.current, none⟩ :=
    parse_of_means means_current (laidOut_token ['$'])
  unfold Operand.expr? Operand.value? currentOperand
  rw [parsed]
  rfl

theorem parse_signed (numeral : IsNumeral n.natAbs digits) (low : -0x8000000000000000 ≤ n)
    (high : n < 0x8000000000000000) :
    Clause.parse (signed n digits) = .ok ⟨.literal (.ofInteger n), none⟩ := by
  have laid : LaidOut (chainTokens (integerOperand numeral) []) (signed n digits).toList := by
    rw [chainTokens, linkTokens, List.flatMap_nil, List.append_nil]
    exact integerOperand_laidOut numeral
  refine eq_ok_of_toOption_eq_some ?_
  rw [parse_chain laid, chainExpr?, integerOperand_expr? numeral low high]
  rfl

/-- A comparison of the value under test with the integer. -/
theorem parse_current_signed (op : ComparisonOperator) (numeral : IsNumeral n.natAbs digits)
    (low : -0x8000000000000000 ≤ n) (high : n < 0x8000000000000000) :
    Clause.parse ("$" ++ op.symbol ++ signed n digits) =
      .ok ⟨.comparison op .current (.literal (.ofInteger n)), none⟩ := by
  have laid : LaidOut (chainTokens currentOperand [(.comparison op, integerOperand numeral)])
      ("$" ++ op.symbol ++ signed n digits).toList := by
    rw [chainTokens, linkTokens, List.flatMap_singleton, String.toList_append,
      String.toList_append, List.append_assoc]
    exact (laidOut_token ['$']).append
      ((laidOut_token op.symbol.toList).append (integerOperand_laidOut numeral))
  refine eq_ok_of_toOption_eq_some ?_
  rw [parse_chain laid, chainExpr?, currentOperand_expr?, linkExprs?,
    integerOperand_expr? numeral low high]
  rfl

end Phrase

/-! ## Comparisons of whole numbers -/

def ComparisonOperator.onIntegers (op : ComparisonOperator) (left right : Int) : Prop :=
  match op with
  | .eq => left = right
  | .ne => left ≠ right
  | .lt => left < right
  | .le => left ≤ right
  | .gt => left > right
  | .ge => left ≥ right

/-- Whole numbers are compared as integers. -/
theorem ComparisonOperator.holds_int (op : ComparisonOperator) (left right : Int64) :
    op.holds (.int left) (.int right) ↔ op.onIntegers left.toInt right.toInt := by
  have same : left = right ↔ left.toInt = right.toInt := Int64.toInt_inj.symm
  cases op with
  | eq => simp [holds, Datum.same, onIntegers, same]
  | ne => simp [holds, Datum.same, onIntegers, same]
  | lt => simp [holds, Datum.compare?, onIntegers, Int.compare_eq_lt]
  | gt => simp [holds, Datum.compare?, onIntegers, Int.compare_eq_gt]
  | le =>
    simp only [holds, Datum.compare?, onIntegers, Bool.or_eq_true, beq_iff_eq, Option.some.injEq,
      Int.compare_eq_lt, Int.compare_eq_eq]
    omega
  | ge =>
    simp only [holds, Datum.compare?, onIntegers, Bool.or_eq_true, beq_iff_eq, Option.some.injEq,
      Int.compare_eq_gt, Int.compare_eq_eq]
    omega

/-- The whole number that a field holds, if it is one of 64 bits with a sign. -/
def Value.whole? {size : Nat} : Value size → Option Int
  | .int value => some value.toInt
  | .uint value => if value.toNat < 0x8000000000000000 then some value.toNat else none
  | _ => none

/-- Such a whole number is compared as it is. -/
theorem Heap.datum_of_whole? {catalog : Catalog} {size : Nat} (heap : Heap catalog size)
    {value : Value size} {k : Int} (whole : value.whole? = some k) :
    ∃ number : Int64, heap.datum value = .int number ∧ number.toInt = k := by
  cases value with
  | int value =>
    cases whole
    exact ⟨value, rfl, rfl⟩
  | uint value =>
    simp only [Value.whole?] at whole
    split at whole
    · rename_i small
      cases whole
      refine ⟨value.toInt64, if_pos small, ?_⟩
      calc value.toInt64.toInt
        _ = (Int64.ofNat value.toNat).toInt := by rw [← UInt64.toInt64_ofNat', UInt64.ofNat_toNat]
        _ = value.toNat := Int64.toInt_ofNat_of_lt small
    · cases whole
  | nil | bool | float | str | object => cases whole

/-- A comparison of the value under test with a literal compares their data. -/
theorem Node.run_comparison [PatternLibrary] {catalog : Catalog} {size : Nat}
    (heap : Heap catalog size) (scope : Scope size) (op : ComparisonOperator) (literal : Literal)
    (ledger : Ledger) :
    ((Node.comparison op .current (.literal literal)).run heap scope ledger).1 =
      .ok (.bool (op.holds (heap.datum scope.current) (.ofLiteral literal))) := by
  rw [run_fst, account, account, account]
  rfl

/-- A record that holds the integer above the least one. -/
def aboveLeast : Heap ⟨1, #v[⟨"Balance", "Balance", [⟨"Amount", [], none⟩]⟩]⟩ 1 :=
  ⟨#v[.record ⟨0, Nat.one_pos⟩ [.int (Int64.minValue + 1)]]⟩

namespace Clause

/-- **Every integer of 64 bits but the least is a literal.**  The numeral of an integer, which has a
minus when it is negative and any number of zeros before its digits, is parsed as the integer, save
that of the least integer, which is parsed as the double of its value.  A condition that compares the
value under test with the numeral is parsed as the comparison with what the numeral stands for; and
for the integer, and only if it is not the least one, every such comparison of a whole number comes
to the comparison of the two as integers. -/
theorem parse_integer_exact_iff [PatternLibrary] {n : Int} (low : -0x8000000000000000 ≤ n)
    (high : n < 0x8000000000000000) {digits : List Char} (numeral : IsNumeral n.natAbs digits) :
    Clause.parse (signed n digits) = .ok ⟨.literal (.ofInteger n), none⟩ ∧
      (Clause.parse (signed n digits) = .ok ⟨.literal (.int (.ofInt n)), none⟩ ↔
        n ≠ -0x8000000000000000) ∧
      (∀ op : ComparisonOperator, Clause.parse ("$" ++ op.symbol ++ signed n digits) =
        .ok ⟨.comparison op .current (.literal (.ofInteger n)), none⟩) ∧
      ((∀ (op : ComparisonOperator) (catalog : Catalog) (size : Nat) (heap : Heap catalog size)
          (scope : Scope size) (ledger : Ledger) (k : Int), scope.current.whole? = some k →
        ∃ holds : Bool, (holds ↔ op.onIntegers k n) ∧
          ((Node.comparison op .current (.literal (.ofInteger n))).run heap scope ledger).1 =
            .ok (.bool holds)) ↔ n ≠ -0x8000000000000000) := by
  have parsed := Phrase.parse_signed numeral low high
  refine ⟨parsed, ?_, fun op => Phrase.parse_current_signed op numeral low high, ?_⟩
  · rw [parsed]
    by_cases least : n = -0x8000000000000000
    · simp [Literal.ofInteger, least]
    · rw [Literal.ofInteger, if_neg least]
      exact iff_of_true rfl least
  · constructor
    · -- The double of the least integer equals the nearest one of the integer above it.
      rintro exact rfl
      let scope : Scope 1 := ⟨.int (Int64.minValue + 1), 0⟩
      obtain ⟨holds, as_integers, came⟩ :=
        exact .eq _ _ aboveLeast scope (.start .empty) (-0x8000000000000000 + 1) rfl
      have confused : ComparisonOperator.eq.holds (aboveLeast.datum scope.current)
          (.ofLiteral (.ofInteger (-0x8000000000000000))) = true := by decide +kernel
      rw [Node.run_comparison, confused] at came
      cases came
      have equal : (-0x8000000000000000 + 1 : Int) = -0x8000000000000000 := as_integers.mp rfl
      omega
    · intro not_least op catalog size heap scope ledger k whole
      obtain ⟨number, is_number, rfl⟩ := heap.datum_of_whole? whole
      refine ⟨_, ?_, Node.run_comparison heap scope op _ ledger⟩
      rw [is_number, Literal.ofInteger, if_neg not_least, Datum.ofLiteral, op.holds_int,
        Int64.toInt_ofInt_of_le low high]

attribute [local instance] Pattern.library

/-- The greatest integer, with zeros before its digits. -/
theorem parse_greatest_integer :
    Clause.parse "$<009223372036854775807" =
        .ok ⟨.comparison .lt .current (.literal (.int Int64.maxValue)), none⟩ ∧
      ∃ holds : Bool, (holds ↔ (0x7ffffffffffffffe : Int) < 0x7fffffffffffffff) ∧
        ((Node.comparison .lt .current (.literal (.int Int64.maxValue))).run aboveLeast
          ⟨.uint 9223372036854775806, 0⟩ (.start .empty)).1 = .ok (.bool holds) := by
  have numeral : IsNumeral (0x7fffffffffffffff : Int).natAbs "009223372036854775807".toList :=
    ⟨by decide, List.all_eq_true.mp (by decide), by decide⟩
  have exact := parse_integer_exact_iff (by decide) (by decide) numeral
  refine ⟨exact.2.2.1 .lt, ?_⟩
  exact exact.2.2.2.mpr (by decide) .lt _ _ aboveLeast _ _ _ rfl

/-- The least integer is parsed as a double, and the integer above it is taken to be equal to it. -/
theorem least_integer_not_integer :
    Clause.parse "-9223372036854775808" =
        .ok ⟨.literal (.float (-(.ofInt 0x8000000000000000))), none⟩ ∧
      Clause.parse "-9223372036854775808" ≠ .ok ⟨.literal (.int Int64.minValue), none⟩ ∧
      ((Node.comparison .eq .current (.literal (.float (-(.ofInt 0x8000000000000000))))).run
        aboveLeast ⟨.int (Int64.minValue + 1), 0⟩ (.start .empty)).1 = .ok (.bool true) := by
  have parsed : Clause.parse "-9223372036854775808" =
      .ok ⟨.literal (.float (-(.ofInt 0x8000000000000000))), none⟩ := by decide +kernel
  refine ⟨parsed, ?_, ?_⟩
  · rw [parsed]
    simp
  · rw [Node.run_comparison]
    decide +kernel

end Clause

end Proviso
