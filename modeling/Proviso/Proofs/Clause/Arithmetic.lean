/- # Proviso.Proofs.Clause.Arithmetic -- texts of sums and products

The texts that are written with integers, `$`, the operators `+`, `-` and `*`, minuses and
parentheses are those of `Arithmetic`, each with the integer that it stands for when `$` stands for
one.  Each of them is parsed, and the expression amounts to the same integer up to multiples of two
to the power 64: numbers are words of 64 bits, and a minus before one is folded into the word
(`Arithmetic.amounting`). -/
import Proviso.Proofs.Clause.Integers
import Proviso.Proofs.Clause.Layers

namespace Proviso

set_option autoImplicit false

/-! ## Texts -/

/-- How a text is written: with operators between its parts, or as one part. -/
inductive Binding where
  | sum
  | product
  | factor

def Binding.level : Binding → Nat
  | sum => BinaryOperator.level (.arithmetic .add)
  | product => BinaryOperator.level (.arithmetic .mul)
  | factor => operandLevel

/-- The text is written so, and stands for the value, an integer that depends on the one that `$`
stands for. -/
inductive Arithmetic : Binding → List Char → (Int → Int) → Prop where
  /-- Numbers fit in 64 bits with a sign. -/
  | number {digits : List Char} {value : Nat} (numeral : IsNumeral value digits)
      (fits : value < 0x8000000000000000) : Arithmetic .factor digits fun _ => value
  | current : Arithmetic .factor ['$'] id
  | minus {text : List Char} {value : Int → Int} (operand : Arithmetic .factor text value) :
      Arithmetic .factor ('-' :: text) fun x => -value x
  | group {text : List Char} {value : Int → Int} (inside : Arithmetic .sum text value) :
      Arithmetic .factor ('(' :: (text ++ [')'])) value
  | product {text : List Char} {value : Int → Int} (only : Arithmetic .factor text value) :
      Arithmetic .product text value
  | sum {text : List Char} {value : Int → Int} (only : Arithmetic .product text value) :
      Arithmetic .sum text value
  | times {text text' : List Char} {value value' : Int → Int}
      (left : Arithmetic .product text value) (right : Arithmetic .factor text' value') :
      Arithmetic .product (text ++ '*' :: text') fun x => value x * value' x
  | plus {text text' : List Char} {value value' : Int → Int}
      (left : Arithmetic .sum text value) (right : Arithmetic .product text' value') :
      Arithmetic .sum (text ++ '+' :: text') fun x => value x + value' x
  | less {text text' : List Char} {value value' : Int → Int}
      (left : Arithmetic .sum text value) (right : Arithmetic .product text' value') :
      Arithmetic .sum (text ++ '-' :: text') fun x => value x - value' x
  | blanks {binding : Binding} {front text back : List Char} {value : Int → Int}
      (front_blank : ∀ c ∈ front, Phrase.isBlank c = true)
      (back_blank : ∀ c ∈ back, Phrase.isBlank c = true) (inside : Arithmetic binding text value) :
      Arithmetic binding (front ++ (text ++ back)) value

/-! ## Expressions -/

/-- The operator on integers, if it is one of addition, subtraction and multiplication. -/
def ArithmeticOperator.onIntegers? : ArithmeticOperator → Option (Int → Int → Int)
  | .add => some (· + ·)
  | .sub => some (· - ·)
  | .mul => some (· * ·)
  | .div | .rem => none

/-- The expression is built of whole numbers, `$`, these operators and minuses, and the integer that
it stands for is the value. -/
inductive Expr.Amounts : Expr → (Int → Int) → Prop where
  | literal (number : Int64) : Amounts (.literal (.int number)) fun _ => number.toInt
  | current : Amounts .current id
  | neg {operand : Expr} {value : Int → Int} (amounts : Amounts operand value) :
      Amounts (.unary .neg operand) fun x => -value x
  | arithmetic {op : ArithmeticOperator} {apply : Int → Int → Int} {left right : Expr}
      {value value' : Int → Int} (on_integers : op.onIntegers? = some apply)
      (amounts : Amounts left value) (amounts' : Amounts right value') :
      Amounts (.arithmetic op left right) fun x => apply (value x) (value' x)

/-- On words of 64 bits the operator is the one on integers, up to multiples of two to the power
64. -/
theorem ArithmeticOperator.apply_ofInt {op : ArithmeticOperator} {apply : Int → Int → Int}
    (on_integers : op.onIntegers? = some apply) (m n : Int) :
    op.apply (.int (.ofInt m)) (.int (.ofInt n)) = .ok (.int (.ofInt (apply m n))) := by
  cases op with
  | add =>
    cases on_integers
    rw [Int64.ofInt_add]
    rfl
  | sub =>
    cases on_integers
    rw [Int64.ofInt_sub]
    rfl
  | mul =>
    cases on_integers
    rw [Int64.ofInt_mul]
    rfl
  | div => cases on_integers
  | rem => cases on_integers

/-- The values have the same word of 64 bits, whatever `$` stands for. -/
def SameWord (value value' : Int → Int) : Prop :=
  ∀ x, Int64.ofInt (value x) = Int64.ofInt (value' x)

namespace SameWord

variable {a a' b b' : Int → Int}

theorem trans {c : Int → Int} (first : SameWord a b) (second : SameWord b c) : SameWord a c :=
  fun x => (first x).trans (second x)

theorem neg (same : SameWord a a') : SameWord (fun x => -a x) (fun x => -a' x) := fun x => by
  rw [Int64.ofInt_neg, Int64.ofInt_neg, same x]

theorem apply {op : ArithmeticOperator} {apply : Int → Int → Int}
    (on_integers : op.onIntegers? = some apply) (same : SameWord a a') (same' : SameWord b b') :
    SameWord (fun x => apply (a x) (b x)) (fun x => apply (a' x) (b' x)) := fun x => by
  have on_words := op.apply_ofInt on_integers (a x) (b x)
  rw [same x, same' x, op.apply_ofInt on_integers] at on_words
  exact (Datum.int.inj (Except.ok.inj on_words)).symm

end SameWord

/-! ## Texts as expressions -/

/-- The text is parsed as an expression that amounts to the value, up to multiples of two to the
power 64. -/
def Amounting (level : Nat) (text : List Char) (value : Int → Int) : Prop :=
  ∃ expr word, Layered level text expr ∧ expr.Amounts word ∧ SameWord word value

/-- A minus before a number is folded into its word, and stays an operator before all else. -/
theorem Expr.Amounts.applyUnary {expr : Expr} {value : Int → Int} (amounts : expr.Amounts value) :
    ∃ word, (Expr.applyUnary .neg expr).Amounts word ∧ SameWord word fun x => -value x := by
  cases amounts with
  | literal number =>
    refine ⟨_, .literal (-number), fun x => ?_⟩
    rw [Int64.ofInt_neg, Int64.ofInt_toInt, Int64.ofInt_toInt]
  | current => exact ⟨_, .neg .current, fun _ => rfl⟩
  | neg amounts => exact ⟨_, .neg (.neg amounts), fun _ => rfl⟩
  | arithmetic on_integers amounts amounts' =>
    exact ⟨_, .neg (.arithmetic on_integers amounts amounts'), fun _ => rfl⟩

namespace Amounting

variable {level level' : Nat} {text text' : List Char} {value value' : Int → Int}

theorem number {digits : List Char} {value : Nat} (numeral : IsNumeral value digits)
    (fits : value < 0x8000000000000000) : Amounting operandLevel digits fun _ => value := by
  have read : Literal.ofDigits digits = .int (.ofInt value) := by
    have high : (value : Int) < 0x8000000000000000 := by omega
    rw [Literal.ofDigits_eq (n := value) numeral (by omega) high, Literal.ofInteger,
      if_neg (by omega)]
  refine ⟨_, _, read ▸ Layered.digits numeral, .literal (.ofInt value), fun x => ?_⟩
  rw [Int64.ofInt_toInt]

theorem minus (operand : Amounting operandLevel text value) :
    Amounting operandLevel ('-' :: text) fun x => -value x := by
  obtain ⟨expr, word, layered, amounts, same⟩ := operand
  obtain ⟨folded, amounts_folded, same_folded⟩ := amounts.applyUnary
  exact ⟨_, _, layered.unary .neg, amounts_folded, same_folded.trans same.neg⟩

theorem group (inside : Amounting level text value) :
    Amounting operandLevel ('(' :: (text ++ [')'])) value := by
  obtain ⟨expr, word, layered, amounts, same⟩ := inside
  exact ⟨_, _, layered.inParentheses, amounts, same⟩

theorem loosen (inside : Amounting level text value) (le : level' ≤ level) :
    Amounting level' text value := by
  obtain ⟨expr, word, layered, amounts, same⟩ := inside
  exact ⟨_, _, layered.loosen le, amounts, same⟩

theorem blanks (inside : Amounting level text value) {front back : List Char}
    (front_blank : ∀ c ∈ front, Phrase.isBlank c = true)
    (back_blank : ∀ c ∈ back, Phrase.isBlank c = true) :
    Amounting level (front ++ (text ++ back)) value := by
  obtain ⟨expr, word, layered, amounts, same⟩ := inside
  exact ⟨_, _, layered.blanks front_blank back_blank, amounts, same⟩

theorem join (op : ArithmeticOperator) {apply : Int → Int → Int}
    (on_integers : op.onIntegers? = some apply) (left : Amounting level text value)
    (right : Amounting level' text' value')
    (no_looser : BinaryOperator.level (.arithmetic op) ≤ level)
    (tighter : BinaryOperator.level (.arithmetic op) < level') :
    Amounting (BinaryOperator.level (.arithmetic op)) (text ++ (op.symbol.toList ++ text'))
      fun x => apply (value x) (value' x) := by
  obtain ⟨expr, word, layered, amounts, same⟩ := left
  obtain ⟨expr', word', layered', amounts', same'⟩ := right
  exact ⟨_, _, layered.join layered' no_looser tighter, .arithmetic on_integers amounts amounts',
    same.apply on_integers same'⟩

end Amounting

/-- **Every text of sums and products is parsed as what it stands for.** -/
theorem Arithmetic.amounting {binding : Binding} {text : List Char} {value : Int → Int}
    (arithmetic : Arithmetic binding text value) : Amounting binding.level text value := by
  induction arithmetic with
  | number numeral fits => exact .number numeral fits
  | current => exact ⟨_, _, .current, .current, fun _ => rfl⟩
  | minus operand ih => exact ih.minus
  | group inside ih => exact ih.group
  | product only ih => exact ih.loosen (by decide)
  | sum only ih => exact ih.loosen (by decide)
  | times left right ih ih' => exact .join .mul rfl ih ih' (by decide) (by decide)
  | plus left right ih ih' => exact .join .add rfl ih ih' (by decide) (by decide)
  | less left right ih ih' => exact .join .sub rfl ih ih' (by decide) (by decide)
  | blanks front_blank back_blank inside ih => exact ih.blanks front_blank back_blank

theorem Arithmetic.parse {source : String} {value : Int → Int}
    (arithmetic : Arithmetic .sum source.toList value) :
    ∃ expr word, Clause.parse source = .ok ⟨expr, none⟩ ∧ expr.Amounts word ∧
      SameWord word value := by
  obtain ⟨expr, word, layered, amounts, same⟩ := arithmetic.amounting
  have parsed := layered.parse
  rw [String.ofList_toList] at parsed
  exact ⟨expr, word, parsed, amounts, same⟩

end Proviso
