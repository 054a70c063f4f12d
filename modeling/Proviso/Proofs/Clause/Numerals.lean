/- # Proviso.Proofs.Clause.Numerals -- every number of the grammar can be read

Reading a numeral fails where digits are missing or something else stands among them.  What the
grammar takes for an integer is digits (`integer_digits`), which are read as an integer or, where it
does not fit, as the nearest double (`Literal.ofNumeral?_digits`).  What it takes for a number with a
fraction or an exponent has digits before the point, and digits behind the letter of the exponent, so
that reading it never fails either (`float_readable`). -/
import Proviso.Expr.OfTree
import Proviso.Proofs.Binary64.Order
import Proviso.Proofs.Clause.Constants

namespace Proviso

set_option autoImplicit false

namespace Binary64

/-! ## Reading digits -/

/-- An exponent as reading takes it: nothing, or its letter, a sign if there is one, and digits. -/
inductive ExponentText : List Char → Prop where
  | none : ExponentText []
  | some {mark : Char} {sign digits : List Char} (is_mark : mark = 'e' ∨ mark = 'E')
      (is_sign : sign ∈ [[], ['+'], ['-']]) (some_digit : digits ≠ [])
      (are_digits : ∀ c ∈ digits, c.isDigit = true) : ExponentText (mark :: (sign ++ digits))

theorem readExponent?_isSome {sign digits : List Char} (is_sign : sign ∈ [[], ['+'], ['-']])
    (some_digit : digits ≠ []) (are_digits : ∀ c ∈ digits, c.isDigit = true) :
    (readExponent? (sign ++ digits)).isSome = true := by
  have all_digits : digits.all Char.isDigit = true := List.all_eq_true.mpr are_digits
  have not_empty : digits.isEmpty = false := by simpa using some_digit
  simp only [List.mem_cons, List.not_mem_nil, or_false] at is_sign
  rcases is_sign with rfl | rfl | rfl
  · -- Without a sign the first digit tells that there is none.
    cases digits with
    | nil => exact absurd rfl some_digit
    | cons first rest =>
      have is_digit := are_digits first List.mem_cons_self
      have apart (sign : Char) (never : sign.isDigit = false) : first ≠ sign := by
        rintro rfl
        rw [is_digit] at never
        cases never
      rw [List.nil_append, readExponent?]
      · simp [all_digits]
      · exact fun _ same => apart '-' rfl (List.cons.inj same).1
      · exact fun _ same => apart '+' rfl (List.cons.inj same).1
  all_goals simp [readExponent?, all_digits, some_digit]

/-- A run of digits and what stands behind it. -/
theorem split_digits {digits tail : List Char} (are_digits : ∀ c ∈ digits, c.isDigit = true)
    (ends : ∀ c ∈ tail.head?, c.isDigit = false) :
    (digits ++ tail).takeWhile Char.isDigit = digits ∧
      (digits ++ tail).dropWhile Char.isDigit = tail := by
  rw [List.takeWhile_append_of_pos are_digits, List.dropWhile_append_of_pos are_digits]
  cases tail with
  | nil => simp
  | cons c tail => simp [ends c rfl]

theorem ExponentText.ends {power : List Char} (is_power : ExponentText power) :
    ∀ c ∈ power.head?, c.isDigit = false ∧ c ≠ '.' := by
  cases is_power with
  | none => simp
  | some is_mark =>
    rintro c ⟨⟩
    rcases is_mark with rfl | rfl <;> decide

/-- The exponent is read, if there is one. -/
theorem ExponentText.isSome {power : List Char} (is_power : ExponentText power) :
    (match power with
      | [] => Option.some (0 : Int)
      | mark :: rest =>
        if mark = 'e' ∨ mark = 'E' then readExponent? rest else Option.none).isSome = true := by
  cases is_power with
  | none => rfl
  | some is_mark is_sign some_digit are_digits =>
    simp only [is_mark, if_true]
    exact readExponent?_isSome is_sign some_digit are_digits

/-- Digits, a point with digits behind it, and an exponent are read; point and exponent may be
missing. -/
theorem readDigits?_isSome (format : FloatFormat) (negative : Bool) {whole point power : List Char}
    (some_digit : whole ≠ []) (are_digits : ∀ c ∈ whole, c.isDigit = true)
    (is_point : point = [] ∨ ∃ digits, point = '.' :: digits ∧ ∀ c ∈ digits, c.isDigit = true)
    (is_power : ExponentText power) :
    (readDigits? format negative (whole ++ (point ++ power))).isSome = true := by
  have not_empty : whole.isEmpty = false := by simpa using some_digit
  have power_ends : ∀ c ∈ power.head?, c.isDigit = false := fun c here => (is_power.ends c here).1
  rcases is_point with rfl | ⟨digits, rfl, also_digits⟩
  · obtain ⟨taken, dropped⟩ := split_digits are_digits power_ends
    have no_point (rest : List Char) : power ≠ '.' :: rest := by
      rintro rfl
      exact (is_power.ends '.' rfl).2 rfl
    simp only [readDigits?, List.nil_append, taken, dropped, not_empty, Bool.false_and,
      Bool.false_eq_true, if_false, Option.isSome_map]
    exact is_power.isSome
  · have point_ends : ∀ c ∈ ('.' :: (digits ++ power)).head?, c.isDigit = false := by simp
    obtain ⟨taken, dropped⟩ := split_digits are_digits point_ends
    obtain ⟨taken', dropped'⟩ := split_digits also_digits power_ends
    simp only [readDigits?, List.cons_append, taken, dropped, taken', dropped', not_empty,
      Bool.false_and, Bool.false_eq_true, if_false, Option.isSome_map]
    exact is_power.isSome

theorem two_pow_le_of_length {n places : Nat} (positive : 0 < places)
    (long : places < (Nat.toDigits 10 n).length) : Nat.pow 2 (3 * places) ≤ n := by
  have at_least : ¬ n < 10 ^ places := fun below =>
    Nat.not_le.mpr long ((Nat.length_toDigits_le_iff (by decide) positive).mpr below)
  calc Nat.pow 2 (3 * places)
    _ = 8 ^ places := Nat.pow_mul 2 3 places
    _ ≤ 10 ^ places := Nat.pow_le_pow_left (by decide) places
    _ ≤ n := Nat.not_lt.mp at_least

/-- A natural number with more than 400 digits is past all finite doubles. -/
theorem doubleLimit_le_of_length {n : Nat} (long : 400 < (Nat.toDigits 10 n).length) :
    doubleLimit ≤ n * quantaPerUnit := by
  obtain ⟨places, places_eq⟩ : ∃ places, places = 400 := ⟨400, rfl⟩
  obtain ⟨exponent, exponent_eq, unit_eq⟩ := exists_quantaPerUnit_eq
  rw [← places_eq] at long
  have past : doubleCeiling ≤ 3 * places + exponent := by
    simp only [doubleCeiling]
    omega
  calc doubleLimit
    _ ≤ Nat.pow 2 (3 * places + exponent) := doubleLimit_le_two_pow past
    _ = Nat.pow 2 (3 * places) * quantaPerUnit := by rw [unit_eq]; exact Nat.pow_add 2 _ exponent
    _ ≤ n * quantaPerUnit := Nat.mul_le_mul_right _ (two_pow_le_of_length (by omega) long)

/-- The decimal of a natural number is the double of the number. -/
theorem ofDecimal_natural (n : Nat) : ofDecimal .double false n 0 = .ofInt n := by
  have double_eq : ofInt n = round .double false (n * quantaPerUnit) 1 := by
    have not_negative : ¬ (n : Int) < 0 := by omega
    rw [ofInt, decide_eq_false not_negative, Int.natAbs_natCast]
  unfold ofDecimal
  dsimp only
  split
  · rename_i small
    have zero : n = 0 := by
      rcases small with zero | below
      · exact zero
      · omega
    subst zero
    rw [double_eq, Nat.zero_mul, round_zero]
  · split
    · rename_i long
      rw [double_eq, round_of_limit_le false (doubleLimit_le_of_length (by omega))]
    · rw [double_eq]
      show round .double false (n * Nat.pow 10 0 * quantaPerUnit) 1 = _
      rw [Nat.pow_eq, Nat.pow_zero, Nat.mul_one]

/-- Digits are read as the double of the number that they write. -/
theorem readDigits?_digits {digits : List Char} (some_digit : digits ≠ [])
    (are_digits : ∀ c ∈ digits, c.isDigit = true) :
    readDigits? .double false digits = some (.ofInt (Nat.ofDigitChars 10 digits 0)) := by
  have nothing_behind : ∀ c ∈ ([] : List Char).head?, c.isDigit = false := by simp
  obtain ⟨taken, dropped⟩ := split_digits are_digits nothing_behind
  rw [List.append_nil] at taken dropped
  have not_empty : digits.isEmpty = false := by simpa using some_digit
  simp only [readDigits?, taken, dropped, not_empty, Bool.false_and, Bool.false_eq_true, if_false,
    Option.map_some, List.append_nil, List.length_nil]
  exact congrArg some (ofDecimal_natural _)

end Binary64

/-! ## Integers -/

namespace Literal

/-- The number written by digits, as an integer if it fits and as the nearest double if not. -/
def ofDigits (digits : List Char) : Literal :=
  let value := Nat.ofDigitChars 10 digits 0
  if value < 0x8000000000000000 then .int (.ofNat value) else .float (.ofInt value)

theorem ofNumeral?_digits {digits : List Char} (some_digit : digits ≠ [])
    (are_digits : ∀ c ∈ digits, c.isDigit = true) : ofNumeral? digits = some (ofDigits digits) := by
  have all_digits : digits.all Char.isDigit = true := List.all_eq_true.mpr are_digits
  have not_empty : digits.isEmpty = false := by simpa using some_digit
  have read := Binary64.readDigits?_digits some_digit are_digits
  unfold ofNumeral? readInt64? ofDigits
  by_cases fits : Nat.ofDigitChars 10 digits 0 < 0x8000000000000000
  · simp [all_digits, not_empty, fits]
  · simp [all_digits, not_empty, fits, read]

end Literal

/-- Only the letter in either case becomes the small letter. -/
theorem eq_of_toLower_eq_e {c : Char} (is_letter : c.toLower = 'e') : c = 'e' ∨ c = 'E' := by
  unfold Char.toLower at is_letter
  split at is_letter
  · rename_i upper
    have below : c.val.toNat ≤ 90 := UInt32.le_iff_toNat_le.mp upper.2
    have moved : (c.val.toNat + 32) % 2 ^ 32 = 101 :=
      congrArg (fun letter : Char => letter.val.toNat) is_letter
    have same : c.val.toNat = 69 := by omega
    exact .inr (Char.ext (UInt32.toNat_inj.mp same))
  · exact .inl is_letter

namespace Phrase

open Grammar Binary64

variable {ahead : Form Phrase → Context → Cursor → Prop} {context : Context} {cursor : Cursor}
  {found : Found Phrase}

theorem exponent_text (bound : context.spacing ≠ .free)
    (derives : Derives grammar ahead (.phrase .exponent) context cursor found) :
    ∃ power, ExponentText power ∧ cursor.rest = power ++ found.cursor.rest := by
  obtain ⟨letter, rest, in_letter, in_rest, rfl⟩ :=
    derives_seq_bound bound ((derives_silent rfl).mp derives)
  obtain ⟨sign, run, in_sign, in_run, rfl⟩ := derives_seq_bound bound in_rest
  obtain ⟨first, digits, are_digits, digits_here⟩ := digits_shape bound in_run
  obtain ⟨mark, is_mark, mark_here⟩ : ∃ mark, (mark = 'e' ∨ mark = 'E') ∧
      cursor.rest = mark :: letter.cursor.rest := by
    cases in_letter with
    | @textAnyCase _ front rest _ _ here same =>
      have lower : front.map Char.toLower = ['e'] := same
      obtain ⟨mark, rfl, is_letter⟩ := List.map_eq_singleton_iff.mp lower
      exact ⟨mark, eq_of_toLower_eq_e is_letter, here⟩
  obtain ⟨chars, is_sign, sign_here⟩ : ∃ chars ∈ [[], ['+'], ['-']],
      letter.cursor.rest = chars ++ sign.cursor.rest := by
    rcases derives_optional.mp in_sign with given | rfl
    · rcases derives_choice.mp given with plus | minus
      · obtain ⟨rest, here, rfl⟩ := derives_text.mp plus
        exact ⟨['+'], by decide, here⟩
      · obtain ⟨rest, here, rfl⟩ := derives_text.mp minus
        exact ⟨['-'], by decide, here⟩
    · exact ⟨[], by decide, rfl⟩
  refine ⟨_, .some is_mark is_sign (List.cons_ne_nil first digits) are_digits, ?_⟩
  rw [mark_here, sign_here, digits_here]
  simp

/-- What is taken for an integer is digits. -/
theorem integer_digits (derives : Derives grammar ahead (.phrase .integer) context cursor found) :
    cursor.textTo found.cursor ≠ [] ∧ ∀ c ∈ cursor.textTo found.cursor, c.isDigit = true := by
  have reaches := (derives.advances ranking).1
  obtain ⟨inner, in_form, rfl⟩ := derives_phrase.mp derives
  have bound := integer_bound context
  obtain ⟨run, ending, in_run, in_ending, rfl⟩ := derives_seq_bound bound in_form
  obtain ⟨-, rfl⟩ := derives_notAhead.mp in_ending
  obtain ⟨first, digits, are_digits, here⟩ := digits_shape bound in_run
  rw [present_cursor] at reaches ⊢
  have text_eq : cursor.textTo run.cursor = first :: digits :=
    List.append_cancel_right (reaches.rest_eq.symm.trans here)
  rw [text_eq]
  exact ⟨List.cons_ne_nil _ _, are_digits⟩

/-- What is taken for a number with a fraction or an exponent is read. -/
theorem float_readable (derives : Derives grammar ahead (.phrase .float) context cursor found) :
    (readDigits? .double false (cursor.textTo found.cursor)).isSome = true := by
  have reaches := (derives.advances ranking).1
  obtain ⟨inner, in_form, rfl⟩ := derives_phrase.mp derives
  have bound : (grammar.inside .float context).spacing ≠ .free := by simp [inside, grammar, mode]
  obtain ⟨whole, tail, in_whole, in_tail, rfl⟩ := derives_seq_bound bound in_form
  obtain ⟨first, run, are_digits, here⟩ := digits_shape bound in_whole
  rw [present_cursor] at reaches ⊢
  have text_eq {text : List Char} (spelled : cursor.rest = text ++ tail.cursor.rest) :
      cursor.textTo tail.cursor = text :=
    List.append_cancel_right (reaches.rest_eq.symm.trans spelled)
  rcases derives_choice.mp in_tail with fraction | exponent
  · obtain ⟨dot, rest, in_dot, in_rest, rfl⟩ := derives_seq_bound bound fraction
    obtain ⟨after, dot_here, rfl⟩ := derives_text.mp in_dot
    obtain ⟨digits, power, in_digits, in_power, rfl⟩ := derives_seq_bound bound in_rest
    obtain ⟨places, also_digits, places_here⟩ := many_run bound char_single in_digits
    obtain ⟨chars, is_power, power_here⟩ : ∃ chars, ExponentText chars ∧
        digits.cursor.rest = chars ++ power.cursor.rest := by
      rcases derives_optional.mp in_power with given | rfl
      · exact exponent_text bound given
      · exact ⟨[], .none, rfl⟩
    have spelled : cursor.rest =
        first :: run ++ ('.' :: places ++ chars) ++ power.cursor.rest := by
      have dot_first : whole.cursor.rest = '.' :: after := dot_here
      have places_next : after = places ++ digits.cursor.rest := places_here
      rw [here, dot_first, places_next, power_here]
      simp
    rw [text_eq spelled]
    exact readDigits?_isSome _ _ (List.cons_ne_nil first run) are_digits
      (.inr ⟨places, rfl, also_digits⟩) is_power
  · obtain ⟨chars, is_power, power_here⟩ := exponent_text bound exponent
    have spelled : cursor.rest = first :: run ++ ([] ++ chars) ++ tail.cursor.rest := by
      rw [here, power_here, List.nil_append, List.append_assoc]
    rw [text_eq spelled]
    exact readDigits?_isSome _ _ (List.cons_ne_nil first run) are_digits (.inl rfl) is_power

end Phrase

end Proviso
