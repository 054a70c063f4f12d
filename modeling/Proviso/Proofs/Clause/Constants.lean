/- # Proviso.Proofs.Clause.Constants -- constants, numbers and quoted texts

A number is found as it is derived when a boundary follows: the matcher tries the number with a
fraction first, and that fails when neither a dot nor an exponent follows the digits. -/
import Proviso.Proofs.Clause.Words

namespace Proviso

set_option autoImplicit false

namespace Phrase

open Grammar

variable {ahead : Form Phrase → Context → Cursor → Prop} {context : Context} {cursor : Cursor}
  {found : Found Phrase}

/-! ## Constants -/

theorem finds_current (derives : grammar.Derivable (.phrase .current) context cursor found) :
    grammar.Finds (.phrase .current) context cursor found := by
  obtain ⟨inner, in_form, rfl⟩ := derives_phrase.mp derives
  exact .phrase ranking (.text ranking in_form)

theorem nil_bound (context : Context) : (grammar.inside .nil context).spacing ≠ .free := by
  simp [inside, grammar, mode]

theorem finds_nil (derives : grammar.Derivable (.phrase .nil) context cursor found) :
    grammar.Finds (.phrase .nil) context cursor found := by
  obtain ⟨inner, in_form, rfl⟩ := derives_phrase.mp derives
  have bound := nil_bound context
  obtain ⟨word, ending, in_word, in_ending, rfl⟩ := derives_seq_bound bound in_form
  exact .phrase ranking (.seq_bound bound (.text ranking in_word) (.notAhead ranking in_ending))

theorem boolean_bound (context : Context) :
    (grammar.inside .boolean context).spacing ≠ .free := by
  simp [inside, grammar, mode]

theorem finds_boolean (derives : grammar.Derivable (.phrase .boolean) context cursor found) :
    grammar.Finds (.phrase .boolean) context cursor found := by
  obtain ⟨inner, in_form, rfl⟩ := derives_phrase.mp derives
  have bound := boolean_bound context
  obtain ⟨word, ending, in_word, in_ending, rfl⟩ := derives_seq_bound bound in_form
  refine .phrase ranking (.seq_bound bound ?_ (.notAhead ranking in_ending))
  rcases derives_choice.mp in_word with in_true | in_false
  · exact .choice_first (.text ranking in_true)
  · obtain ⟨rest, here, -⟩ := derives_text.mp in_false
    have no_true : grammar.taken (literally "true") (grammar.inside .boolean context) cursor =
        none := by
      refine taken_text_eq_none fun c next => ?_
      rw [here] at next
      cases next
      decide
    exact .choice_second no_true (.text ranking in_false)

/-! ## Numbers -/

/-- The letter of an exponent is no digit. -/
theorem letter_apart {c : Char} (is_letter : (c.toLower == 'e') = true) : c.isDigit = false := by
  by_contra digit
  have is_digit : c.isDigit = true := by simpa using digit
  have still : c.toLower = c := by
    simp only [Char.isDigit, ge_iff_le, Bool.and_eq_true, decide_eq_true_eq] at is_digit
    unfold Char.toLower
    split
    · rename_i upper
      have above := UInt32.le_iff_toNat_le.mp upper.1
      have below := UInt32.le_iff_toNat_le.mp is_digit.2
      simp at above below
      omega
    · rfl
  rw [still, beq_iff_eq] at is_letter
  subst is_letter
  cases is_digit

theorem exponent_starts (derives : Derives grammar ahead (.phrase .exponent) context cursor found) :
    ∃ c, cursor.rest.head? = some c ∧ (c.toLower == 'e') = true :=
  firsts.starts_of_derives rfl derives

theorem finds_exponent (bound : context.spacing ≠ .free)
    (derives : grammar.Derivable (.phrase .exponent) context cursor found)
    (ends : found.cursor.Lacks Char.isDigit) :
    grammar.Finds (.phrase .exponent) context cursor found := by
  obtain ⟨letter, rest, in_letter, in_rest, rfl⟩ :=
    derives_seq_bound bound ((derives_silent rfl).mp derives)
  obtain ⟨sign, run, in_sign, in_run, rfl⟩ := derives_seq_bound bound in_rest
  refine .silent ranking rfl (.seq_bound bound (.textAnyCase ranking in_letter)
    (.seq_bound bound ?_ (finds_digits bound in_run ends)))
  rcases derives_optional.mp in_sign with given | rfl
  · apply Finds.optional_given
    rcases derives_choice.mp given with plus | minus
    · exact .choice_first (.text ranking plus)
    · obtain ⟨rest, here, -⟩ := derives_text.mp minus
      have no_plus : grammar.taken (literally "+") context
          letter.cursor = none := by
        refine taken_text_eq_none fun c next => ?_
        rw [here] at next
        cases next
        decide
      exact .choice_second no_plus (.text ranking minus)
  · -- Without a sign a digit follows, so no sign is found either.
    obtain ⟨first, run, are_digits, here⟩ := digits_shape bound in_run
    have is_digit := are_digits first (by simp)
    have no_sign (sign : Char) (apart : sign.isDigit = false) :
        grammar.taken (.text [sign]) context letter.cursor = none := by
      refine taken_text_eq_none fun c next => ?_
      rw [here] at next
      cases next
      rintro rfl
      rw [apart] at is_digit
      cases is_digit
    exact .optional_omitted (taken_choice_eq_none (no_sign '+' rfl) (no_sign '-' rfl))

/-- What a number with a fraction looks like up to its dot or exponent. -/
theorem float_shape (derives : Derives grammar ahead (.phrase .float) context cursor found) :
    ∃ first run c rest, (∀ c ∈ first :: run, c.isDigit = true) ∧
      (c = '.' ∨ (c.toLower == 'e') = true) ∧ cursor.rest = first :: run ++ c :: rest := by
  obtain ⟨inner, in_form, rfl⟩ := derives_phrase.mp derives
  have bound : (grammar.inside .float context).spacing ≠ .free := by simp [inside, grammar, mode]
  obtain ⟨whole, tail, in_whole, in_tail, rfl⟩ := derives_seq_bound bound in_form
  obtain ⟨first, run, are_digits, here⟩ := digits_shape bound in_whole
  rcases derives_choice.mp in_tail with fraction | exponent
  · obtain ⟨dot, rest, in_dot, -, rfl⟩ := derives_seq_bound bound fraction
    obtain ⟨rest, after, -⟩ := derives_text.mp in_dot
    exact ⟨first, run, '.', rest, are_digits, .inl rfl, by rw [here, after]; rfl⟩
  · obtain ⟨c, next, is_letter⟩ := exponent_starts exponent
    obtain ⟨rest, after⟩ := List.head?_eq_some_iff.mp next
    exact ⟨first, run, c, rest, are_digits, .inr is_letter, by rw [here, after]⟩

theorem finds_float (derives : grammar.Derivable (.phrase .float) context cursor found)
    (ends : Bounded found.cursor) : grammar.Finds (.phrase .float) context cursor found := by
  obtain ⟨inner, in_form, rfl⟩ := derives_phrase.mp derives
  rw [present_cursor] at ends
  have bound : (grammar.inside .float context).spacing ≠ .free := by simp [inside, grammar, mode]
  have no_digit : inner.cursor.Lacks Char.isDigit := ends.lacks fun c h => (boundary_apart h).2.1
  have no_letter : inner.cursor.Lacks fun c => c.toLower == 'e' :=
    ends.lacks fun c h => (boundary_apart h).2.2.2
  obtain ⟨whole, tail, in_whole, in_tail, rfl⟩ := derives_seq_bound bound in_form
  rcases derives_choice.mp in_tail with fraction | exponent
  · obtain ⟨dot, rest, in_dot, in_rest, rfl⟩ := derives_seq_bound bound fraction
    obtain ⟨digits, power, in_digits, in_power, rfl⟩ := derives_seq_bound bound in_rest
    obtain ⟨after, here, -⟩ := derives_text.mp in_dot
    have whole_ends : whole.cursor.Lacks Char.isDigit :=
      Cursor.lacks_of_head (by rw [here]; rfl) (show '.'.isDigit = false from rfl)
    refine .phrase ranking (.seq_bound bound (finds_digits bound in_whole whole_ends)
      (.choice_first (.seq_bound bound (.text ranking in_dot) ?_)))
    rcases derives_optional.mp in_power with given | rfl
    · obtain ⟨c, next, is_letter⟩ := exponent_starts given
      exact .seq_bound bound
        (finds_many_digits bound in_digits (Cursor.lacks_of_head next (letter_apart is_letter)))
        (.optional_given (finds_exponent bound given no_digit))
    · exact .seq_bound bound (finds_many_digits bound in_digits no_digit)
        (.optional_omitted (firsts.take_eq_none rfl no_letter))
  · obtain ⟨c, next, is_letter⟩ := exponent_starts exponent
    have no_dot : grammar.taken (.seqs [literally ".", .many (.char Char.isDigit),
        .optional (.phrase .exponent)]) (grammar.inside .float context) whole.cursor = none := by
      refine taken_seq_eq_none (taken_text_eq_none fun other here => ?_)
      rw [next] at here
      cases here
      rintro rfl
      cases is_letter
    exact .phrase ranking (.seq_bound bound
      (finds_digits bound in_whole (Cursor.lacks_of_head next (letter_apart is_letter)))
      (.choice_second no_dot (finds_exponent bound exponent no_digit)))

theorem integer_bound (context : Context) :
    (grammar.inside .integer context).spacing ≠ .free := by
  simp [inside, grammar, mode]

theorem finds_integer (derives : grammar.Derivable (.phrase .integer) context cursor found) :
    found.cursor.Lacks isIdentChar ∧ grammar.Finds (.phrase .integer) context cursor found := by
  obtain ⟨inner, in_form, rfl⟩ := derives_phrase.mp derives
  have bound := integer_bound context
  obtain ⟨run, ending, in_run, in_ending, rfl⟩ := derives_seq_bound bound in_form
  obtain ⟨clear, rfl⟩ := derives_notAhead.mp in_ending
  have names_end := lacks_of_not_ahead clear
  have digits_end : run.cursor.Lacks Char.isDigit := by
    intro c here
    have other := names_end c here
    simp only [isIdentChar, Char.isAlphanum, Bool.or_eq_false_iff] at other
    exact other.1.2
  rw [present_cursor]
  exact ⟨names_end, .phrase ranking (.seq_bound bound (finds_digits bound in_run digits_end)
    (.notAhead ranking in_ending))⟩

/-- Digits that end at a boundary do not start a number with a fraction. -/
theorem take_float_eq_none (derives : grammar.Derivable (.phrase .integer) context cursor found)
    (ends : Bounded found.cursor) : grammar.take .float context cursor = none := by
  obtain ⟨inner, in_form, rfl⟩ := derives_phrase.mp derives
  rw [present_cursor] at ends
  have bound := integer_bound context
  obtain ⟨run, ending, in_run, in_ending, rfl⟩ := derives_seq_bound bound in_form
  obtain ⟨-, rfl⟩ := derives_notAhead.mp in_ending
  obtain ⟨first, digits, are_digits, here⟩ := digits_shape bound in_run
  cases taken : grammar.take .float context cursor with
  | none => rfl
  | some float =>
    obtain ⟨other, others, c, rest, also_digits, continues, also_here⟩ :=
      float_shape (derives_of_take taken)
    have c_apart : c.isDigit = false := by
      rcases continues with rfl | is_letter
      · rfl
      · exact letter_apart is_letter
    have same := run_unique are_digits also_digits
      (ends.lacks fun c boundary => (boundary_apart boundary).2.1)
      (fun next at_head => by cases at_head; exact c_apart) (here.symm.trans also_here)
    have boundary := boundary_apart (ends c (by rw [same.2]; rfl))
    rcases continues with rfl | is_letter
    · simp at boundary
    · rw [is_letter] at boundary
      simp at boundary

theorem finds_number (derives : grammar.Derivable (.phrase .number) context cursor found)
    (ends : Bounded found.cursor) : grammar.Finds (.phrase .number) context cursor found := by
  refine .silent ranking rfl ?_
  rcases derives_choice.mp ((derives_silent rfl).mp derives) with float | integer
  · exact .choice_first (finds_float float ends)
  · exact .choice_second (take_float_eq_none integer ends) (finds_integer integer).2

/-! ## Quoted texts -/

/-- One character of a quoted text as it is written, its backslash included. -/
def quotedUnit (quote : Char) : Form Phrase :=
  .choice (.seq (.notAhead (.choice (.text [quote]) (.text ['\\']))) (.char fun _ => true))
    (.seq (.text ['\\']) (.char fun _ => true))

/-- A bare character is neither the quote nor a backslash. -/
theorem taken_bare_eq_none {quote c : Char} (here : cursor.rest.head? = some c)
    (special : c = quote ∨ c = '\\') :
    grammar.taken (.seq (.notAhead (.choice (.text [quote]) (.text ['\\']))) (.char fun _ => true))
      context cursor = none := by
  obtain ⟨rest, rest_eq⟩ := List.head?_eq_some_iff.mp here
  have stands : grammar.Finds (.text [c]) { context with lookahead := context.lookahead.flip }
      cursor ⟨[], ⟨rest, cursor.offset + 1⟩⟩ := .of_taken ranking (taken_text rest_eq)
  by_cases is_quote : c = quote
  · subst is_quote
    exact taken_seq_eq_none (taken_notAhead_eq_none (.choice_first stands))
  · have is_backslash := special.resolve_left is_quote
    subst is_backslash
    have no_quote : grammar.taken (.text [quote])
        { context with lookahead := context.lookahead.flip } cursor = none := by
      refine taken_text_eq_none fun other next => ?_
      rw [here] at next
      cases next
      exact is_quote
    exact taken_seq_eq_none (taken_notAhead_eq_none (.choice_second no_quote stands))

theorem finds_quotedUnit {quote : Char} (bound : context.spacing ≠ .free)
    (derives : grammar.Derivable (quotedUnit quote) context cursor found) :
    grammar.Finds (quotedUnit quote) context cursor found := by
  rcases derives_choice.mp derives with bare | escaped
  · obtain ⟨clear, single, in_clear, in_single, rfl⟩ := derives_seq_bound bound bare
    exact .choice_first (.seq_bound bound (.notAhead ranking in_clear) (.char ranking in_single))
  · obtain ⟨backslash, single, in_backslash, in_single, rfl⟩ := derives_seq_bound bound escaped
    obtain ⟨rest, here, -⟩ := derives_text.mp in_backslash
    exact .choice_second (taken_bare_eq_none (by rw [here]; rfl) (.inr rfl))
      (.seq_bound bound (.text ranking in_backslash) (.char ranking in_single))

/-- A quoted text ends at its quote. -/
theorem finds_quotedBody {quote : Char} (bound : context.spacing ≠ .free)
    (no_backslash : quote ≠ '\\')
    (derives : grammar.Derivable (quotedBody quote) context cursor found)
    (ends : found.cursor.rest.head? = some quote) :
    grammar.Finds (quotedBody quote) context cursor found := by
  refine .many_run bound ranking rfl (fun _ _ derives => finds_quotedUnit bound derives) derives ?_
  refine taken_choice_eq_none (taken_bare_eq_none ends (.inl rfl))
    (taken_seq_eq_none (taken_text_eq_none fun c here => ?_))
  rw [ends] at here
  cases here
  exact no_backslash

theorem finds_singleQuoted
    (derives : grammar.Derivable (.phrase .singleQuoted) context cursor found)
    (ends : found.cursor.rest.head? = some '\'') :
    grammar.Finds (.phrase .singleQuoted) context cursor found := by
  obtain ⟨inner, in_form, rfl⟩ := derives_phrase.mp derives
  rw [present_cursor] at ends
  have bound : (grammar.inside .singleQuoted context).spacing ≠ .free := by
    simp [inside, grammar, mode]
  exact .phrase ranking (finds_quotedBody bound (by decide) in_form ends)

theorem finds_doubleQuoted
    (derives : grammar.Derivable (.phrase .doubleQuoted) context cursor found)
    (ends : found.cursor.rest.head? = some '"') :
    grammar.Finds (.phrase .doubleQuoted) context cursor found := by
  obtain ⟨inner, in_form, rfl⟩ := derives_phrase.mp derives
  rw [present_cursor] at ends
  have bound : (grammar.inside .doubleQuoted context).spacing ≠ .free := by
    simp [inside, grammar, mode]
  exact .phrase ranking (finds_quotedBody bound (by decide) in_form ends)

theorem finds_string (derives : grammar.Derivable (.phrase .string) context cursor found) :
    grammar.Finds (.phrase .string) context cursor found := by
  obtain ⟨inner, in_form, rfl⟩ := derives_phrase.mp derives
  have bound : (grammar.inside .string context).spacing ≠ .free := by
    simp [inside, grammar, mode]
  refine .phrase ranking ?_
  rcases derives_choice.mp in_form with single | double
  · obtain ⟨opening, rest, in_opening, in_rest, rfl⟩ := derives_seq_bound bound single
    obtain ⟨body, closing, in_body, in_closing, rfl⟩ := derives_seq_bound bound in_rest
    obtain ⟨after, here, -⟩ := derives_text.mp in_closing
    have ends : body.cursor.rest.head? = some '\'' := by
      rw [here]
      rfl
    exact .choice_first (.seq_bound bound (.text ranking in_opening)
      (.seq_bound bound (finds_singleQuoted in_body ends) (.text ranking in_closing)))
  · obtain ⟨opening, rest, in_opening, in_rest, rfl⟩ := derives_seq_bound bound double
    obtain ⟨body, closing, in_body, in_closing, rfl⟩ := derives_seq_bound bound in_rest
    obtain ⟨before, starts, -⟩ := derives_text.mp in_opening
    obtain ⟨after, here, -⟩ := derives_text.mp in_closing
    have ends : body.cursor.rest.head? = some '"' := by
      rw [here]
      rfl
    have no_single : grammar.taken (.seqs [literally "'", .phrase .singleQuoted, literally "'"])
        (grammar.inside .string context) cursor = none := by
      refine taken_seq_eq_none (taken_text_eq_none fun c next => ?_)
      rw [starts] at next
      cases next
      decide
    exact .choice_second no_single (.seq_bound bound (.text ranking in_opening)
      (.seq_bound bound (finds_doubleQuoted in_body ends) (.text ranking in_closing)))

end Phrase

end Proviso
