/- # Proviso.Proofs.Clause.Operands -- which operand stands at a place

A name, a call, `nil` and the truth values all start with a letter, and a field of the record starts
like an expression in parentheses.  What follows the word tells them apart: a call goes on with a
parenthesis, which follows no other operand (`take_call_eq_none`), and only a field of the record
goes on with `$` after its parentheses (`take_sibling_eq_none`). -/
import Proviso.Proofs.Clause.Operators

namespace Proviso

set_option autoImplicit false

namespace Phrase

open Grammar

variable {ahead : Form Phrase → Context → Cursor → Prop} {context : Context}
  {cursor stop : Cursor} {found : Found Phrase}

/-! ## Words -/

/-- A whole word stands between two places: no character that continues it follows. -/
def Word (cursor stop : Cursor) : Prop :=
  ∃ first run, isIdentStart first = true ∧ (∀ c ∈ run, isIdentChar c = true) ∧
    cursor.rest = first :: run ++ stop.rest ∧ cursor.Reaches stop ∧ stop.Lacks isIdentChar

theorem identChar_of_start {c : Char} (starts : isIdentStart c = true) : isIdentChar c = true := by
  simp only [isIdentStart, isIdentChar, Char.isAlphanum, Bool.or_eq_true] at starts ⊢
  exact starts.imp_left .inl

theorem Word.unique {other : Cursor} (word : Word cursor stop) (word' : Word cursor other) :
    stop = other := by
  obtain ⟨first, run, starts, continues, rest, reaches, ends⟩ := word
  obtain ⟨first', run', starts', continues', rest', reaches', ends'⟩ := word'
  have of_kind : ∀ c ∈ first :: run, isIdentChar c = true := by
    simpa using ⟨identChar_of_start starts, continues⟩
  have of_kind' : ∀ c ∈ first' :: run', isIdentChar c = true := by
    simpa using ⟨identChar_of_start starts', continues'⟩
  have same := run_unique of_kind of_kind' ends ends' (rest.symm.trans rest')
  exact reaches.unique reaches' same.2

theorem nil_word (derives : grammar.Derivable (.phrase .nil) context cursor found) :
    Word cursor found.cursor := by
  have reaches := (derives.advances ranking).1
  obtain ⟨inner, in_form, rfl⟩ := derives_phrase.mp derives
  obtain ⟨word, ending, in_word, in_ending, rfl⟩ := derives_seq_bound (nil_bound context) in_form
  obtain ⟨clear, rfl⟩ := derives_notAhead.mp in_ending
  obtain ⟨rest, here, rfl⟩ := derives_text.mp in_word
  rw [present_cursor] at reaches ⊢
  exact ⟨'n', ['i', 'l'], rfl, List.all_eq_true.mp rfl, here, reaches,
    lacks_of_not_ahead clear⟩

theorem boolean_word (derives : grammar.Derivable (.phrase .boolean) context cursor found) :
    Word cursor found.cursor := by
  have reaches := (derives.advances ranking).1
  obtain ⟨inner, in_form, rfl⟩ := derives_phrase.mp derives
  obtain ⟨word, ending, in_word, in_ending, rfl⟩ :=
    derives_seq_bound (boolean_bound context) in_form
  obtain ⟨clear, rfl⟩ := derives_notAhead.mp in_ending
  rw [present_cursor] at reaches ⊢
  rcases derives_choice.mp in_word with in_true | in_false
  · obtain ⟨rest, here, rfl⟩ := derives_text.mp in_true
    exact ⟨'t', ['r', 'u', 'e'], rfl, List.all_eq_true.mp rfl, here, reaches,
      lacks_of_not_ahead clear⟩
  · obtain ⟨rest, here, rfl⟩ := derives_text.mp in_false
    exact ⟨'f', ['a', 'l', 's', 'e'], rfl, List.all_eq_true.mp rfl, here, reaches,
      lacks_of_not_ahead clear⟩

theorem ident_word (derives : Derives grammar ahead (.phrase .ident) context cursor found)
    (ends : found.cursor.Lacks isIdentChar) : Word cursor found.cursor := by
  obtain ⟨first, run, starts, continues, rest⟩ := ident_shape derives
  exact ⟨first, run, starts, continues, rest, (derives.advances ranking).1, ends⟩

/-- The word that a path starts with is all of it, or a step follows. -/
theorem path_word (derives : Derives grammar ahead (.phrase .fieldPath) context cursor found)
    (ends : found.cursor.Lacks isIdentChar) :
    ∃ stop, Word cursor stop ∧ (stop = found.cursor ∨
      ∃ c, stop.rest.head? = some c ∧ isStepStart c = true) := by
  obtain ⟨inner, in_form, rfl⟩ := derives_phrase.mp derives
  rw [present_cursor] at ends ⊢
  obtain ⟨name, steps, in_name, in_steps, rfl⟩ := derives_seq_bound (path_bound context) in_form
  rcases derives_many.mp in_steps with rfl | rounds
  · exact ⟨name.cursor, ident_word in_name ends, .inl rfl⟩
  · obtain ⟨c, here, starts⟩ : ∃ c, name.cursor.rest.head? = some c ∧ isStepStart c = true := by
      cases rounds with
      | last step => exact step_starts step
      | more step => exact step_starts step
    have name_ends : name.cursor.Lacks isIdentChar := by
      simp only [isStepStart, Bool.or_eq_true, beq_iff_eq] at starts
      rcases starts with rfl | rfl <;> exact Cursor.lacks_of_head here rfl
    exact ⟨name.cursor, ident_word in_name name_ends, .inr ⟨c, here, starts⟩⟩

/-! ## Parts -/

def argumentsForm : Form Phrase :=
  .optional (.seq (.phrase .expression) (.many (.seq (literally ",") (.phrase .expression))))

def linkForm : Form Phrase :=
  .seqs [.phrase .binaryOperator, .many (.phrase .unaryOperator), .phrase .primary]

/-- Text that is no blank stands behind the blanks. -/
theorem skipBlanks_of_text {start stop : Cursor} {c : Char} {rest : List Char}
    (blanks : grammar.Blanks free start stop) (here : stop.rest = c :: rest)
    (visible : isBlank c = false) : stop = grammar.skipBlanks free start :=
  blanks.eq_skipBlanks (Cursor.lacks_of_head (by rw [here]; rfl) visible)

/-- A name that is followed by punctuation, blanks aside, ends there. -/
theorem names_end_of_text {start stop : Cursor} {c : Char} {rest : List Char}
    (blanks : grammar.Blanks free start stop) (here : stop.rest = c :: rest)
    (apart : isIdentChar c = false) : start.Lacks isIdentChar := by
  exact blanks.lacks (fun other blank => (blank_apart blank).1)
    (Cursor.lacks_of_head (by rw [here]; rfl) apart)

theorem call_parts (derives : Derives grammar ahead (.phrase .call) free cursor found) :
    ∃ name opening arguments closing rest tail,
      Derives grammar ahead (.phrase .ident) free cursor name ∧
      grammar.Blanks free name.cursor opening ∧ opening.rest = '(' :: rest ∧
      (∃ start, grammar.Blanks free ⟨rest, opening.offset + 1⟩ start ∧
        Derives grammar ahead argumentsForm free start arguments) ∧
      grammar.Blanks free arguments.cursor closing ∧ closing.rest = ')' :: tail ∧
      found = grammar.present .call free cursor
        ⟨name.trees ++ ([] ++ (arguments.trees ++ [])), ⟨tail, closing.offset + 1⟩⟩ := by
  obtain ⟨inner, in_form, rfl⟩ := derives_phrase.mp derives
  obtain ⟨name, opening, _, in_name, to_opening, in_list, rfl⟩ := derives_seq.mp in_form
  obtain ⟨_, start, _, in_opening, to_start, in_body, rfl⟩ := derives_seq.mp in_list
  obtain ⟨rest, opens, rfl⟩ := derives_text.mp in_opening
  obtain ⟨arguments, closing, _, in_arguments, to_closing, in_closing, rfl⟩ :=
    derives_seq.mp in_body
  obtain ⟨tail, closes, rfl⟩ := derives_text.mp in_closing
  exact ⟨name, opening, arguments, closing, rest, tail, in_name, to_opening, opens,
    ⟨start, to_start, in_arguments⟩, to_closing, closes, rfl⟩

theorem grouped_parts (derives : Derives grammar ahead (.phrase .grouped) free cursor found) :
    ∃ start inner closing rest tail, cursor.rest = '(' :: rest ∧
      grammar.Blanks free ⟨rest, cursor.offset + 1⟩ start ∧
      Derives grammar ahead (.phrase .expression) free start inner ∧
      grammar.Blanks free inner.cursor closing ∧ closing.rest = ')' :: tail ∧
      found = grammar.present .grouped free cursor
        ⟨[] ++ (inner.trees ++ []), ⟨tail, closing.offset + 1⟩⟩ := by
  obtain ⟨inner, in_form, rfl⟩ := derives_phrase.mp derives
  obtain ⟨_, start, _, in_opening, to_start, in_body, rfl⟩ := derives_seq.mp in_form
  obtain ⟨rest, opens, rfl⟩ := derives_text.mp in_opening
  obtain ⟨inner, closing, _, in_inner, to_closing, in_closing, rfl⟩ := derives_seq.mp in_body
  obtain ⟨tail, closes, rfl⟩ := derives_text.mp in_closing
  exact ⟨start, inner, closing, rest, tail, opens, to_start, in_inner, to_closing, closes, rfl⟩

theorem sibling_parts (derives : Derives grammar ahead (.phrase .sibling) free cursor found) :
    ∃ start path closing last rest after tail, cursor.rest = '(' :: rest ∧
      grammar.Blanks free ⟨rest, cursor.offset + 1⟩ start ∧
      Derives grammar ahead (.phrase .fieldPath) free start path ∧
      grammar.Blanks free path.cursor closing ∧ closing.rest = ')' :: after ∧
      grammar.Blanks free ⟨after, closing.offset + 1⟩ last ∧ last.rest = '$' :: tail ∧
      found = grammar.present .sibling free cursor
        ⟨[] ++ (path.trees ++ ([] ++ [])), ⟨tail, last.offset + 1⟩⟩ := by
  obtain ⟨inner, in_form, rfl⟩ := derives_phrase.mp derives
  obtain ⟨_, start, _, in_opening, to_start, in_body, rfl⟩ := derives_seq.mp in_form
  obtain ⟨rest, opens, rfl⟩ := derives_text.mp in_opening
  obtain ⟨path, closing, _, in_path, to_closing, in_end, rfl⟩ := derives_seq.mp in_body
  obtain ⟨_, last, _, in_closing, to_last, in_last, rfl⟩ := derives_seq.mp in_end
  obtain ⟨after, closes, rfl⟩ := derives_text.mp in_closing
  obtain ⟨tail, ends, rfl⟩ := derives_text.mp in_last
  exact ⟨start, path, closing, last, rest, after, tail, opens, to_start, in_path, to_closing,
    closes, to_last, ends, rfl⟩

theorem expression_parts
    (derives : Derives grammar ahead (.phrase .expression) free cursor found) :
    ∃ prefixes start operand next links,
      Derives grammar ahead (.many (.phrase .unaryOperator)) free cursor prefixes ∧
      grammar.Blanks free prefixes.cursor start ∧
      Derives grammar ahead (.phrase .primary) free start operand ∧
      grammar.Blanks free operand.cursor next ∧
      Derives grammar ahead (.many linkForm) free next links ∧
      found = grammar.present .expression free cursor
        ⟨prefixes.trees ++ (operand.trees ++ links.trees), links.cursor⟩ := by
  obtain ⟨inner, in_form, rfl⟩ := derives_phrase.mp derives
  obtain ⟨prefixes, start, _, in_prefixes, to_start, in_body, rfl⟩ := derives_seq.mp in_form
  obtain ⟨operand, next, links, in_operand, to_next, in_links, rfl⟩ := derives_seq.mp in_body
  exact ⟨prefixes, start, operand, next, links, in_prefixes, to_start, in_operand, to_next,
    in_links, rfl⟩

/-! ## Words that start operands -/

/-- The operands in the order in which they are tried. -/
def operands : List Phrase :=
  [.sibling, .grouped, .call, .nil, .boolean, .number, .string, .current]

theorem derives_primary : Derives grammar ahead (.phrase .primary) context cursor found ↔
    ∃ (place : Nat) (operand : Phrase), operands[place]? = some operand ∧
      Derives grammar ahead (.phrase operand) context cursor found := by
  rw [derives_silent rfl]
  exact derives_phrases (by decide)

/-- The word that a call starts with is followed by a parenthesis. -/
theorem call_word (derives : Derives grammar ahead (.phrase .call) free cursor found) :
    ∃ stop, Word cursor stop ∧ (grammar.skipBlanks free stop).rest.head? = some '(' := by
  obtain ⟨name, opening, _, _, rest, _, in_name, to_opening, opens, -⟩ := call_parts derives
  refine ⟨name.cursor, ident_word in_name (names_end_of_text to_opening opens rfl), ?_⟩
  rw [← skipBlanks_of_text to_opening opens rfl, opens]
  rfl

/-- A call is not found at a word that no parenthesis follows. -/
theorem take_call_eq_none (word : Word cursor stop)
    (no_parenthesis : (grammar.skipBlanks free stop).rest.head? ≠ some '(') :
    grammar.take .call free cursor = none := by
  cases taken : grammar.take .call free cursor with
  | none => rfl
  | some found =>
    obtain ⟨other, other_word, parenthesis⟩ := call_word (derives_of_take taken)
    rw [word.unique other_word] at no_parenthesis
    exact absurd parenthesis no_parenthesis

/-- The word that an operand starts with is all of it, or a parenthesis follows. -/
theorem primary_word (derives : grammar.Derivable (.phrase .primary) free cursor found) {c : Char}
    (here : cursor.rest.head? = some c) (letter : isIdentStart c = true) :
    ∃ stop, Word cursor stop ∧ (stop = found.cursor ∨
      (grammar.skipBlanks free stop).rest.head? = some '(') := by
  obtain ⟨place, operand, listed, in_operand⟩ := derives_primary.mp derives
  have is_operand := List.mem_of_getElem? listed
  have starts_with (some_char : firsts.empty operand = false) : operand.starts c = true := by
    obtain ⟨first, also_here, starts⟩ := firsts.starts_of_derives some_char in_operand
    rw [here] at also_here
    cases also_here
    exact starts
  have letter_apart (other : Char) (never : isIdentStart other = false) : c ≠ other := by
    rintro rfl
    rw [letter] at never
    cases never
  simp only [operands, List.mem_cons, List.not_mem_nil, or_false] at is_operand
  rcases is_operand with rfl | rfl | rfl | rfl | rfl | rfl | rfl | rfl
  · exact absurd (by simpa [starts] using starts_with rfl) (letter_apart '(' rfl)
  · exact absurd (by simpa [starts] using starts_with rfl) (letter_apart '(' rfl)
  · obtain ⟨stop, word, parenthesis⟩ := call_word in_operand
    exact ⟨stop, word, .inr parenthesis⟩
  · exact ⟨found.cursor, nil_word in_operand, .inl rfl⟩
  · exact ⟨found.cursor, boolean_word in_operand, .inl rfl⟩
  · have not_letter := identStart_of_digit (starts_with rfl)
    rw [letter] at not_letter
    cases not_letter
  · have quoted : c = '\'' ∨ c = '"' := by simpa [starts] using starts_with rfl
    exact absurd quoted (not_or.mpr ⟨letter_apart '\'' rfl, letter_apart '"' rfl⟩)
  · exact absurd (by simpa [starts] using starts_with rfl) (letter_apart '$' rfl)

/-! ## Parentheses -/

theorem links_start {links : Found Phrase}
    (rounds : Rounds grammar ahead linkForm free cursor links) :
    ∃ c, cursor.rest.head? = some c ∧ isOperatorStart c = true := by
  obtain ⟨c, here, starts⟩ := rounds.mayStart firsts rfl rfl
  refine ⟨c, here, ?_⟩
  simpa [linkForm, Form.seqs, Form.mayStart, Form.mayBeEmpty, firsts, ranking, mayBeEmpty,
    Phrase.starts] using starts

/-- What follows an operand is a further operator, or what follows the expression. -/
theorem continued_of_links {start next : Cursor} {links : Found Phrase}
    (to_next : grammar.Blanks free start next)
    (derives : Derives grammar ahead (.many linkForm) free next links)
    (ends : Continued (grammar.skipBlanks free links.cursor)) :
    Continued (grammar.skipBlanks free start) := by
  rcases derives_many.mp derives with rfl | rounds
  · rwa [← to_next.skipBlanks_eq]
  · obtain ⟨c, here, operator⟩ := links_start rounds
    have place := to_next.eq_skipBlanks
      (Cursor.lacks_of_head here (operatorStart_apart operator).1)
    rw [← place]
    intro other at_head
    rw [here] at at_head
    cases at_head
    exact .inr operator

/-- An expression that starts with a letter starts with an operand. -/
theorem operand_of_letter {start place : Cursor} {prefixes : Found Phrase} {c d : Char}
    (derives : Derives grammar ahead (.many (.phrase .unaryOperator)) free cursor prefixes)
    (to_start : grammar.Blanks free prefixes.cursor start) (here : start.rest.head? = some d)
    (operand : isPrimaryStart d = true) (same : grammar.skipBlanks free cursor = place)
    (at_place : place.rest.head? = some c) (letter : isIdentStart c = true) : start = place := by
  have bare : start.Lacks grammar.blank :=
    Cursor.lacks_of_head here (primaryStart_apart operand).1
  rcases derives_many.mp derives with rfl | rounds
  · rw [to_start.eq_skipBlanks bare, same]
  · -- A prefix operator would be the first character, and no letter.
    obtain ⟨first, at_start, starts⟩ := rounds.mayStart firsts rfl rfl
    have still : grammar.skipBlanks free cursor = cursor :=
      skipBlanks_of_lacks free (Cursor.lacks_of_head at_start (prefixStart_apart starts).1)
    rw [← same, still, at_start] at at_place
    cases at_place
    have prefixed : isPrefixStart c = true := starts
    have is_operand : isPrimaryStart c = true := by simp [isPrimaryStart, letter]
    have other := (primaryStart_apart is_operand).2.1
    rw [prefixed] at other
    cases other

/-- Parentheses behind which a letter stands start with an operand there.  If no operator follows
the operand, they end behind it. -/
theorem grouped_operand {place : Cursor} {rest : List Char} {letter : Char}
    (derives : Derives grammar ahead (.phrase .grouped) free cursor found)
    (opens : cursor.rest = '(' :: rest)
    (to_place : grammar.Blanks free ⟨rest, cursor.offset + 1⟩ place)
    (at_place : place.rest.head? = some letter) (is_letter : isIdentStart letter = true) :
    ∃ operand, Derives grammar ahead (.phrase .primary) free place operand ∧
      Continued (grammar.skipBlanks free operand.cursor) ∧
      ((grammar.skipBlanks free operand.cursor).Lacks isOperatorStart →
        ∃ tail, (grammar.skipBlanks free operand.cursor).rest = ')' :: tail ∧
          found.cursor = ⟨tail, (grammar.skipBlanks free operand.cursor).offset + 1⟩) := by
  obtain ⟨outer, inner, closing, rest', tail, also_opens, to_outer, in_inner, to_closing, closes,
    rfl⟩ := grouped_parts derives
  obtain ⟨-, rfl⟩ := List.cons.inj (opens.symm.trans also_opens)
  obtain ⟨prefixes, start, operand, next, links, in_prefixes, to_start, in_operand, to_next,
    in_links, rfl⟩ := expression_parts in_inner
  rw [present_cursor] at to_closing ⊢
  have bare : place.Lacks grammar.blank := by
    have is_operand : isPrimaryStart letter = true := by simp [isPrimaryStart, is_letter]
    exact Cursor.lacks_of_head at_place (primaryStart_apart is_operand).1
  have same_place : grammar.skipBlanks free outer = place := by
    rw [to_outer.skipBlanks_eq, ← to_place.eq_skipBlanks bare]
  obtain ⟨first, at_start, is_operand⟩ := firsts.starts_of_derives rfl in_operand
  have start_eq := operand_of_letter in_prefixes to_start at_start is_operand same_place at_place
    is_letter
  subst start_eq
  have closing_eq := skipBlanks_of_text to_closing closes rfl
  refine ⟨operand, in_operand, continued_of_links to_next in_links ?_, fun no_operator => ?_⟩
  · rw [← closing_eq]
    exact Closed.continued (fun c here => by rw [closes] at here; cases here; rfl)
  · have no_links : links = ⟨[], next⟩ := by
      refine (derives_many.mp in_links).resolve_right fun rounds => ?_
      obtain ⟨c, at_next, operator⟩ := links_start rounds
      have next_eq := to_next.eq_skipBlanks
        (Cursor.lacks_of_head at_next (operatorStart_apart operator).1)
      rw [← next_eq] at no_operator
      rw [no_operator c at_next] at operator
      cases operator
    subst no_links
    rw [to_next.skipBlanks_eq] at closing_eq
    rw [← closing_eq]
    exact ⟨tail, closes, rfl⟩

/-- An expression in parentheses that is followed by an operator, or by the end of an expression, is
not found as a field of the record. -/
theorem take_sibling_eq_none (derives : grammar.Derivable (.phrase .grouped) free cursor found)
    (ends : Continued (grammar.skipBlanks free found.cursor)) :
    grammar.take .sibling free cursor = none := by
  cases taken : grammar.take .sibling free cursor with
  | none => rfl
  | some other =>
    obtain ⟨place, path, closing, last, rest, after, tail, opens, to_place, in_path, to_closing,
      closes, to_last, dollar, -⟩ := sibling_parts (derives_of_take taken)
    -- The path starts with a word, and so the expression does.
    obtain ⟨stop, word, stops⟩ := path_word in_path (names_end_of_text to_closing closes rfl)
    obtain ⟨letter, at_place, is_letter⟩ :
        ∃ c, place.rest.head? = some c ∧ isIdentStart c = true := by
      obtain ⟨first, run, starts, -, rest_eq, -⟩ := word
      exact ⟨first, by rw [rest_eq]; rfl, starts⟩
    obtain ⟨operand, in_operand, continued, group_ends⟩ :=
      grouped_operand derives opens to_place at_place is_letter
    obtain ⟨stop', word', stops'⟩ := primary_word in_operand at_place is_letter
    obtain rfl := word.unique word'
    rcases stops with rfl | ⟨step, at_stop, is_step⟩
    · -- The path is a single word, so the expression is that word too, and ends with it.
      have path_stops := skipBlanks_of_text to_closing closes rfl
      rw [← path_stops, closes] at stops'
      have same_end : path.cursor = operand.cursor := stops'.resolve_right (by simp)
      rw [← same_end, ← path_stops] at group_ends
      obtain ⟨tail', also_closes, group_end⟩ :=
        group_ends (Cursor.lacks_of_head (by rw [closes]; rfl) rfl)
      obtain ⟨-, rfl⟩ := List.cons.inj (closes.symm.trans also_closes)
      rw [group_end, ← skipBlanks_of_text to_last dollar rfl] at ends
      exact absurd (ends '$' (by rw [dollar]; rfl)) (by decide)
    · -- A step follows the word, and neither an operator nor a parenthesis.
      have apart : isBlank step = false ∧ step ≠ '(' ∧ isCloser step = false ∧
          isOperatorStart step = false := by
        simp only [isStepStart, Bool.or_eq_true, beq_iff_eq] at is_step
        rcases is_step with rfl | rfl <;> decide
      have still : grammar.skipBlanks free stop = stop :=
        skipBlanks_of_lacks free (Cursor.lacks_of_head at_stop apart.1)
      rw [still, at_stop] at stops'
      rcases stops' with rfl | parenthesis
      · rw [still] at continued
        have follows := continued step at_stop
        rw [apart.2.2.1, apart.2.2.2] at follows
        simp at follows
      · exact absurd (Option.some.inj parenthesis) apart.2.1

end Phrase

end Proviso
