/- # Proviso.Proofs.Clause.Complete -- every derivable clause is found

A clause is all of a text, and its expressions end at a semicolon or with the text.  So the matcher
finds every derivable clause, and finds the tree of the derivation, up to blanks. -/
import Proviso.Clause.Parse
import Proviso.Proofs.Clause.Expressions

namespace Proviso

set_option autoImplicit false

namespace Phrase

open Grammar

variable {ahead : Form Phrase → Context → Cursor → Prop} {cursor : Cursor} {found : Found Phrase}

/-! ## Parts -/

theorem clause_parts (derives : Derives grammar ahead (.phrase .clause) free cursor found) :
    ∃ start inner last ending, cursor.offset = 0 ∧ grammar.Blanks free cursor start ∧
      (Derives grammar ahead (.phrase .extended) free start inner ∨
        Derives grammar ahead (.phrase .expression) free start inner) ∧
      grammar.Blanks free inner.cursor last ∧ last.rest = [] ∧
      Derives grammar ahead (.phrase .endOfInput) free last ending ∧
      found = grammar.present .clause free cursor
        ⟨[] ++ (inner.trees ++ ending.trees), ending.cursor⟩ := by
  obtain ⟨whole, in_form, rfl⟩ := derives_phrase.mp derives
  obtain ⟨_, start, _, in_start, to_start, in_body, rfl⟩ := derives_seq.mp in_form
  obtain ⟨inner, last, ending, in_inner, to_last, in_ending, rfl⟩ := derives_seq.mp in_body
  obtain ⟨nothing, at_end, -⟩ := derives_phrase.mp in_ending
  cases in_start with
  | startOfInput first =>
    cases at_end with
    | endOfInput is_last =>
      exact ⟨start, inner, last, ending, first, to_start, derives_choice.mp in_inner, to_last,
        is_last, in_ending, rfl⟩

def lastSemicolon : Form Phrase := .optional (literally ";")

theorem extended_parts (derives : Derives grammar ahead (.phrase .extended) free cursor found) :
    ∃ ruleStart rule semicolon messageMark messageStart message close last rest after tail,
      cursor.rest = "@:".toList ++ rest ∧
      grammar.Blanks free ⟨rest, cursor.offset + 2⟩ ruleStart ∧
      Derives grammar ahead (.phrase .expression) free ruleStart rule ∧
      grammar.Blanks free rule.cursor semicolon ∧ semicolon.rest = ';' :: after ∧
      grammar.Blanks free ⟨after, semicolon.offset + 1⟩ messageMark ∧
      messageMark.rest = "msg:".toList ++ tail ∧
      grammar.Blanks free ⟨tail, messageMark.offset + 4⟩ messageStart ∧
      Derives grammar ahead (.phrase .expression) free messageStart message ∧
      grammar.Blanks free message.cursor close ∧
      Derives grammar ahead lastSemicolon free close last ∧
      found = grammar.present .extended free cursor
        ⟨[] ++ (rule.trees ++ ([] ++ ([] ++ (message.trees ++ last.trees)))), last.cursor⟩ := by
  obtain ⟨whole, in_form, rfl⟩ := derives_phrase.mp derives
  obtain ⟨_, ruleStart, _, in_mark, to_rule, in_body, rfl⟩ := derives_seq.mp in_form
  obtain ⟨rest, mark, rfl⟩ := derives_text.mp in_mark
  obtain ⟨rule, semicolon, _, in_rule, to_semicolon, in_tail, rfl⟩ := derives_seq.mp in_body
  obtain ⟨_, messageMark, _, in_semicolon, to_mark, in_message, rfl⟩ := derives_seq.mp in_tail
  obtain ⟨after, ends, rfl⟩ := derives_text.mp in_semicolon
  obtain ⟨_, messageStart, _, in_word, to_message, in_text, rfl⟩ := derives_seq.mp in_message
  obtain ⟨tail, word, rfl⟩ := derives_text.mp in_word
  obtain ⟨message, close, last, in_expression, to_close, in_last, rfl⟩ := derives_seq.mp in_text
  exact ⟨ruleStart, rule, semicolon, messageMark, messageStart, message, close, last, rest, after,
    tail, mark, to_rule, in_rule, to_semicolon, ends, to_mark, word, to_message, in_expression,
    to_close, in_last, rfl⟩

/-! ## Clauses -/

/-- No clause starts like an expression and with the mark of a rule with a message. -/
theorem take_extended_eq_none (bare : cursor.Lacks grammar.blank)
    (finds : grammar.Finds (.phrase .expression) free cursor found) :
    grammar.take .extended free cursor = none := by
  obtain ⟨-, other, taken, -⟩ := finds
  obtain ⟨c, here, starts⟩ := firsts.starts_of_derives rfl (derives_of_take taken)
  refine firsts.take_eq_none rfl (Cursor.lacks_of_head here ?_)
  have not_blank : isBlank c = false := bare c here
  have starts_expression : (isPrefixStart c || isPrimaryStart c || isBlank c) = true := starts
  simp only [not_blank, Bool.or_false, Bool.or_eq_true] at starts_expression
  rcases starts_expression with prefixed | operand
  · exact (prefixStart_apart prefixed).2.2
  · exact (primaryStart_apart operand).2.2.2

theorem closed_of_end (last : cursor.rest = []) : Closed cursor := by
  intro c here
  rw [last] at here
  cases here

theorem skipBlanks_of_end {start last : Cursor} (blanks : grammar.Blanks free start last)
    (is_last : last.rest = []) : last = grammar.skipBlanks free start := by
  refine blanks.eq_skipBlanks fun c here => ?_
  rw [is_last] at here
  cases here

/-- The last semicolon is found if it is there, up to blanks. -/
theorem finds_lastSemicolon {start last : Cursor}
    (to_cursor : grammar.Blanks free start cursor)
    (derives : grammar.Derivable lastSemicolon free cursor found)
    (to_last : grammar.Blanks free found.cursor last) (is_last : last.rest = []) :
    Closed (grammar.skipBlanks free start) ∧
      ∃ other, grammar.Finds lastSemicolon free (grammar.skipBlanks free start) other ∧
        other.trees = found.trees ∧
        grammar.skipBlanks free other.cursor = grammar.skipBlanks free found.cursor := by
  rcases derives_optional.mp derives with given | rfl
  · obtain ⟨rest, here, rfl⟩ := derives_text.mp given
    have place := skipBlanks_of_text to_cursor here rfl
    rw [← place]
    exact ⟨closed_of_text here rfl, _, .optional_given (.text ranking given), rfl, rfl⟩
  · have place := skipBlanks_of_end to_last is_last
    rw [to_cursor.skipBlanks_eq] at place ⊢
    have no_semicolon : grammar.taken (literally ";") free (grammar.skipBlanks free start) =
        none := by
      refine taken_text_eq_none fun c here => ?_
      rw [← place, is_last] at here
      cases here
    rw [← place] at no_semicolon ⊢
    refine ⟨closed_of_end is_last, _, .optional_omitted no_semicolon, rfl, ?_⟩
    exact (skipBlanks_of_end (blanks_refl free last) is_last).symm

theorem finds_extended {last : Cursor}
    (derives : grammar.Derivable (.phrase .extended) free cursor found)
    (to_last : grammar.Blanks free found.cursor last) (is_last : last.rest = []) :
    grammar.Finds (.phrase .extended) free cursor found := by
  have reaches := (derives.advances ranking).1
  obtain ⟨ruleStart, rule, semicolon, messageMark, messageStart, message, close, ending, rest,
    after, tail, mark, to_rule, in_rule, to_semicolon, ends, to_mark, word, to_message, in_message,
    to_close, in_ending, rfl⟩ := extended_parts derives
  rw [present_cursor] at to_last reaches
  have semicolon_eq := skipBlanks_of_text to_semicolon ends rfl
  have mark_eq := skipBlanks_of_text to_mark word rfl
  subst semicolon_eq mark_eq
  obtain ⟨message_ends, other, ending_found, ending_trees, near⟩ :=
    finds_lastSemicolon to_close in_ending to_last is_last
  have rule_found := expressions_found _ ruleStart rule (Nat.lt_succ_self _) in_rule
    (closed_of_text ends rfl)
  have message_found := expressions_found _ messageStart message (Nat.lt_succ_self _) in_message
    message_ends
  rw [to_rule.skipBlanks_eq] at rule_found
  rw [to_message.skipBlanks_eq] at message_found
  have mark_found := @Finds.text_of_rest _ grammar free _ ranking "@:".toList rest mark
  have semicolon_found := @Finds.text_of_rest _ grammar free _ ranking [';'] after ends
  have word_found := @Finds.text_of_rest _ grammar free _ ranking "msg:".toList tail word
  have parts_found := mark_found.seq (rule_found.seq (semicolon_found.seq
    (word_found.seq (message_found.seq ending_found))))
  rw [ending_trees] at parts_found
  have form_found : grammar.Finds (grammar.form .extended) (grammar.inside .extended free) cursor
      ⟨[] ++ (rule.trees ++ ([] ++ ([] ++ (message.trees ++ ending.trees)))), ending.cursor⟩ :=
    parts_found.near reaches near rfl
  exact .phrase ranking form_found

/-- The matcher finds every derivable clause, and its tree up to blanks. -/
theorem finds_clause (derives : grammar.Derivable (.phrase .clause) free cursor found) :
    grammar.Finds (.phrase .clause) free cursor found := by
  obtain ⟨start, inner, last, ending, first, to_start, in_inner, to_last, is_last, in_ending,
    rfl⟩ := clause_parts derives
  have place_eq := skipBlanks_of_end to_last is_last
  have inner_found : grammar.Finds (.choice (.phrase .extended) (.phrase .expression)) free
      (grammar.skipBlanks free cursor) inner := by
    rcases in_inner with extended | expression
    · obtain ⟨c, here, mark⟩ := firsts.starts_of_derives rfl extended
      have is_mark : c = '@' := beq_iff_eq.mp mark
      subst is_mark
      rw [← to_start.eq_skipBlanks (Cursor.lacks_of_head here rfl)]
      exact .choice_first (finds_extended extended to_last is_last)
    · have ends : Closed (grammar.skipBlanks free inner.cursor) := by
        rw [← place_eq]
        exact closed_of_end is_last
      have expression_found := expressions_found _ start inner (Nat.lt_succ_self _) expression ends
      rw [to_start.skipBlanks_eq] at expression_found
      exact .choice_second
        (take_extended_eq_none (lacks_skipBlanks rfl cursor) expression_found) expression_found
  have start_found : grammar.Finds .startOfInput free cursor ⟨[], cursor⟩ :=
    .startOfInput ranking (.startOfInput first : grammar.Derivable _ _ _ _)
  have ending_found : grammar.Finds (.phrase .endOfInput) free last ending := by
    obtain ⟨nothing, at_end, rfl⟩ := derives_phrase.mp in_ending
    exact .phrase ranking (.endOfInput ranking at_end)
  rw [place_eq] at ending_found
  exact .phrase ranking (start_found.seq (inner_found.seq ending_found))

/-! ## Texts -/

/-- The trees of a text are those that its phrase takes at the start. -/
theorem parse_eq_ok_iff {phrase : Phrase} {source : String} {trees : List (Tree Phrase)} :
    phrase.parse source = .ok trees ↔
      ∃ last, grammar.take phrase free ⟨source.toList, 0⟩ = some ⟨trees, last⟩ := by
  rw [← show (grammar.read phrase source.toList).1 = grammar.take phrase free ⟨source.toList, 0⟩
    from read_fst phrase source.toList, Phrase.parse]
  rcases grammar.read phrase source.toList with ⟨_ | ⟨others, last⟩, failures⟩
  · simp
  · simp

end Phrase

end Proviso
