/- # Proviso.Proofs.Clause.Expressions -- expressions are found as they are derived

An expression ends where `)`, `,` or `;` stands, or nothing.  By induction on the length of what is
left, the matcher finds every derivable expression there: an operand in parentheses or a call has
its inner expressions further on, and what stands behind an operand decides which operand it is. -/
import Proviso.Proofs.Clause.Operands

namespace Proviso

set_option autoImplicit false

namespace Phrase

open Grammar

variable {ahead : Form Phrase → Context → Cursor → Prop} {cursor : Cursor} {found : Found Phrase}

/-- Expressions with less than so many characters left are found as they are derived, from the first
character on that is no blank. -/
def ExpressionsFound (bound : Nat) : Prop :=
  ∀ cursor found, cursor.rest.length < bound →
    grammar.Derivable (.phrase .expression) free cursor found →
    Closed (grammar.skipBlanks free found.cursor) →
    grammar.Finds (.phrase .expression) free (grammar.skipBlanks free cursor) found

theorem ExpressionsFound.mono {bound bound' : Nat} (inner_found : ExpressionsFound bound)
    (le : bound' ≤ bound) : ExpressionsFound bound' :=
  fun cursor found shorter => inner_found cursor found (Nat.lt_of_lt_of_le shorter le)

/-! ## Operands -/

theorem finds_sibling (derives : grammar.Derivable (.phrase .sibling) free cursor found) :
    grammar.Finds (.phrase .sibling) free cursor found := by
  obtain ⟨start, path, closing, last, rest, after, tail, opens, to_start, in_path, to_closing,
    closes, to_last, dollar, rfl⟩ := sibling_parts derives
  obtain ⟨letter, at_start, starts⟩ := firsts.starts_of_derives rfl in_path
  have is_letter : isIdentStart letter = true := starts
  have is_operand : isPrimaryStart letter = true := by simp [isPrimaryStart, is_letter]
  have start_eq := to_start.eq_skipBlanks
    (Cursor.lacks_of_head at_start (primaryStart_apart is_operand).1)
  have closing_eq := skipBlanks_of_text to_closing closes rfl
  have last_eq := skipBlanks_of_text to_last dollar rfl
  have names_end := names_end_of_text to_closing closes rfl
  have steps_end : path.cursor.Lacks isStepStart := by
    refine to_closing.lacks (fun c blank => ?_) (Cursor.lacks_of_head (by rw [closes]; rfl) rfl)
    obtain ⟨-, -, no_dot, no_bracket⟩ := blank_apart blank
    simp only [isStepStart, no_dot, no_bracket, Bool.or_false]
  subst start_eq closing_eq last_eq
  have opening_found : grammar.Finds (literally "(") free cursor
      ⟨[], ⟨rest, cursor.offset + 1⟩⟩ := .text_of_rest ranking opens
  have closing_found := @Finds.text_of_rest _ grammar free _ ranking [')'] after closes
  have dollar_found := @Finds.text_of_rest _ grammar free _ ranking ['$'] tail dollar
  have path_found := finds_fieldPath in_path names_end steps_end
  exact .phrase ranking (opening_found.seq (path_found.seq (closing_found.seq dollar_found)))

theorem closed_of_text {c : Char} {rest : List Char} (here : cursor.rest = c :: rest)
    (closer : isCloser c = true) : Closed cursor := by
  intro other at_head
  rw [here] at at_head
  cases at_head
  exact closer

/-- Less is left behind a character and the blanks after it. -/
theorem shorter_of_text {start : Cursor} {c : Char} {rest : List Char} {offset : Nat}
    (here : cursor.rest = c :: rest) (blanks : grammar.Blanks free ⟨rest, offset⟩ start) :
    start.rest.length < cursor.rest.length := by
  have le := blanks.reaches.length_le
  rw [here]
  exact Nat.lt_succ_of_le le

theorem finds_grouped (inner_found : ExpressionsFound cursor.rest.length)
    (derives : grammar.Derivable (.phrase .grouped) free cursor found) :
    grammar.Finds (.phrase .grouped) free cursor found := by
  obtain ⟨start, inner, closing, rest, tail, opens, to_start, in_inner, to_closing, closes, rfl⟩ :=
    grouped_parts derives
  have shorter := shorter_of_text opens to_start
  have closing_eq := skipBlanks_of_text to_closing closes rfl
  subst closing_eq
  have expression_found := inner_found start inner shorter in_inner (closed_of_text closes rfl)
  rw [to_start.skipBlanks_eq] at expression_found
  have opening_found : grammar.Finds (literally "(") free cursor
      ⟨[], ⟨rest, cursor.offset + 1⟩⟩ := .text_of_rest ranking opens
  have closing_found := @Finds.text_of_rest _ grammar free _ ranking [')'] tail closes
  exact .phrase ranking (opening_found.seq (expression_found.seq closing_found))

def furtherArgument : Form Phrase := .seq (literally ",") (.phrase .expression)

theorem furtherArgument_starts
    (derives : Derives grammar ahead furtherArgument free cursor found) :
    ∃ rest, cursor.rest = ',' :: rest := by
  obtain ⟨comma, _, _, in_comma, -, -, -⟩ := derives_seq.mp derives
  obtain ⟨rest, here, -⟩ := derives_text.mp in_comma
  exact ⟨rest, here⟩

theorem finds_furtherArgument (inner_found : ExpressionsFound cursor.rest.length)
    (derives : grammar.Derivable furtherArgument free cursor found)
    (ends : Closed (grammar.skipBlanks free found.cursor)) :
    grammar.Finds furtherArgument free cursor found := by
  obtain ⟨comma, start, argument, in_comma, to_start, in_argument, rfl⟩ := derives_seq.mp derives
  obtain ⟨rest, here, rfl⟩ := derives_text.mp in_comma
  have shorter := shorter_of_text here to_start
  have argument_found := inner_found start argument shorter in_argument ends
  rw [to_start.skipBlanks_eq] at argument_found
  exact .seq (.text ranking in_comma) argument_found

/-- Further arguments are found up to the parenthesis that ends them. -/
theorem finds_furtherArguments {bound : Nat} {start : Cursor} {tail : List Char}
    (inner_found : ExpressionsFound bound) (to_cursor : grammar.Blanks free start cursor)
    (within : cursor.rest.length ≤ bound)
    (derives : grammar.Derivable (.many furtherArgument) free cursor found)
    (closes : (grammar.skipBlanks free found.cursor).rest = ')' :: tail) :
    Closed (grammar.skipBlanks free start) ∧
      ∃ other, grammar.Finds (.many furtherArgument) free (grammar.skipBlanks free start) other ∧
        other.trees = found.trees ∧
        grammar.skipBlanks free other.cursor = grammar.skipBlanks free found.cursor := by
  have no_comma : grammar.taken furtherArgument free (grammar.skipBlanks free found.cursor) =
      none := by
    refine taken_seq_eq_none (taken_text_eq_none fun c here => ?_)
    rw [closes] at here
    cases here
    decide
  have again (cursor : Cursor) (found : Found Phrase)
      (derives : grammar.Derivable furtherArgument free cursor found) :
      Closed cursor ∧ grammar.skipBlanks free cursor = cursor := by
    obtain ⟨rest, here⟩ := furtherArgument_starts derives
    exact ⟨closed_of_text here rfl,
      skipBlanks_of_lacks free (Cursor.lacks_of_head (by rw [here]; rfl) rfl)⟩
  exact Finds.many_free ranking rfl
    (fun _ _ within derives ends => finds_furtherArgument (inner_found.mono within) derives ends)
    again to_cursor within derives (closed_of_text closes rfl) no_comma

/-- The arguments of a call are found from the first character on that is no blank. -/
theorem finds_arguments {start : Cursor} {tail : List Char}
    (inner_found : ExpressionsFound (start.rest.length + 1))
    (to_cursor : grammar.Blanks free start cursor)
    (derives : grammar.Derivable argumentsForm free cursor found)
    (closes : (grammar.skipBlanks free found.cursor).rest = ')' :: tail) :
    ∃ other, grammar.Finds argumentsForm free (grammar.skipBlanks free start) other ∧
      other.trees = found.trees ∧
      grammar.skipBlanks free other.cursor = grammar.skipBlanks free found.cursor := by
  have cursor_le := to_cursor.reaches.length_le
  rcases derives_optional.mp derives with given | rfl
  · obtain ⟨first, middle, more, in_first, to_middle, in_more, rfl⟩ := derives_seq.mp given
    have first_le := (in_first.advances ranking).1.length_le
    have middle_le := to_middle.reaches.length_le
    obtain ⟨first_ends, others, others_found, trees, ends⟩ :=
      finds_furtherArguments inner_found to_middle (by omega) in_more closes
    have first_found := inner_found cursor first (by omega) in_first first_ends
    rw [to_cursor.skipBlanks_eq] at first_found
    exact ⟨_, .optional_given (first_found.seq others_found), by rw [trees], ends⟩
  · rw [to_cursor.skipBlanks_eq] at closes ⊢
    have no_expression : grammar.taken (.phrase .expression) free (grammar.skipBlanks free start) =
        none := firsts.take_eq_none rfl (Cursor.lacks_of_head (by rw [closes]; rfl) rfl)
    exact ⟨_, .optional_omitted (taken_seq_eq_none no_expression), rfl,
      (blanks_skipBlanks free start).skipBlanks_eq⟩

theorem finds_call (inner_found : ExpressionsFound cursor.rest.length)
    (derives : grammar.Derivable (.phrase .call) free cursor found) :
    grammar.Finds (.phrase .call) free cursor found := by
  obtain ⟨name, opening, arguments, closing, rest, tail, in_name, to_opening, opens,
    ⟨start, to_start, in_arguments⟩, to_closing, closes, rfl⟩ := call_parts derives
  have name_found := finds_ident in_name (names_end_of_text to_opening opens rfl)
  have name_takes := (in_name.advances ranking).2 rfl
  have opening_le := to_opening.reaches.length_le
  have opening_eq := skipBlanks_of_text to_opening opens rfl
  have closing_eq := skipBlanks_of_text to_closing closes rfl
  have shorter : rest.length + 1 ≤ cursor.rest.length := by
    rw [opens] at opening_le
    exact Nat.le_trans opening_le (Nat.le_of_lt name_takes)
  subst opening_eq closing_eq
  obtain ⟨other, arguments_found, trees, ends⟩ :=
    finds_arguments (inner_found.mono shorter) to_start in_arguments closes
  have opening_found := @Finds.text_of_rest _ grammar free _ ranking ['('] rest opens
  have closing_found := @Finds.text_of_rest _ grammar free _ ranking [')'] tail closes
  rw [← ends] at closing_found
  rw [← ends, ← trees]
  exact .phrase ranking (name_found.seq (opening_found.seq (arguments_found.seq closing_found)))

/-! ## Which operand is tried first -/

/-- Operands of one kind start with the same characters. -/
def operandKind : Phrase → Nat
  | .sibling | .grouped => 0
  | .call | .nil | .boolean => 1
  | .number => 2
  | .string => 3
  | _ => 4

/-- The kind of the operands that start with the character. -/
def charKind (c : Char) : Nat :=
  if c = '(' then 0
  else if isIdentStart c then 1
  else if c.isDigit then 2
  else if c = '\'' ∨ c = '"' then 3
  else 4

theorem charKind_of_starts {operand : Phrase} (is_operand : operand ∈ operands) {c : Char}
    (starts : operand.starts c = true) : charKind c = operandKind operand := by
  have letter_kind {c : Char} (letter : isIdentStart c = true) : charKind c = 1 := by
    have other : c ≠ '(' := by
      rintro rfl
      cases letter
    simp [charKind, other, letter]
  have digit_kind {c : Char} (digit : c.isDigit = true) : charKind c = 2 := by
    have other : c ≠ '(' := by
      rintro rfl
      cases digit
    simp [charKind, other, identStart_of_digit digit, digit]
  simp only [operands, List.mem_cons, List.not_mem_nil, or_false] at is_operand
  rcases is_operand with rfl | rfl | rfl | rfl | rfl | rfl | rfl | rfl <;>
    simp only [Phrase.starts, Bool.or_eq_true, beq_iff_eq] at starts
  · rw [starts]; rfl
  · rw [starts]; rfl
  · exact letter_kind starts
  · rw [starts]; rfl
  · rcases starts with rfl | rfl <;> rfl
  · exact digit_kind starts
  · rcases starts with rfl | rfl <;> rfl
  · rw [starts]; rfl

/-- The operands of one kind that are tried before others. -/
def closeOperands : List (Phrase × Phrase) :=
  [(.sibling, .grouped), (.call, .nil), (.call, .boolean), (.nil, .boolean)]

/-- An operand that is tried before another one is of another kind, or close to it. -/
theorem operands_apart : ∀ place < 8, ∀ earlier < place, ∀ operand ∈ operands[place]?,
    ∀ other ∈ operands[earlier]?, operandKind operand ≠ operandKind other ∨
      closeOperands.contains (other, operand) = true := by
  decide

theorem operand_not_empty : ∀ operand ∈ operands, operand.mayBeEmpty = false := by
  decide

/-- Where an operand is derivable and ends as operands do, those that are tried before it take
nothing. -/
theorem take_earlier_eq_none {place earlier : Nat} {operand other : Phrase}
    (listed : operands[place]? = some operand) (before : earlier < place)
    (other_listed : operands[earlier]? = some other)
    (derives : grammar.Derivable (.phrase operand) free cursor found)
    (ends : Continued (grammar.skipBlanks free found.cursor)) :
    grammar.take other free cursor = none := by
  have is_operand := List.mem_of_getElem? listed
  have also_operand := List.mem_of_getElem? other_listed
  have inside_list : place < 8 := (List.getElem?_eq_some_iff.mp listed).1
  have no_parenthesis : (grammar.skipBlanks free found.cursor).rest.head? ≠ some '(' := by
    intro parenthesis
    exact absurd (ends '(' parenthesis) (by decide)
  obtain ⟨c, here, starts⟩ :=
    firsts.starts_of_derives (operand_not_empty operand is_operand) derives
  rcases operands_apart place inside_list earlier before operand listed other other_listed with
    apart | close
  · refine firsts.take_eq_none (operand_not_empty other also_operand)
      (Cursor.lacks_of_head here ?_)
    rw [Bool.eq_false_iff]
    intro also_starts
    have kind := charKind_of_starts is_operand starts
    exact apart (kind.symm.trans (charKind_of_starts also_operand also_starts))
  · simp only [closeOperands, List.contains_eq_mem, List.mem_cons, List.not_mem_nil, or_false,
      Prod.mk.injEq, decide_eq_true_eq] at close
    rcases close with ⟨rfl, rfl⟩ | ⟨rfl, rfl⟩ | ⟨rfl, rfl⟩ | ⟨rfl, rfl⟩
    · exact take_sibling_eq_none derives ends
    · exact take_call_eq_none (nil_word derives) no_parenthesis
    · exact take_call_eq_none (boolean_word derives) no_parenthesis
    · have word_starts : c = 't' ∨ c = 'f' := by
        simpa using (show (c == 't' || c == 'f') = true from starts)
      refine firsts.take_eq_none rfl (Cursor.lacks_of_head here ?_)
      rcases word_starts with rfl | rfl <;> rfl

theorem finds_operand (inner_found : ExpressionsFound cursor.rest.length) {operand : Phrase}
    (is_operand : operand ∈ operands)
    (derives : grammar.Derivable (.phrase operand) free cursor found)
    (ends : Continued (grammar.skipBlanks free found.cursor)) :
    grammar.Finds (.phrase operand) free cursor found := by
  simp only [operands, List.mem_cons, List.not_mem_nil, or_false] at is_operand
  rcases is_operand with rfl | rfl | rfl | rfl | rfl | rfl | rfl | rfl
  · exact finds_sibling derives
  · exact finds_grouped inner_found derives
  · exact finds_call inner_found derives
  · exact finds_nil derives
  · exact finds_boolean derives
  · exact finds_number derives ends.bounded
  · exact finds_string derives
  · exact finds_current derives

theorem finds_primary (inner_found : ExpressionsFound cursor.rest.length)
    (derives : grammar.Derivable (.phrase .primary) free cursor found)
    (ends : Continued (grammar.skipBlanks free found.cursor)) :
    grammar.Finds (.phrase .primary) free cursor found := by
  obtain ⟨place, operand, listed, in_operand⟩ := derives_primary.mp derives
  have operand_found := finds_operand inner_found (List.mem_of_getElem? listed) in_operand ends
  have form_listed : (operands.map Form.phrase)[place]? = some (.phrase operand) := by
    rw [List.getElem?_map, listed]
    rfl
  refine .silent ranking rfl (.choices form_listed ?_ operand_found)
  intro earlier before other other_listed
  rw [List.getElem?_map, Option.map_eq_some_iff] at other_listed
  obtain ⟨other, other_listed, rfl⟩ := other_listed
  exact take_earlier_eq_none listed before other_listed in_operand ends

/-! ## Operators and their operands -/

/-- Before an operand and its prefix operators nothing stands that makes an operator longer. -/
theorem lacks_equals {prefixes : Found Phrase} {start : Cursor} {c : Char}
    (derives : Derives grammar ahead (.many (.phrase .unaryOperator)) free cursor prefixes)
    (to_start : grammar.Blanks free prefixes.cursor start) (here : start.rest.head? = some c)
    (operand : isPrimaryStart c = true) : cursor.Lacks (· == '=') := by
  rcases derives_many.mp derives with rfl | rounds
  · exact to_start.lacks (fun c blank => (blank_apart blank).2.1)
      (Cursor.lacks_of_head here (primaryStart_apart operand).2.2.1)
  · obtain ⟨first, at_start, starts⟩ := rounds.mayStart firsts rfl rfl
    exact Cursor.lacks_of_head at_start (prefixStart_apart starts).2.1

theorem finds_link (inner_found : ExpressionsFound cursor.rest.length)
    (derives : grammar.Derivable linkForm free cursor found)
    (ends : Continued (grammar.skipBlanks free found.cursor)) :
    grammar.Finds linkForm free cursor found := by
  obtain ⟨op, middle, _, in_op, to_middle, in_rest, rfl⟩ := derives_seq.mp derives
  obtain ⟨prefixes, start, operand, in_prefixes, to_start, in_operand, rfl⟩ :=
    derives_seq.mp in_rest
  obtain ⟨c, here, starts⟩ := firsts.starts_of_derives rfl in_operand
  have op_ends : op.cursor.Lacks (· == '=') :=
    to_middle.lacks (fun c blank => (blank_apart blank).2.1)
      (lacks_equals in_prefixes to_start here starts)
  obtain ⟨others, prefixes_found, trees, arrives⟩ :=
    finds_prefixes to_middle in_prefixes to_start here starts
  have start_le : start.rest.length ≤ cursor.rest.length := by
    have op_le := (in_op.advances ranking).1.length_le
    have middle_le := to_middle.reaches.length_le
    have prefixes_le := (in_prefixes.advances ranking).1.length_le
    have blanks_le := to_start.reaches.length_le
    omega
  have operand_found := finds_primary (inner_found.mono start_le) in_operand ends
  rw [← arrives] at operand_found
  rw [← trees]
  exact (finds_binaryOperator in_op op_ends).seq (prefixes_found.seq operand_found)

theorem taken_link_eq_none (ends : Closed cursor) :
    grammar.taken linkForm free cursor = none := by
  refine taken_seq_eq_none (firsts.take_eq_none rfl fun c here => ?_)
  show isOperatorStart c = false
  rw [Bool.eq_false_iff]
  intro operator
  have closer := ends c here
  rw [(operatorStart_apart operator).2] at closer
  cases closer

/-- Further operators and operands are found up to the end of the expression. -/
theorem finds_links {bound : Nat} {start : Cursor} (inner_found : ExpressionsFound bound)
    (to_cursor : grammar.Blanks free start cursor) (within : cursor.rest.length ≤ bound)
    (derives : grammar.Derivable (.many linkForm) free cursor found)
    (ends : Closed (grammar.skipBlanks free found.cursor)) :
    Continued (grammar.skipBlanks free start) ∧
      ∃ other, grammar.Finds (.many linkForm) free (grammar.skipBlanks free start) other ∧
        other.trees = found.trees ∧
        grammar.skipBlanks free other.cursor = grammar.skipBlanks free found.cursor := by
  have again (cursor : Cursor) (found : Found Phrase)
      (derives : grammar.Derivable linkForm free cursor found) :
      Continued cursor ∧ grammar.skipBlanks free cursor = cursor := by
    obtain ⟨first, at_start, operator⟩ := links_start (.last derives)
    refine ⟨fun other at_head => ?_, skipBlanks_of_lacks free
      (Cursor.lacks_of_head at_start (operatorStart_apart operator).1)⟩
    rw [at_start] at at_head
    cases at_head
    exact .inr operator
  exact Finds.many_free ranking rfl
    (fun _ _ within derives ends => finds_link (inner_found.mono within) derives ends)
    again to_cursor within derives ends.continued (taken_link_eq_none ends)

/-- An expression is found from the first character on that is no blank. -/
theorem finds_expression_of (inner_found : ExpressionsFound cursor.rest.length)
    (derives : grammar.Derivable (.phrase .expression) free cursor found)
    (ends : Closed (grammar.skipBlanks free found.cursor)) :
    grammar.Finds (.phrase .expression) free (grammar.skipBlanks free cursor) found := by
  obtain ⟨prefixes, start, operand, next, links, in_prefixes, to_start, in_operand, to_next,
    in_links, rfl⟩ := expression_parts derives
  rw [present_cursor] at ends
  obtain ⟨c, here, starts⟩ := firsts.starts_of_derives rfl in_operand
  obtain ⟨to_operand, takes⟩ := in_operand.advances ranking
  have start_le : start.rest.length ≤ cursor.rest.length :=
    Nat.le_trans to_start.reaches.length_le (in_prefixes.advances ranking).1.length_le
  have next_le : next.rest.length ≤ cursor.rest.length :=
    Nat.le_trans to_next.reaches.length_le (Nat.le_trans to_operand.length_le start_le)
  -- The prefix operators, the operand and the further operands, each up to blanks.
  obtain ⟨others, prefixes_found, prefix_trees, arrives⟩ :=
    finds_prefixes (blanks_refl free cursor) in_prefixes to_start here starts
  obtain ⟨continued, more, links_found, link_trees, links_end⟩ :=
    finds_links inner_found to_next next_le in_links ends
  have operand_found := finds_primary (inner_found.mono start_le) in_operand continued
  have rest_found := operand_found.seq links_found
  rw [← arrives] at rest_found
  have parts_found := prefixes_found.seq rest_found
  rw [prefix_trees, link_trees] at parts_found
  have to_place : (grammar.skipBlanks free cursor).Reaches start := by
    rw [← arrives]
    exact prefixes_found.reaches.trans (grammar.reaches_skipBlanks free others.cursor)
  have to_links := to_next.reaches.trans (in_links.advances ranking).1
  have reaches := to_place.trans (to_operand.trans to_links)
  have shorter : links.cursor.rest.length < (grammar.skipBlanks free cursor).rest.length :=
    Nat.lt_of_le_of_lt to_links.length_le (Nat.lt_of_lt_of_le (takes rfl) to_place.length_le)
  have form_found : grammar.Finds (grammar.form .expression) (grammar.inside .expression free)
      (grammar.skipBlanks free cursor)
      ⟨prefixes.trees ++ (operand.trees ++ links.trees), links.cursor⟩ :=
    parts_found.near reaches links_end rfl
  refine (Finds.phrase ranking form_found).near ?_ rfl ?_
  · rwa [present_cursor]
  · exact trimTrees_present_of_blanks rfl (blanks_skipBlanks free cursor) reaches
      (lacks_skipBlanks rfl cursor) shorter

/-- Every expression that ends as expressions do is found as it is derived. -/
theorem expressions_found (bound : Nat) : ExpressionsFound bound := by
  induction bound with
  | zero => exact fun cursor found never => absurd never (Nat.not_lt_zero _)
  | succ bound ih =>
    intro cursor found shorter derives ends
    exact finds_expression_of (ih.mono (Nat.le_of_lt_succ shorter)) derives ends

end Phrase

end Proviso
