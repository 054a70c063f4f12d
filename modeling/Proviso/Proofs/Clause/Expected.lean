/- # Proviso.Proofs.Clause.Expected -- what a syntax error says is expected

A syntax error names kinds of text that could have stood where the match failed.  They stand for the
phrases that the matcher sought there in vain, so a text of each kind can follow there, but for one
exception: behind a step of a path, an expression is said to be expected, and only a further step or
the end of the parentheses can follow (`clause_behind_index`). -/
import Proviso.Proofs.Clause.FailurePlace
import Proviso.Proofs.Clause.Following

namespace Proviso

set_option autoImplicit false

namespace Phrase

open Grammar

/-! ## Behind an index -/

/-- Behind blanks, one of the characters stands. -/
def BlanksBefore (kind : Char → Bool) (text : List Char) : Prop :=
  ∃ gap c rest, (∀ blank ∈ gap, isBlank blank = true) ∧ kind c = true ∧ text = gap ++ c :: rest

theorem BlanksBefore.head_eq {kind other : Char → Bool} {text : List Char}
    (before : BlanksBefore kind text) (also : BlanksBefore other text)
    (visible : ∀ c, kind c = true → isBlank c = false)
    (also_visible : ∀ c, other c = true → isBlank c = false) :
    ∃ c, kind c = true ∧ other c = true := by
  obtain ⟨gap, c, rest, all_blank, is_kind, rfl⟩ := before
  obtain ⟨gap', c', rest', all_blank', is_other, same⟩ := also
  have dropped := congrArg (List.dropWhile isBlank) same
  rw [List.dropWhile_append_of_pos all_blank, List.dropWhile_append_of_pos all_blank',
    List.dropWhile_cons_of_neg (by simp [visible c is_kind]),
    List.dropWhile_cons_of_neg (by simp [also_visible c' is_other])] at dropped
  cases dropped
  exact ⟨c, is_kind, is_other⟩

theorem stays_of_visible {context : Context} {start stop : Cursor} {c : Char} {rest : List Char}
    (blanks : grammar.Blanks context start stop) (here : start.rest = c :: rest)
    (visible : isBlank c = false) : stop = start := by
  by_cases some_blank : stop.rest.length < start.rest.length
  · obtain ⟨other, at_start, is_blank⟩ := blanks.head some_blank
    rw [here] at at_start
    cases at_start
    exact absurd is_blank (Bool.eq_false_iff.mp visible)
  · exact blanks.reaches.eq_of_not_lt some_blank

/-- An expression starts with a prefix operator or an operand, blanks aside. -/
theorem blanksBefore_of_expression {text : List Char} (spelled : Phrase.expression.Spelled text) :
    BlanksBefore (fun c => isPrefixStart c || isPrimaryStart c) text := by
  obtain ⟨found, derives, -⟩ := spelled
  rw [Phrase.Derivable, String.toList_ofList] at derives
  obtain ⟨prefixes, start, operand, next, links, in_prefixes, to_start, in_operand, -⟩ :=
    expression_parts derives
  rcases derives_many.mp in_prefixes with rfl | rounds
  · obtain ⟨c, here, starts⟩ := firsts.starts_of_derives rfl in_operand
    obtain ⟨gap, all_blank, rest, -⟩ := to_start
    obtain ⟨tail, start_eq⟩ := List.head?_eq_some_iff.mp here
    have is_operand : isPrimaryStart c = true := starts
    exact ⟨gap, c, tail, all_blank, by simp [is_operand], by rw [← start_eq]; exact rest⟩
  · obtain ⟨c, here, starts⟩ := rounds.mayStart firsts rfl rfl
    obtain ⟨tail, text_eq⟩ := List.head?_eq_some_iff.mp here
    have leads : isPrefixStart c = true := starts
    exact ⟨[], c, tail, List.forall_mem_nil _, by simp [leads], text_eq⟩

/-- The characters that can follow a path: a step, or the end of the parentheses. -/
def followsPath (c : Char) : Bool := c == ')' || isStepStart c

theorem followsPath_apart {c : Char} (follows : followsPath c = true) :
    isBlank c = false ∧ (isPrefixStart c || isPrimaryStart c) = false := by
  simp only [followsPath, isStepStart, Bool.or_eq_true, beq_iff_eq] at follows
  rcases follows with rfl | rfl | rfl <;> decide

section

variable {context : Context} {cursor : Cursor} {found : Found Phrase} {tail : List Char}

/-- A name of one character that no name goes on behind. -/
theorem ident_single {first next : Char}
    (derives : grammar.Derivable (.phrase .ident) context cursor found)
    (here : cursor.rest = first :: next :: tail) (ends : isIdentChar next = false) :
    found.cursor.rest = next :: tail := by
  obtain ⟨initial, run, -, continues, rest⟩ := ident_shape derives
  rw [here] at rest
  cases run with
  | nil => exact (List.cons.inj rest).2.symm
  | cons c run =>
    have same := (List.cons.inj (List.cons.inj rest).2).1
    rw [same, continues c (.head _)] at ends
    cases ends

theorem indexAccess_single {digit : Char}
    (derives : grammar.Derivable (.phrase .indexAccess) context cursor found)
    (here : cursor.rest = '[' :: digit :: ']' :: tail) : found.cursor.rest = tail := by
  obtain ⟨inner, in_form, rfl⟩ := derives_phrase.mp derives
  have bound := indexAccess_bound context
  obtain ⟨opening, rest, in_opening, in_rest, rfl⟩ := derives_seq_bound bound in_form
  obtain ⟨index, closing, in_index, in_closing, rfl⟩ := derives_seq_bound bound in_rest
  obtain ⟨after, opens, rfl⟩ := derives_text.mp in_opening
  obtain ⟨last, closes, rfl⟩ := derives_text.mp in_closing
  rw [present_cursor]
  obtain ⟨number, in_digits, rfl⟩ := derives_phrase.mp in_index
  obtain ⟨first, run, are_digits, digits_eq⟩ := digits_shape (index_bound _) in_digits
  rw [present_cursor] at closes
  have after_eq : digit :: ']' :: tail = first :: run ++ number.cursor.rest := by
    rw [← digits_eq]
    exact (List.cons.inj (here.symm.trans opens)).2
  cases run with
  | nil =>
    have rest_eq : ']' :: tail = number.cursor.rest := (List.cons.inj after_eq).2
    rw [← rest_eq] at closes
    exact (List.cons.inj closes).2.symm
  | cons c run =>
    have bracket : ']' = c := (List.cons.inj (List.cons.inj after_eq).2).1
    exact absurd (are_digits c (.tail _ (.head _))) (by rw [← bracket]; decide)

/-- What follows an index in a path, up to the end of the parentheses. -/
theorem path_behind_index {name digit : Char} {closing : Cursor} {rest : List Char}
    (derives : grammar.Derivable (.phrase .fieldPath) free cursor found)
    (here : cursor.rest = name :: '[' :: digit :: ']' :: tail)
    (to_closing : grammar.Blanks free found.cursor closing) (closes : closing.rest = ')' :: rest) :
    BlanksBefore followsPath tail := by
  obtain ⟨inner, in_form, rfl⟩ := derives_phrase.mp derives
  rw [present_cursor] at to_closing
  have bound := path_bound free
  obtain ⟨front, steps, in_name, in_steps, rfl⟩ := derives_seq_bound bound in_form
  have behind_name := ident_single in_name here rfl
  have first_step {step : Found Phrase}
      (derives : grammar.Derivable stepForm (grammar.inside .fieldPath free) front.cursor step) :
      step.cursor.rest = tail := by
    rcases derives_choice.mp derives with in_field | in_index
    · obtain ⟨c, at_front, starts⟩ := firsts.starts_of_derives rfl in_field
      rw [behind_name] at at_front
      cases at_front
      cases starts
    · exact indexAccess_single in_index behind_name
  rcases derives_many.mp in_steps with rfl | rounds
  · have still := stays_of_visible to_closing behind_name rfl
    rw [still, behind_name] at closes
    cases closes
  · cases rounds with
    | last step =>
      obtain ⟨gap, all_blank, rest_eq, -⟩ := to_closing
      exact ⟨gap, ')', rest, all_blank, rfl, by rw [← first_step step, rest_eq, closes]⟩
    | more step blanks further =>
      cases blanks_bound bound blanks
      obtain ⟨c, at_step, starts⟩ := steps_start further
      rw [first_step step] at at_step
      obtain ⟨more, tail_eq⟩ := List.head?_eq_some_iff.mp at_step
      exact ⟨[], c, more, List.forall_mem_nil _, by simp [followsPath, starts], tail_eq⟩

/-- An expression in parentheses does not start with a name and an index. -/
theorem not_grouped_index {name : Char} {rest : List Char} (letter : isIdentStart name = true)
    (here : cursor.rest = '(' :: name :: '[' :: rest) :
    ¬ grammar.Derivable (.phrase .grouped) free cursor found := by
  intro derives
  obtain ⟨operand, in_operand, continued, -⟩ :=
    grouped_operand derives here (blanks_refl _ _) rfl letter
  obtain ⟨stop, ⟨first, run, -, continues, word_eq, -⟩, stops⟩ :=
    primary_word in_operand rfl letter
  -- The word is the name alone, and a bracket stands behind it.
  have at_stop : stop.rest = '[' :: rest := by
    cases run with
    | nil => exact (List.cons.inj word_eq).2.symm
    | cons c run =>
      have bracket : '[' = c := (List.cons.inj (List.cons.inj word_eq).2).1
      exact absurd (continues c (.head _)) (by rw [← bracket]; decide)
  have still : grammar.skipBlanks free stop = stop :=
    skipBlanks_of_lacks free (Cursor.lacks_of_head (by rw [at_stop]; rfl) rfl)
  rw [still, at_stop] at stops
  rcases stops with rfl | parenthesis
  · rw [still] at continued
    have follows := continued '[' (by rw [at_stop]; rfl)
    exact absurd follows (by decide)
  · cases parenthesis

/-- What can follow an index in parentheses at the start of a clause. -/
theorem clause_behind_index {name digit : Char} (letter : isIdentStart name = true)
    (accepts : Accepts ('(' :: name :: '[' :: digit :: ']' :: tail)) :
    BlanksBefore followsPath tail := by
  obtain ⟨found, derives⟩ := accepts
  obtain ⟨start, inner, last, ending, -, to_start, in_inner, -⟩ := clause_parts derives
  cases stays_of_visible to_start rfl rfl
  rcases in_inner with in_rule | in_expression
  · obtain ⟨c, here, starts⟩ := firsts.starts_of_derives rfl in_rule
    cases here
    cases starts
  obtain ⟨prefixes, place, operand, next, links, in_prefixes, to_place, in_operand, -⟩ :=
    expression_parts in_expression
  rcases derives_many.mp in_prefixes with rfl | rounds
  · cases stays_of_visible to_place rfl rfl
    obtain ⟨_, kind, listed, in_kind⟩ := derives_primary.mp in_operand
    have some_char : firsts.empty kind = false ∧
        (kind.starts '(' = true → kind = .sibling ∨ kind = .grouped) := by
      have is_operand := List.mem_of_getElem? listed
      clear in_kind listed
      revert kind
      decide
    obtain ⟨c, here, starts⟩ := firsts.starts_of_derives some_char.1 in_kind
    cases here
    rcases some_char.2 starts with rfl | rfl
    · obtain ⟨start, path, closing, _, rest, _, _, opens, to_start, in_path, to_closing, closes, -⟩ :=
        sibling_parts in_kind
      cases (List.cons.inj opens).2
      cases stays_of_visible to_start rfl (primaryStart_apart (by simp [isPrimaryStart, letter])).1
      exact path_behind_index in_path rfl to_closing closes
    · exact absurd in_kind (not_grouped_index letter rfl)
  · obtain ⟨c, here, starts⟩ := rounds.mayStart firsts rfl rfl
    cases here
    cases starts

end

end Phrase

/-! ## Errors of texts -/

theorem SyntaxError.mem_of_mem_distinct {α : Type} [DecidableEq α] {values : List α} {value : α}
    (listed : value ∈ distinct values) : value ∈ values := by
  have kept (seen : List α) : ∀ value ∈ values.foldl
      (fun seen value => if value ∈ seen then seen else seen ++ [value]) seen,
      value ∈ seen ∨ value ∈ values := by
    clear listed
    induction values generalizing seen with
    | nil => exact fun value listed => .inl listed
    | cons first rest ih =>
      intro value listed
      rcases ih _ value listed with before | later
      · dsimp only at before
        split at before
        · exact .inl before
        · rcases List.mem_append.mp before with earlier | here
          · exact .inl earlier
          · exact .inr (List.mem_singleton.mp here ▸ .head _)
      · exact .inr (.tail _ later)
  exact (kept [] value listed).resolve_left List.not_mem_nil

namespace Clause

open Phrase Grammar

/-- The text matches the grammar, and is a clause unless an index that starts in its first `count`
characters is too large. -/
def Accepted (count : Nat) (text : List Char) : Prop :=
  let whole := String.ofList text
  (∃ trees, Phrase.clause.parse whole = .ok trees) ∧
    ((∃ clause, parse whole = .ok clause) ∨ ∃ index < count,
      parse whole = .error ⟨.other "invalid index", whole, .after (text.take index)⟩)

theorem accepted_of_accepts {before rest : List Char} (few_digits : rest.countP Char.isDigit ≤ 1)
    (accepts : Accepts (before ++ rest)) : Accepted before.length (before ++ rest) := by
  obtain ⟨matched, is_clause | ⟨index, at_start, oversized⟩⟩ := parse_continued few_digits accepts
  · exact ⟨matched, .inl is_clause⟩
  · refine ⟨matched, .inr ⟨index, at_start, ?_⟩⟩
    rw [oversized, List.take_append_of_le_length (Nat.le_of_lt at_start)]

/-- Where text of a kind can follow, some text of that kind is accepted behind. -/
theorem accepted_of_follows {expectation : Expectation} {before : List Char}
    (follows : Follows expectation before) :
    ∃ text rest, expectation.Describes text ∧ Apart before text ∧
      (expectation = .endOfInput → rest = []) ∧
      Accepted before.length (before ++ (text ++ rest)) := by
  obtain ⟨text, rest, describes, apart, ending, few_digits, accepts⟩ := follows
  exact ⟨text, rest, describes, apart, ending, accepted_of_accepts few_digits accepts⟩

/-- Where a phrase that is reported was sought, text of its kind is accepted behind, or the phrase is
a step behind a step. -/
theorem can_follow_of_sought {name : Phrase} {context : Context} {before after : List Char}
    (sought : Sought name context before after) (named : name.mode ≠ .silent) :
    (∃ text rest, name.expectation.Describes text ∧ Apart before text ∧
        (name.expectation = .endOfInput → rest = []) ∧
        Accepted before.length (before ++ (text ++ rest))) ∨
      (name.expectation = .expression ∧ BehindStep before ∧ ∃ text rest,
        (Phrase.fieldAccess.Spelled text ∨ Phrase.indexAccess.Spelled text) ∧
        Accepted before.length (before ++ (text ++ rest))) := by
  cases is_step : isStep name with
  | false => exact .inl (accepted_of_follows (sought.follows named is_step))
  | true =>
    have counted : name.expectation = .expression := by
      revert is_step
      cases name <;> decide
    rw [counted]
    rcases sought.step_follows is_step with can_follow | ⟨behind, text, rest, spelled, few, accepts⟩
    · exact .inl (accepted_of_follows can_follow)
    · exact .inr ⟨rfl, behind, text, rest, spelled, accepted_of_accepts few accepts⟩

/-- **What a syntax error says is expected can follow.**  For each kind of text that is said to be
expected, there is a text of that kind that can be written behind the text before the place, apart
from what stands there, such that the whole starts a text that matches; for the end of the input,
the text before the place matches itself.  The one exception is an expression behind a step of a
path in parentheses: there a further step can follow.  What matches is a clause unless an index
before the place is too large. -/
theorem expected_can_follow {source : String} {failure : SyntaxError}
    (rejected : Phrase.clause.parse source = .error failure) :
    parse source = .error failure ∧
      ∃ (offset : Nat) (expected : List Expectation) (found : Finding),
        failure = ⟨.unexpected expected found, source, .after (source.toList.take offset)⟩ ∧
        offset ≤ source.toList.length ∧
        ∀ expectation ∈ expected,
          let before := source.toList.take offset
          (∃ text rest, expectation.Describes text ∧ Apart before text ∧
            (expectation = .endOfInput → rest = []) ∧
            Accepted offset (before ++ (text ++ rest))) ∨
          (expectation = .expression ∧ BehindStep before ∧ ∃ text rest,
            (Phrase.fieldAccess.Spelled text ∨ Phrase.indexAccess.Spelled text) ∧
            Accepted offset (before ++ (text ++ rest))) := by
  refine ⟨by rw [parse, rejected]; rfl, ?_⟩
  have recorded := recorded_read source.toList
  rw [Phrase.parse] at rejected
  generalize grammar.read .clause source.toList = outcome at recorded rejected
  obtain ⟨_ | found, failures⟩ := outcome
  case some => cases rejected
  cases rejected
  have within : failures.offset ≤ source.toList.length := by
    obtain ⟨before, behind, parts, offset_eq, -⟩ := recorded.viable
    rw [parts, List.length_append, show failures.offset = before.length from offset_eq]
    exact Nat.le_add_right _ _
  refine ⟨failures.offset, _, _, rfl, within, fun expectation listed => ?_⟩
  obtain ⟨name, on_record, rfl⟩ := List.mem_map.mp (SyntaxError.mem_of_mem_distinct listed)
  have on_record : name ∈ failures.expected := by simpa using (List.mem_filter.mp on_record).2
  obtain ⟨named, context, after, sought⟩ := recorded.sought name on_record
  have can_follow := can_follow_of_sought sought named
  rw [List.length_take_of_le within] at can_follow
  exact can_follow

def missingOperator : String := "$ 1"

theorem expected_can_follow_missingOperator :
    parse missingOperator = .error ⟨.unexpected [.endOfInput, .operator] (.char '1'),
      missingOperator, ⟨1, 3⟩⟩ ∧
    Accepted 2 "$ ".toList ∧
    ∃ text rest, Expectation.operator.Describes text ∧ Accepted 2 ("$ ".toList ++ (text ++ rest)) := by
  have parsed : parse missingOperator = .error ⟨.unexpected [.endOfInput, .operator] (.char '1'),
      missingOperator, ⟨1, 3⟩⟩ := by decide +kernel
  have none_found : (Phrase.clause.parse missingOperator).toOption.isNone = true := by
    decide +kernel
  cases rejected : Phrase.clause.parse missingOperator with
  | ok trees =>
    rw [rejected] at none_found
    cases none_found
  | error failure =>
    obtain ⟨same, offset, expected, found, failure_eq, within, follows⟩ :=
      expected_can_follow rejected
    rw [parsed, failure_eq] at same
    injection same with same
    injection same with cause _ position
    injection cause with expected_eq
    subst expected_eq
    have third : ∀ k ≤ missingOperator.toList.length,
        Position.after (missingOperator.toList.take k) = ⟨1, 3⟩ → k = 2 := by decide +kernel
    cases third offset within position.symm
    obtain ⟨text, rest, describes, -, ending, accepted⟩ | ⟨other, -⟩ :=
      follows .endOfInput (.head _)
    case inr => cases other
    obtain ⟨text', rest', describes', -, -, accepted'⟩ | ⟨other, -⟩ :=
      follows .operator (.tail _ (.head _))
    case inr => cases other
    rw [ending rfl, Expectation.eq_nil_of_ending describes] at accepted
    exact ⟨parsed, accepted, text', rest', describes', accepted'⟩

def openIndex : String := "(a[0]x"

/-- Behind an index, an expression is said to be expected, and none can follow. -/
theorem expression_never_behind_index :
    parse openIndex = .error ⟨.unexpected [.expression] (.char 'x'), openIndex, ⟨1, 6⟩⟩ ∧
      ∀ text rest, Expectation.expression.Describes text →
        ¬ ∃ trees, Phrase.clause.parse (String.ofList ("(a[0]".toList ++ (text ++ rest))) =
          .ok trees := by
  refine ⟨by decide +kernel, ?_⟩
  rintro text rest ⟨name, listed, spelled⟩ matched
  cases List.mem_singleton.mp listed
  obtain ⟨found, derives⟩ := (parse_clause_iff_derivable _).1.mp matched
  rw [Phrase.Derivable, String.toList_ofList] at derives
  obtain ⟨gap, c, tail, all_blank, starts, text_eq⟩ := blanksBefore_of_expression spelled
  have starts_expression : BlanksBefore (fun c => isPrefixStart c || isPrimaryStart c)
      (text ++ rest) := ⟨gap, c, tail ++ rest, all_blank, starts, by simp [text_eq]⟩
  have follows : BlanksBefore followsPath (text ++ rest) := clause_behind_index rfl ⟨found, derives⟩
  have visible (c : Char) (starts : (isPrefixStart c || isPrimaryStart c) = true) :
      isBlank c = false :=
    (Bool.or_eq_true_iff.mp starts).elim (fun starts => (prefixStart_apart starts).1)
      (fun starts => (primaryStart_apart starts).1)
  obtain ⟨c, follows, starts⟩ := follows.head_eq starts_expression
    (fun c follows => (followsPath_apart follows).1) visible
  rw [(followsPath_apart follows).2] at starts
  cases starts

end Clause

end Proviso
