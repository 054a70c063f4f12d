/- # Proviso.Proofs.Clause.Following -- what can follow where a phrase is sought

In a syntax error a phrase stands for a kind of text (`Expectation.Describes`).  Where a phrase is
sought, a text of its kind can be written, apart from what stands before, and the whole can be
completed (`Sought.follows`).

The steps of a path count as expressions, and are the exception.  Behind the name that a path starts
with, an expression in parentheses can follow, for then the name is that of a call
(`Sought.call_behind_name`); behind a step, a further step can (`Sought.step_follows`). -/
import Proviso.Proofs.Clause.Indices
import Proviso.Proofs.Clause.Sought

namespace Proviso

set_option autoImplicit false

namespace Phrase

open Grammar

/-! ## Texts of each kind -/

def Spelled (name : Phrase) (text : List Char) : Prop :=
  ∃ found, name.Derivable (String.ofList text) found ∧ found.cursor.rest = []

end Phrase

def Expectation.phrases : Expectation → List Phrase
  | .literal => [.nil, .boolean, .number, .string]
  | .selector => [.current, .sibling]
  | .identifier => [.ident]
  | .operator => [.binaryOperator]
  | .endOfInput => [.endOfInput]
  | .expression => [.expression]

def Expectation.Describes (expectation : Expectation) (text : List Char) : Prop :=
  ∃ name ∈ expectation.phrases, name.Spelled text

/-- Only the empty text is an end of the input. -/
theorem Expectation.eq_nil_of_ending {text : List Char}
    (describes : Expectation.endOfInput.Describes text) : text = [] := by
  obtain ⟨name, listed, found, derives, -⟩ := describes
  cases List.mem_singleton.mp listed
  rw [Phrase.Derivable, String.toList_ofList] at derives
  obtain ⟨inner, in_form, -⟩ := Grammar.derives_phrase.mp derives
  cases in_form with
  | endOfInput last => exact last

namespace Phrase

open Grammar

/-- A text of the kind that the phrase counts as, to be written where the phrase is sought. -/
def exemplar : Phrase → List Char
  | .extended | .singleQuoted | .doubleQuoted => ['$']
  | .not | .unaryOperator => ['!', '$']
  | .neg => ['-', '$']
  | name => name.sample.toList

def isStep (name : Phrase) : Bool := name == .fieldAccess || name == .indexAccess

theorem spelled_of_take {name : Phrase} {text : List Char}
    (alone : (grammar.take name free ⟨text, 0⟩).any (·.cursor.rest.isEmpty) = true) :
    name.Spelled text := by
  cases taken : grammar.take name free ⟨text, 0⟩ with
  | none => simp [taken] at alone
  | some found =>
    refine ⟨found, ?_, by simpa [taken] using alone⟩
    rw [Phrase.Derivable, String.toList_ofList]
    exact derivable_of_take_phrase taken

theorem spelled_sample (name : Phrase) : name.Spelled name.sample.toList :=
  spelled_of_take (take_sample name .free)

/-- The exemplar of a phrase that is reported, steps aside, is of the kind that it counts as. -/
theorem describes_exemplar {name : Phrase} (named : name.mode ≠ .silent)
    (no_step : isStep name = false) : name.expectation.Describes name.exemplar := by
  have alone : (name.expectation.phrases.any fun kind =>
      (grammar.take kind free ⟨name.exemplar, 0⟩).any (·.cursor.rest.isEmpty)) = true := by
    revert named no_step
    cases name <;> decide +kernel
  obtain ⟨kind, listed, alone⟩ := List.any_eq_true.mp alone
  exact ⟨kind, listed, spelled_of_take alone⟩

/-- The exemplar starts with no character of a name, unless the phrase is sought where no name is
left open. -/
theorem exemplar_apart {name : Phrase} (named : name.mode ≠ .silent) (no_step : isStep name = false)
    (opens : opensWord name = false) : ∀ c, name.exemplar.head? = some c → isIdentChar c = false := by
  have apart : name.exemplar.head?.all (!isIdentChar ·) = true := by
    revert named no_step opens
    cases name <;> decide +kernel
  intro c here
  simpa [here] using apart

/-- Within a clause, the exemplar of a phrase that is no prefix operator is read as the phrase. -/
theorem take_exemplar {name : Phrase} (inner : movable (.phrase name) = true)
    (not_rule : name ≠ .extended) (no_lead : isPrefix name = false) (spacing : Spacing) :
    (grammar.take name ⟨spacing, .none⟩ ⟨name.exemplar, 0⟩).any (·.cursor.rest.isEmpty) = true := by
  revert inner not_rule no_lead
  cases name <;> cases spacing <;> decide +kernel

/-- A prefix operator is written with an operand. -/
theorem exemplar_of_isPrefix {name : Phrase} (leads : isPrefix name = true) :
    name.exemplar = name.sample.toList ++ ['$'] := by
  revert leads
  cases name <;> decide

theorem countP_exemplar (name : Phrase) : name.exemplar.countP Char.isDigit ≤ 1 := by
  cases name <;> decide

/-! ## Where phrases are sought -/

/-- The only phrase in whose form the phrase is named, for some phrases that have just one. -/
def onlyOwner? : Phrase → Option Phrase
  | .clause | .extended | .endOfInput => some .clause
  | .sibling => some .primary
  | .fieldPath => some .sibling
  | .fieldAccess | .indexAccess => some .fieldPath
  | _ => none

theorem owner_eq {owner name sole : Phrase} (listed : name ∈ owner.form.phrases)
    (only : onlyOwner? name = some sole) : owner = sole := by
  have checked : owner.form.phrases.all fun name => (onlyOwner? name).all (· == owner) := by
    cases owner <;> decide
  have same := List.all_eq_true.mp checked name listed
  simp only [only, Option.all_some, beq_iff_eq] at same
  exact same.symm

namespace Sought

variable {name : Phrase} {context : Context} {before after : List Char}

theorem ne_clause_of_movable {owner : Phrase} (inner : movable (.phrase owner) = true) :
    owner ≠ .clause := by
  rintro rfl
  cases inner

/-- What is named in the form of one phrase only is sought where that phrase is. -/
theorem owner {sole : Phrase} (sought : Sought name context before after)
    (only : onlyOwner? name = some sole) (inside_clause : sole ≠ .clause) :
    ∃ outer start later, Sought sole outer start later ∧ grammar.inside sole outer = context ∧
      Part context name before after sole.form start later := by
  cases sought with
  | clause => exact absurd (Option.some.inj only).symm inside_clause
  | body _ part => exact absurd (@owner_eq .clause _ _ part.mem_phrases only).symm inside_clause
  | part sought _ enters part =>
    cases owner_eq part.mem_phrases only
    exact ⟨_, _, _, sought, enters, part⟩

theorem of_clause (sought : Sought .clause context before after) : before = [] := by
  cases sought with
  | clause => rfl
  | body _ part => exact absurd part.mem_phrases (by decide)
  | part _ inner _ part => exact absurd (owner_eq part.mem_phrases rfl) (ne_clause_of_movable inner)

/-- The end of the text is sought where nothing is still to come. -/
theorem of_ending (sought : Sought .endOfInput context before after) :
    context = free ∧ after = [] := by
  cases sought with
  | body _ part =>
    cases part with
    | seq_first has => cases has
    | seq_second _ _ _ part =>
      cases part with
      | phrase => exact ⟨rfl, rfl⟩
    | before_ending part => exact absurd part.mem_phrases (by decide)
  | part _ inner _ part => exact absurd (owner_eq part.mem_phrases rfl) (ne_clause_of_movable inner)

/-- A rule with a message is sought where a condition alone could stand. -/
theorem of_extended (sought : Sought .extended context before after) :
    Sought .expression free before [] := by
  cases sought with
  | body all_blank part =>
    cases part with
    | seq_first has => cases has
    | seq_second _ _ _ part => exact absurd part.mem_phrases (by decide)
    | before_ending part =>
      cases part with
      | choice_first part =>
        cases part with
        | phrase => exact .body all_blank (.before_ending (.choice_second .phrase))
      | choice_second part => exact absurd part.mem_phrases (by decide)
  | part _ inner _ part => exact absurd (owner_eq part.mem_phrases rfl) (ne_clause_of_movable inner)

end Sought

/-! ## What can follow -/

/-- The text does not go on with a name that is left open. -/
def Apart (before text : List Char) : Prop :=
  Fresh before ∨ ∀ c, text.head? = some c → isIdentChar c = false

/-- Text of that kind can be written behind, apart from what is there, and the whole completed; the
end of the input needs nothing more. -/
def Follows (expectation : Expectation) (before : List Char) : Prop :=
  ∃ text rest, expectation.Describes text ∧ Apart before text ∧
    (expectation = .endOfInput → rest = []) ∧ (text ++ rest).countP Char.isDigit ≤ 1 ∧
    Accepts (before ++ (text ++ rest))

namespace Sought

variable {name : Phrase} {context : Context} {before after : List Char}

theorem countP_after (sought : Sought name context before after) :
    after.countP Char.isDigit = 0 :=
  List.countP_eq_zero.mpr fun c listed => by simp [sought.closes.no_digit c listed]

/-- Where an expression is sought, the value under test can be written. -/
theorem current_follows (sought : Sought .expression context before after) :
    Accepts (before ++ (['$'] ++ after)) :=
  sought.continued rfl (take_sample .expression)

/-- Where a phrase within a clause is sought, its exemplar can be written. -/
theorem exemplar_follows_within (sought : Sought name context before after)
    (inner : movable (.phrase name) = true) :
    ∃ rest, rest.countP Char.isDigit = 0 ∧ Accepts (before ++ (name.exemplar ++ rest)) := by
  by_cases rule : name = .extended
  · subst rule
    exact ⟨[], rfl, sought.of_extended.current_follows⟩
  cases leads : isPrefix name with
  | false =>
    exact ⟨after, sought.countP_after, sought.continued inner (take_exemplar inner rule leads)⟩
  | true =>
    -- The operand of a prefix operator is part of what is still to come.
    obtain ⟨rest, rfl⟩ := List.head?_eq_some_iff.mp (sought.before_operand leads)
    have no_digit := sought.countP_after
    rw [List.countP_cons_of_neg (by decide)] at no_digit
    refine ⟨rest, no_digit, ?_⟩
    rw [exemplar_of_isPrefix leads, List.append_assoc]
    exact sought.continued inner (take_sample name)

/-- Where a phrase is sought, its exemplar can be written; behind the end of the text, nothing needs
to be. -/
theorem exemplar_follows (sought : Sought name context before after) :
    ∃ rest, rest.countP Char.isDigit = 0 ∧ (name = .endOfInput → rest = []) ∧
      Accepts (before ++ (name.exemplar ++ rest)) := by
  by_cases inner : movable (.phrase name) = true
  · obtain ⟨rest, no_digit, accepts⟩ := sought.exemplar_follows_within inner
    refine ⟨rest, no_digit, ?_, accepts⟩
    rintro rfl
    cases inner
  · have outermost : name = .clause ∨ name = .endOfInput := by
      simpa [movable, or_iff_not_imp_left] using inner
    rcases outermost with rfl | rfl
    · rw [sought.of_clause]
      have expression : Sought .expression free [] [] :=
        .body (fun _ listed => absurd listed List.not_mem_nil)
          (.before_ending (.choice_second .phrase))
      exact ⟨[], rfl, fun _ => rfl, expression.current_follows⟩
    · obtain ⟨rfl, rfl⟩ := sought.of_ending
      refine ⟨[], rfl, fun _ => rfl, ?_⟩
      exact sought.closes.accepts [] _ (.phrase (.endOfInput rfl)) (by rw [present_cursor]; rfl)

/-- Where a phrase that is reported was sought, text of its kind can follow, if it is no step. -/
theorem follows (sought : Sought name context before after) (named : name.mode ≠ .silent)
    (no_step : isStep name = false) : Follows name.expectation before := by
  obtain ⟨rest, no_digit, ending, accepts⟩ := sought.exemplar_follows
  refine ⟨name.exemplar, rest, describes_exemplar named no_step, ?_, ?_, ?_, accepts⟩
  · cases opens : opensWord name with
    | true => exact .inl (sought.fresh opens)
    | false => exact .inr (exemplar_apart named no_step opens)
  · intro is_ending
    refine ending ?_
    revert is_ending
    cases name <;> decide
  · rw [List.countP_append, no_digit]
    exact countP_exemplar name

end Sought

/-! ## Behind a path -/

section

variable {context : Context} {form : Form Phrase} {chars : List Char} {start stop : Cursor}

theorem Passes.of_text {text : List Char} (passes : Passes (.text text) context chars) :
    ∃ gap, (∀ c ∈ gap, isBlank c = true) ∧ chars = text ++ gap := by
  obtain ⟨ahead, cursor, found, middle, -, derives, blanks, spells⟩ := passes
  obtain ⟨rest, here, rfl⟩ := derives_text.mp derives
  obtain ⟨gap, in_gap⟩ : ∃ gap, Cursor.Spells _ gap middle := blanks.reaches
  have in_text : cursor.Spells text ⟨rest, cursor.offset + text.length⟩ := ⟨here, rfl⟩
  exact ⟨gap, isBlank_of_blanks blanks in_gap, spells.chars_eq (in_text.append in_gap) ▸ rfl⟩

/-- What is read with no blanks between can be read the same where the characters stand again. -/
theorem Passes.derivable (passes : Passes form context chars) (bound : context.spacing ≠ .free)
    (can_move : movable form = true) (closed : endsOpen form = false)
    (spells : start.Spells chars stop) :
    ∃ found, grammar.Derivable form context start found ∧ found.cursor = stop := by
  obtain ⟨ahead, cursor, found, middle, sees, derives, blanks, in_chars⟩ := passes
  cases blanks_bound bound blanks
  obtain ⟨moved, moved_derives, moved_stop, -⟩ := moves_of_derives sees derives can_move chars start
    stop in_chars spells fun opens => by simp [closed] at opens
  exact ⟨moved, moved_derives, moved_stop⟩

theorem PassesRounds.passes (rounds : PassesRounds form context chars) :
    Passes (.many form) context chars := by
  obtain ⟨ahead, cursor, found, middle, sees, rounds, blanks, spells⟩ := rounds
  exact ⟨ahead, cursor, found, middle, sees, .rounds rounds, blanks, spells⟩

/-- A name is read the same whether blanks may stand behind it or not. -/
theorem Passes.respaced (passes : Passes (.phrase .ident) ⟨.compound, .none⟩ chars)
    (looks : context.lookahead = .none) : Passes (.phrase .ident) context chars := by
  obtain ⟨ahead, cursor, found, middle, sees, derives, blanks, spells⟩ := passes
  cases blanks_bound (by decide) blanks
  obtain ⟨inner, in_form, rfl⟩ := derives_phrase.mp derives
  have same : grammar.inside .ident ⟨.compound, .none⟩ = grammar.inside .ident context := by
    rw [← looks]
    rfl
  rw [same] at in_form
  rw [present_cursor] at spells
  exact ⟨ahead, cursor, _, _, sees, .phrase in_form, blanks_refl _ _, by rwa [present_cursor]⟩

theorem steps_start {ahead : Form Phrase → Context → Cursor → Prop} {cursor : Cursor}
    {found : Found Phrase} (rounds : Rounds grammar ahead stepForm context cursor found) :
    ∃ c, cursor.rest.head? = some c ∧ isStepStart c = true := by
  cases rounds with
  | last step => exact step_starts step
  | more step => exact step_starts step

/-- Steps start with a dot or a bracket. -/
theorem PassesRounds.stepStart (passes : PassesRounds stepForm context chars) :
    ∃ c rest, chars = c :: rest ∧ isStepStart c = true := by
  obtain ⟨ahead, cursor, found, middle, -, rounds, blanks, in_chars⟩ := passes
  obtain ⟨c, here, starts⟩ := steps_start rounds
  cases chars with
  | nil =>
    have shorter := (rounds.advances ranking).2 rfl
    have no_longer := blanks.reaches.length_le
    rw [in_chars.eq_of_nil] at no_longer
    omega
  | cons first rest =>
    rw [in_chars.1] at here
    exact ⟨c, rest, by rw [Option.some.inj here], starts⟩

end

/-- The text ends behind a path in an open parenthesis, and the path is more than a name. -/
def BehindStep (text : List Char) : Prop :=
  ∃ front gap path, text = front ++ '(' :: (gap ++ path) ∧ (∀ c ∈ gap, isBlank c = true) ∧
    Phrase.fieldPath.Spelled path ∧ isIdentifier path = false

/-- The context of the parts of a path. -/
theorem inside_path {context : Context} (looks : context.lookahead = .none) :
    grammar.inside .fieldPath context = ⟨.compound, .none⟩ := by
  rw [← looks]
  rfl

/-- A name and steps behind it are a path, and no name. -/
theorem spelled_path_of_passes {name steps : List Char}
    (in_name : Passes (.phrase .ident) ⟨.compound, .none⟩ name)
    (in_steps : PassesRounds stepForm ⟨.compound, .none⟩ steps) :
    Phrase.fieldPath.Spelled (name ++ steps) ∧ isIdentifier (name ++ steps) = false := by
  constructor
  · let middle : Cursor := ⟨steps, name.length⟩
    let stop : Cursor := ⟨[], name.length + steps.length⟩
    have spells_name : Cursor.Spells ⟨name ++ steps, 0⟩ name middle := ⟨rfl, (Nat.zero_add _).symm⟩
    have spells_steps : middle.Spells steps stop := ⟨(List.append_nil _).symm, rfl⟩
    obtain ⟨front, first, at_middle⟩ := in_name.derivable nofun rfl rfl spells_name
    obtain ⟨back, second, at_stop⟩ := in_steps.passes.derivable nofun rfl rfl spells_steps
    have both : grammar.Derivable (Phrase.form .fieldPath) (grammar.inside .fieldPath free)
        ⟨name ++ steps, 0⟩ ⟨front.trees ++ back.trees, back.cursor⟩ :=
      .seq first (at_middle ▸ blanks_refl _ _) second
    refine ⟨_, by rw [Phrase.Derivable, String.toList_ofList]; exact .phrase both, ?_⟩
    rw [present_cursor, at_stop]
  · obtain ⟨c, rest, rfl, starts⟩ := in_steps.stepStart
    have no_name : isIdentChar c = false := by
      simp only [isStepStart, Bool.or_eq_true, beq_iff_eq] at starts
      rcases starts with rfl | rfl <;> rfl
    have no_start : isIdentStart c = false := by
      refine Bool.eq_false_iff.mpr fun starts => ?_
      rw [identChar_of_start starts] at no_name
      cases no_name
    cases name <;> simp [isIdentifier, no_name, no_start]

namespace Sought

variable {context : Context} {before after : List Char}

/-- A step is looked for where a step may stand. -/
theorem place_of_stepForm {context : Context} {name : Phrase}
    {place later before after : List Char}
    (part : Part context name place later stepForm before after) : place = before := by
  cases part with
  | choice_first part =>
    cases part with
    | phrase => rfl
  | choice_second part =>
    cases part with
    | phrase => rfl

/-- Steps are sought behind the name that a path starts with, and behind other steps. -/
theorem step_parts {name : Phrase} (sought : Sought name context before after)
    (is_step : isStep name = true) :
    ∃ outer start later chars steps, Sought .fieldPath outer start later ∧
      before = start ++ (chars ++ steps) ∧ Passes (.phrase .ident) ⟨.compound, .none⟩ chars ∧
      (steps = [] ∨ PassesRounds stepForm ⟨.compound, .none⟩ steps) := by
  have only : onlyOwner? name = some .fieldPath := by
    revert is_step
    cases name <;> decide
  obtain ⟨outer, start, later, path_sought, enters, part⟩ := sought.owner only nofun
  rw [inside_path path_sought.looks] at enters
  subst enters
  change Part _ _ _ _ (.seq (.phrase .ident) (.many stepForm)) _ _ at part
  cases part with
  | seq_first _ _ _ part =>
    cases part with
    | phrase => cases is_step
  | seq_second _ _ passes part =>
    cases part with
    | first_round part =>
      cases place_of_stepForm part
      exact ⟨_, _, _, _, [], path_sought, by rw [List.append_nil], passes, .inl rfl⟩
    | next_round _ rounds part =>
      cases place_of_stepForm part
      exact ⟨_, _, _, _, _, path_sought, List.append_assoc .., passes, .inr rounds⟩

/-- A field of the record is sought where any operand is. -/
theorem of_sibling (sought : Sought .sibling context before after) :
    Sought .primary context before after := by
  obtain ⟨outer, start, later, primary_sought, rfl, part⟩ := sought.owner rfl nofun
  change Part _ _ _ _ (.choice (.phrase .sibling) (.choices (operands.tail.map .phrase))) _ _ at part
  cases part with
  | choice_first part =>
    cases part with
    | phrase => exact primary_sought
  | choice_second part => exact absurd part.mem_phrases (by decide)

/-- A path is sought behind a parenthesis, and an operand where that stands. -/
theorem path_parts (sought : Sought .fieldPath context before after) :
    ∃ front opening later, Sought .primary context front later ∧ before = front ++ opening ∧
      Passes (literally "(") context opening := by
  obtain ⟨outer, front, later, sibling_sought, rfl, part⟩ := sought.owner rfl nofun
  change Part _ _ _ _ (.seq (literally "(") (.seq (.phrase .fieldPath)
    (.seq (literally ")") (literally "$")))) _ _ at part
  cases part with
  | seq_first _ _ _ part => exact absurd part.mem_phrases (by decide)
  | seq_second _ _ passes part =>
    cases part with
    | seq_first _ _ _ part =>
      cases part with
      | phrase => exact ⟨_, _, _, sibling_sought.of_sibling, rfl, passes⟩
    | seq_second _ _ _ part => exact absurd part.mem_phrases (by decide)

/-- An operand in parentheses is sought behind the parenthesis. -/
theorem in_parentheses {opening : List Char} (sought : Sought .primary context before after)
    (passes : Passes (literally "(") context opening) :
    ∃ later, Sought .primary context (before ++ opening) later := by
  have grouped : Sought .grouped context before after :=
    .part sought rfl rfl (.choice_second (.choice_first .phrase))
  have expression : Sought .expression context (before ++ opening)
      (shortest (literally ")") ++ after) :=
    .part grouped rfl rfl (.seq_second rfl rfl passes
      (.seq_first rfl rfl (List.forall_mem_singleton.mpr rfl) .phrase))
  have none_before : Passes (.many (.phrase .unaryOperator)) context [] :=
    ⟨_, ⟨[], 0⟩, _, _, id, .noRound, blanks_refl _ _, .refl _⟩
  have operand : Part context .primary (before ++ opening) (shortest (literally ")") ++ after)
      (.phrase .primary) (before ++ opening ++ []) (shortest (literally ")") ++ after) := by
    rw [List.append_nil]
    exact .phrase
  exact ⟨_, .part expression rfl rfl (.seq_second rfl rfl none_before
    (.seq_first rfl rfl nofun operand))⟩

/-- Behind the name of a call and a parenthesis, an argument is sought. -/
theorem argument {chars : List Char} (sought : Sought .primary context before after)
    (passes : Passes (.phrase .ident) context chars) :
    ∃ later, Sought .expression context (before ++ chars ++ ['(']) (')' :: later) := by
  have call : Sought .call context before after :=
    .part sought rfl rfl (.choice_second (.choice_second (.choice_first .phrase)))
  have opening : Passes (literally "(") context ['('] :=
    ⟨grammar.Ahead, ⟨['('], 0⟩, _, ⟨[], 1⟩, id, .text rfl, blanks_refl _ _, ⟨rfl, rfl⟩⟩
  exact ⟨_, .part call rfl rfl (.seq_second rfl rfl passes (.seq_second rfl rfl opening
    (.seq_first rfl rfl (List.forall_mem_singleton.mpr rfl) (.optional
      (.seq_first rfl rfl nofun .phrase)))))⟩

/-- Behind the name that a path starts with, an expression in parentheses can follow: the name is
then that of a call. -/
theorem call_behind_name {chars : List Char} (sought : Sought .fieldPath context before after)
    (in_name : Passes (.phrase .ident) ⟨.compound, .none⟩ chars) :
    Follows .expression (before ++ chars) := by
  obtain ⟨front, opening, later, operand, rfl, in_opening⟩ := sought.path_parts
  obtain ⟨later, within⟩ := operand.in_parentheses in_opening
  obtain ⟨rest, argument⟩ := within.argument (in_name.respaced sought.looks)
  have accepts := argument.current_follows
  have no_digit := argument.countP_after
  rw [List.countP_cons_of_neg (by decide)] at no_digit
  refine ⟨['(', '$', ')'], rest, ⟨.expression, .head _, spelled_of_take (by decide +kernel)⟩,
    .inr fun c here => ?_, nofun, ?_, ?_⟩
  · cases here
    rfl
  · rw [List.countP_append, no_digit]
    decide
  · simpa using accepts

/-- Where a step is sought, an expression can follow, or a step of a path that has steps. -/
theorem step_follows {name : Phrase} (sought : Sought name context before after)
    (is_step : isStep name = true) :
    Follows .expression before ∨ BehindStep before ∧ ∃ text rest,
      (Phrase.fieldAccess.Spelled text ∨ Phrase.indexAccess.Spelled text) ∧
      (text ++ rest).countP Char.isDigit ≤ 1 ∧ Accepts (before ++ (text ++ rest)) := by
  obtain ⟨outer, start, later, chars, steps, path_sought, rfl, in_name, in_steps⟩ :=
    sought.step_parts is_step
  rcases in_steps with rfl | in_steps
  · rw [List.append_nil]
    exact .inl (path_sought.call_behind_name in_name)
  · refine .inr ⟨?_, name.sample.toList, after, ?_, ?_, ?_⟩
    · obtain ⟨front, opening, later, -, rfl, in_opening⟩ := path_sought.path_parts
      obtain ⟨gap, all_blank, rfl⟩ := in_opening.of_text
      obtain ⟨spelled, no_name⟩ := spelled_path_of_passes in_name in_steps
      exact ⟨front, gap, _, by simp, all_blank, spelled, no_name⟩
    · simp only [isStep, Bool.or_eq_true, beq_iff_eq] at is_step
      rcases is_step with rfl | rfl
      · exact .inl (spelled_sample _)
      · exact .inr (spelled_sample _)
    · rw [List.countP_append, sought.countP_after]
      exact countP_sample name
    · refine sought.continued ?_ (take_sample name)
      revert is_step
      cases name <;> decide

end Sought

end Phrase

end Proviso
