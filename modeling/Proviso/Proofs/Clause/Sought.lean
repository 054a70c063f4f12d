/- # Proviso.Proofs.Clause.Sought -- where phrases are looked for

The matcher looks for a phrase because it looks for another one that the first is a part of, and it
does so behind text that is the start of a clause.  How it comes from a form to the phrases in it is
followed form by form (`Part`): into the first part of a sequence, while the second is still to come;
behind a part that was read; into each alternative.  A phrase is sought where a chain of such ways
leads to it from the start of the text (`Sought`).

Something can be written behind a text where a phrase is sought, with the phrase next
(`Sought.continued`).  What stands before the place, and what the matcher waits for behind it, can
be told from the forms: operands are sought where no name is left open (`Sought.fresh`), and prefix
operators where an operand is still to come (`Sought.before_operand`). -/
import Proviso.Proofs.Clause.Viable

namespace Proviso

set_option autoImplicit false

def Form.phrases {Name : Type} : Form Name → List Name
  | .text _ | .textAnyCase _ | .char _ | .startOfInput | .endOfInput => []
  | .phrase name => [name]
  | .seq first second | .choice first second => first.phrases ++ second.phrases
  | .optional form | .many form | .notAhead form => form.phrases

namespace Phrase

open Grammar

/-! ## From a form to its phrases -/

/-- The characters can be read as the form, with blanks behind it, looks ahead for names aside. -/
def Passes (form : Form Phrase) (context : Context) (chars : List Char) : Prop :=
  ∃ ahead cursor found middle, SeesQuotes ahead ∧ Derives grammar ahead form context cursor found ∧
    grammar.Blanks context found.cursor middle ∧ cursor.Spells chars middle

/-- The characters can be read as one or more rounds of the form, with blanks behind them. -/
def PassesRounds (form : Form Phrase) (context : Context) (chars : List Char) : Prop :=
  ∃ ahead cursor found middle, SeesQuotes ahead ∧ Rounds grammar ahead form context cursor found ∧
    grammar.Blanks context found.cursor middle ∧ cursor.Spells chars middle

/-- Where a form is looked for behind a text, while another one is still to come, the phrase `name`
is looked for behind `place`, with `later` still to come. -/
inductive Part (context : Context) (name : Phrase) (place later : List Char) :
    Form Phrase → List Char → List Char → Prop where
  | phrase : Part context name place later (.phrase name) place later
  | choice_first {first second : Form Phrase} {before after : List Char}
      (part : Part context name place later first before after) :
      Part context name place later (.choice first second) before after
  | choice_second {first second : Form Phrase} {before after : List Char}
      (part : Part context name place later second before after) :
      Part context name place later (.choice first second) before after
  | optional {form : Form Phrase} {before after : List Char}
      (part : Part context name place later form before after) :
      Part context name place later (.optional form) before after
  | first_round {form : Form Phrase} {before after : List Char}
      (part : Part context name place later form before after) :
      Part context name place later (.many form) before after
  | next_round {form : Form Phrase} {before after chars : List Char}
      (can_move : movable (.many form) = true) (passes : PassesRounds form context chars)
      (part : Part context name place later form (before ++ chars) after) :
      Part context name place later (.many form) before after
  | seq_first {first second : Form Phrase} {before after : List Char}
      (has : hasShortest second = true) (joined : joins first second = true)
      (no_digit : ∀ c ∈ shortest second, c.isDigit = false)
      (part : Part context name place later first before (shortest second ++ after)) :
      Part context name place later (.seq first second) before after
  | seq_second {first second : Form Phrase} {before after chars : List Char}
      (can_move : movable first = true) (joined : joins first second = true)
      (passes : Passes first context chars)
      (part : Part context name place later second (before ++ chars) after) :
      Part context name place later (.seq first second) before after
  /-- Before the end of the text, nothing is still to come. -/
  | before_ending {form : Form Phrase} {before : List Char}
      (part : Part context name place later form before []) :
      Part context name place later (.seq form (.phrase .endOfInput)) before []

namespace Part

variable {context : Context} {name : Phrase} {place later before after : List Char}
  {form : Form Phrase}

/-- The phrases that are looked for are named in the form. -/
theorem mem_phrases (part : Part context name place later form before after) :
    name ∈ form.phrases := by
  induction part with
  | phrase => exact List.mem_singleton_self name
  | choice_first _ ih | seq_first _ _ _ _ ih | before_ending _ ih =>
    exact List.mem_append_left _ ih
  | choice_second _ ih | seq_second _ _ _ _ ih => exact List.mem_append_right _ ih
  | optional _ ih | first_round _ ih | next_round _ _ _ ih => exact ih

theorem closes (part : Part context name place later form before after)
    (looks : context.lookahead = .none) (closes : Closes form context before after) :
    Closes (.phrase name) context place later := by
  obtain ⟨spacing, rfl⟩ : ∃ spacing, context = ⟨spacing, .none⟩ := ⟨_, by rw [← looks]⟩
  induction part with
  | phrase => exact closes
  | choice_first _ ih => exact ih closes.choice_first
  | choice_second _ ih => exact ih closes.choice_second
  | optional _ ih => exact ih closes.optional
  | first_round _ ih => exact ih closes.first_round
  | next_round can_move passes _ ih =>
    obtain ⟨ahead, cursor, found, middle, sees, rounds, blanks, spells⟩ := passes
    exact ih (closes.next_round sees rounds can_move blanks spells)
  | seq_first has joined no_digit _ ih => exact ih (closes.seq_first has joined no_digit)
  | seq_second can_move joined passes _ ih =>
    obtain ⟨ahead, cursor, found, middle, sees, derives, blanks, spells⟩ := passes
    exact ih (closes.seq_second sees derives can_move joined blanks spells)
  | before_ending _ ih => exact ih closes.before_ending

end Part

/-- The phrase is looked for behind a text, while another one is still to come. -/
inductive Sought : Phrase → Context → List Char → List Char → Prop where
  | clause : Sought .clause free [] []
  | body {name : Phrase} {blanks place later : List Char}
      (all_blank : ∀ c ∈ blanks, isBlank c = true)
      (part : Part free name place later clauseBody blanks []) : Sought name free place later
  | part {owner name : Phrase} {context within : Context} {before after place later : List Char}
      (sought : Sought owner context before after) (inner : movable (.phrase owner) = true)
      (enters : grammar.inside owner context = within)
      (part : Part within name place later owner.form before after) : Sought name within place later

theorem inside_lookahead (name : Phrase) (context : Context) :
    (grammar.inside name context).lookahead = context.lookahead := by
  unfold inside
  cases grammar.mode name <;> rfl

namespace Sought

variable {name : Phrase} {context : Context} {before after : List Char}

theorem looks (sought : Sought name context before after) : context.lookahead = .none := by
  induction sought with
  | clause | body => rfl
  | part _ _ enters _ ih => rw [← enters, inside_lookahead, ih]

theorem closes (sought : Sought name context before after) :
    Closes (.phrase name) context before after := by
  induction sought with
  | clause =>
    refine ⟨fun _ c here => (nomatch here), fun c listed => (nomatch listed), ?_⟩
    intro text found derives _
    exact ⟨found, by simpa using derives⟩
  | body all_blank part => exact part.closes rfl (closes_body all_blank)
  | part sought inner enters part ih =>
    subst enters
    exact part.closes ((inside_lookahead _ _).trans sought.looks) ih.phrase

/-- Behind the text, anything can be written that is read as the phrase on its own. -/
theorem continued {text : List Char} (sought : Sought name context before after)
    (inner : movable (.phrase name) = true)
    (alone : ∀ spacing, (grammar.take name ⟨spacing, .none⟩ ⟨text, 0⟩).any
      (·.cursor.rest.isEmpty) = true) : Accepts (before ++ (text ++ after)) := by
  obtain ⟨spacing, rfl⟩ : ∃ spacing, context = ⟨spacing, .none⟩ :=
    ⟨context.spacing, by rw [← sought.looks]⟩
  have spells : Cursor.Spells ⟨text ++ after, before.length⟩ text
      ⟨after, before.length + text.length⟩ := ⟨rfl, rfl⟩
  obtain ⟨found, derives, stop⟩ :=
    derives_of_read_alone inner (alone spacing) spells sought.closes.ends
  exact sought.closes.accepts text found derives (by rw [stop])

end Sought

/-! ## Where no name is left open -/

/-- The text does not end with a character that a name could go on behind. -/
def Fresh (text : List Char) : Prop := ∀ c, text.getLast? = some c → isIdentChar c = false

theorem fresh_nil : Fresh [] := nofun

theorem fresh_of_all {text : List Char} (apart : ∀ c ∈ text, isIdentChar c = false) : Fresh text :=
  fun c last => apart c (List.mem_of_getLast? last)

theorem fresh_blanks {text : List Char} (all_blank : ∀ c ∈ text, isBlank c = true) : Fresh text :=
  fresh_of_all fun c listed => (blank_apart (all_blank c listed)).1

theorem Fresh.append {front back : List Char} (fresh : Fresh back)
    (front_fresh : back = [] → Fresh front) : Fresh (front ++ back) := by
  cases back with
  | nil => simpa using front_fresh rfl
  | cons c rest =>
    intro last is_last
    exact fresh last (by rwa [List.getLast?_append_of_ne_nil _ (List.cons_ne_nil c rest)] at is_last)

/-- The phrases that are sought where no name is left open: operands, their parts that are words or
numbers, and expressions. -/
def opensWord : Phrase → Bool
  | .expression | .primary | .grouped | .sibling | .fieldPath | .call | .ident | .nil | .boolean
  | .number | .float | .integer | .string | .current | .index => true
  | _ => false

/-- Whether such a phrase may be looked for right where the form is. -/
def opensAt : Form Phrase → Bool
  | .phrase name => opensWord name
  | .seq first second => opensAt first || first.mayBeEmpty mayBeEmpty && opensAt second
  | .choice first second => opensAt first || opensAt second
  | .optional form | .many form => opensAt form
  | _ => false

def isOperator (name : Phrase) : Bool :=
  name == .binaryOperator || name == .unaryOperator || name == .not || name == .neg ||
    binaryOperators.contains name

/-- Whether what is read as the form ends with a character that is no part of a name. -/
def endsApart : Form Phrase → Bool
  | .text chars => chars.getLast?.all fun c => !isIdentChar c
  | .phrase name => isOperator name
  | .choice first second => endsApart first && endsApart second
  | .many form => endsApart form
  | _ => false

/-- Whether nothing in the form leaves a name open where such a phrase is looked for. -/
def keepsApart : Form Phrase → Bool
  | .seq first second => keepsApart first && keepsApart second && (!opensAt second || endsApart first)
  | .choice first second => keepsApart first && keepsApart second
  | .optional form => keepsApart form
  | .many form => keepsApart form && !opensAt form
  | _ => true

theorem endsApart_form {name : Phrase} (apart : isOperator name = true) :
    endsApart name.form = true := by
  cases name <;> first | rfl | cases apart

theorem keepsApart_form {name : Phrase} (inner : movable (.phrase name) = true) :
    keepsApart name.form = true := by
  revert inner
  cases name <;> decide

theorem opensWord_of_form {name : Phrase} (inner : movable (.phrase name) = true)
    (opens : opensAt name.form = true) : opensWord name = true := by
  revert inner opens
  cases name <;> decide

theorem isBlank_of_blanks {context : Context} {start stop : Cursor} {chars : List Char}
    (blanks : grammar.Blanks context start stop) (spells : start.Spells chars stop) :
    ∀ c ∈ chars, isBlank c = true := by
  unfold Blanks at blanks
  split at blanks
  · obtain ⟨run, all_blank, rest, offset⟩ := blanks
    cases spells.chars_eq ⟨rest, offset⟩
    exact all_blank
  · cases blanks
    cases (Cursor.Spells.refl start).chars_eq spells
    exact nofun

section

variable {ahead : Form Phrase → Context → Cursor → Prop}

mutual

theorem fresh_of_derives {form : Form Phrase} {context : Context} {cursor : Cursor}
    {found : Found Phrase} {chars : List Char} :
    Derives grammar ahead form context cursor found → endsApart form = true →
      cursor.Spells chars found.cursor → Fresh chars
  | @Derives.text _ _ _ text rest _ _ here, apart, spells => by
    cases spells.chars_eq ⟨here, rfl⟩
    intro c last
    simpa [endsApart, last] using apart
  | .phrase inner, apart, spells => by
    rw [present_cursor] at spells
    exact fresh_of_derives inner (endsApart_form apart) spells
  | .first inner, apart, spells =>
    fresh_of_derives inner (Bool.and_eq_true_iff.mp apart).1 spells
  | .second inner, apart, spells =>
    fresh_of_derives inner (Bool.and_eq_true_iff.mp apart).2 spells
  | .noRound, _, spells => by
    cases (Cursor.Spells.refl _).chars_eq spells
    exact fresh_nil
  | .rounds inner, apart, spells => fresh_of_rounds inner apart spells

theorem fresh_of_rounds {form : Form Phrase} {context : Context} {cursor : Cursor}
    {found : Found Phrase} {chars : List Char} :
    Rounds grammar ahead form context cursor found → endsApart form = true →
      cursor.Spells chars found.cursor → Fresh chars
  | .last inner, apart, spells => fresh_of_derives inner apart spells
  | .more front blanks back, apart, spells => by
    obtain ⟨front_chars, in_front⟩ : ∃ chars, cursor.Spells chars _ := (front.advances ranking).1
    obtain ⟨blank_chars, in_blanks⟩ : ∃ chars, Cursor.Spells _ chars _ := blanks.reaches
    obtain ⟨back_chars, in_back⟩ : ∃ chars, Cursor.Spells _ chars _ := (back.advances ranking).1
    cases (in_front.append (in_blanks.append in_back)).chars_eq spells
    exact ((fresh_of_rounds back apart in_back).append fun _ =>
      fresh_blanks (isBlank_of_blanks blanks in_blanks)).append fun _ =>
        fresh_of_derives front apart in_front

end

end

/-- Behind what was read as a form that ends apart, and blanks, no name is left open. -/
theorem Passes.fresh {form : Form Phrase} {context : Context} {before chars : List Char}
    (passes : Passes form context chars) (apart : endsApart form = true)
    (still : form.mayBeEmpty mayBeEmpty = true → Fresh before) : Fresh (before ++ chars) := by
  obtain ⟨ahead, cursor, found, middle, -, derives, blanks, spells⟩ := passes
  obtain ⟨reaches, takes_some⟩ := derives.advances ranking
  obtain ⟨form_chars, in_form⟩ : ∃ chars, cursor.Spells chars found.cursor := reaches
  obtain ⟨blank_chars, in_blanks⟩ : ∃ chars, found.cursor.Spells chars middle := blanks.reaches
  cases (in_form.append in_blanks).chars_eq spells
  have read_fresh : Fresh (form_chars ++ blank_chars) :=
    (fresh_blanks (isBlank_of_blanks blanks in_blanks)).append fun _ =>
      fresh_of_derives derives apart in_form
  refine read_fresh.append fun nothing => still ?_
  -- A form that takes nothing may be empty.
  by_contra some_char
  have shorter := takes_some (Bool.eq_false_iff.mpr some_char)
  obtain ⟨rfl, -⟩ := List.append_eq_nil_iff.mp nothing
  rw [in_form.eq_of_nil] at shorter
  exact absurd shorter (Nat.lt_irrefl _)

/-- Where a form keeps names apart, the phrases that open a word are looked for behind no name. -/
theorem Part.fresh {context : Context} {name : Phrase} {place later before after : List Char}
    {form : Form Phrase} (part : Part context name place later form before after)
    (opens : opensWord name = true) (keeps : keepsApart form = true)
    (still : opensAt form = true → Fresh before) : Fresh place := by
  induction part with
  | phrase => exact still opens
  | choice_first _ ih =>
    simp only [keepsApart, Bool.and_eq_true] at keeps
    exact ih keeps.1 fun opens => still (by simp [opensAt, opens])
  | choice_second _ ih =>
    simp only [keepsApart, Bool.and_eq_true] at keeps
    exact ih keeps.2 fun opens => still (by simp [opensAt, opens])
  | optional _ ih => exact ih keeps still
  | first_round _ ih =>
    simp only [keepsApart, Bool.and_eq_true] at keeps
    exact ih keeps.1 still
  | next_round _ _ _ ih =>
    simp only [keepsApart, Bool.and_eq_true, Bool.not_eq_true'] at keeps
    exact ih keeps.1 fun opens => absurd opens (Bool.eq_false_iff.mp keeps.2)
  | seq_first _ _ _ _ ih | before_ending _ ih =>
    simp only [keepsApart, Bool.and_eq_true] at keeps
    exact ih keeps.1.1 fun opens => still (by simp [opensAt, opens])
  | seq_second _ _ passes _ ih =>
    simp only [keepsApart, Bool.and_eq_true, Bool.or_eq_true, Bool.not_eq_true'] at keeps
    obtain ⟨⟨-, keeps_second⟩, apart⟩ := keeps
    refine ih keeps_second fun opens => passes.fresh ?_ fun empty => still ?_
    · exact apart.resolve_left (by simp [opens])
    · simp [opensAt, opens, empty]

/-- Operands, and the words in them, are sought where no name is left open. -/
theorem Sought.fresh {name : Phrase} {context : Context} {before after : List Char}
    (sought : Sought name context before after) (opens : opensWord name = true) : Fresh before := by
  induction sought with
  | clause => exact fresh_nil
  | body all_blank part => exact part.fresh opens rfl fun _ => fresh_blanks all_blank
  | part _ inner _ part ih =>
    exact part.fresh opens (keepsApart_form inner) fun opens => ih (opensWord_of_form inner opens)

/-! ## Where an operand is still to come -/

def isPrefix (name : Phrase) : Bool := name == .unaryOperator || name == .not || name == .neg

/-- Whether a prefix operator may be looked for at the end of the form, with nothing of the form
behind it. -/
def endsPrefixed : Form Phrase → Bool
  | .phrase name => isPrefix name
  | .seq _ second => endsPrefixed second
  | .choice first second => endsPrefixed first || endsPrefixed second
  | .optional form | .many form => endsPrefixed form
  | _ => false

/-- Whether each prefix operator in the form is followed by an operand, or is at its end. -/
def keepsOperands : Form Phrase → Bool
  | .seq first second => keepsOperands first && keepsOperands second &&
      (!endsPrefixed first || (shortest second).head? == some '$')
  | .choice first second => keepsOperands first && keepsOperands second
  | .optional form | .many form => keepsOperands form
  | _ => true

theorem keepsOperands_form (name : Phrase) : keepsOperands name.form = true := by
  cases name <;> decide

theorem isPrefix_of_form {name : Phrase} (ends : endsPrefixed name.form = true) :
    isPrefix name = true := by
  revert ends
  cases name <;> decide

theorem Part.before_operand {context : Context} {name : Phrase}
    {place later before after : List Char} {form : Form Phrase}
    (part : Part context name place later form before after) (leads : isPrefix name = true)
    (keeps : keepsOperands form = true)
    (still : endsPrefixed form = true → after.head? = some '$') : later.head? = some '$' := by
  induction part with
  | phrase => exact still leads
  | choice_first _ ih =>
    simp only [keepsOperands, Bool.and_eq_true] at keeps
    exact ih keeps.1 fun ends => still (by simp [endsPrefixed, ends])
  | choice_second _ ih =>
    simp only [keepsOperands, Bool.and_eq_true] at keeps
    exact ih keeps.2 fun ends => still (by simp [endsPrefixed, ends])
  | optional _ ih | first_round _ ih | next_round _ _ _ ih => exact ih keeps still
  | seq_first _ _ _ _ ih =>
    simp only [keepsOperands, Bool.and_eq_true, Bool.or_eq_true, Bool.not_eq_true',
      beq_iff_eq] at keeps
    refine ih keeps.1.1 fun ends => ?_
    have operand := keeps.2.resolve_left (by simp [ends])
    rw [List.head?_append, operand, Option.some_or]
  | seq_second _ _ _ _ ih =>
    simp only [keepsOperands, Bool.and_eq_true] at keeps
    exact ih keeps.1.2 still
  | before_ending _ ih =>
    simp only [keepsOperands, Bool.and_eq_true, Bool.or_eq_true, Bool.not_eq_true'] at keeps
    exact ih keeps.1.1 fun ends => absurd ends (by simpa [shortest, sample] using keeps.2)

/-- Where a prefix operator is sought, an operand is still to come. -/
theorem Sought.before_operand {name : Phrase} {context : Context} {before after : List Char}
    (sought : Sought name context before after) (leads : isPrefix name = true) :
    after.head? = some '$' := by
  induction sought with
  | clause => cases leads
  | body _ part => exact part.before_operand leads rfl nofun
  | part _ _ _ part ih =>
    exact part.before_operand leads (keepsOperands_form _) fun ends => ih (isPrefix_of_form ends)

end Phrase

end Proviso
