/- # Proviso.Proofs.Clause.Locality -- what is derivable at a place is derivable elsewhere

How a phrase is read depends on the characters that it takes, and on little of what follows: the
grammar looks ahead for a character that continues a name, and for one that a quoted text does not
hold as it is, which is followed by a character of the same text.  So a derivation can be moved
(`moves_of_derives`) to any place where the same characters stand; a form that ends with a look ahead
(`endsOpen`) needs a place where no name goes on behind them.  Within a phrase nothing is asked of
the place: where one part ends open, the next one starts with a character of another kind
(`startsApart`).  The trees of the two derivations are alike. -/
import Proviso.Proofs.Clause.Exact
import Proviso.Proofs.Clause.Meaning
import Proviso.Proofs.Clause.Spelling

namespace Proviso

set_option autoImplicit false

/-! ## Places with the same characters -/

namespace Cursor

theorem Spells.chars_eq {start stop : Cursor} {chars chars' : List Char}
    (spells : start.Spells chars stop) (spells' : start.Spells chars' stop) : chars' = chars :=
  List.append_cancel_right (spells'.1.symm.trans spells.1)

theorem Spells.head_eq {start stop start' stop' : Cursor} {c : Char} {chars : List Char}
    (spells : start.Spells (c :: chars) stop) (spells' : start'.Spells (c :: chars) stop') :
    start'.rest.head? = start.rest.head? := by
  rw [spells.1, spells'.1]
  rfl

theorem Spells.append {start middle stop : Cursor} {front back : List Char}
    (first : start.Spells front middle) (second : middle.Spells back stop) :
    start.Spells (front ++ back) stop := by
  refine ⟨?_, ?_⟩
  · rw [first.1, second.1, List.append_assoc]
  · rw [second.2, first.2, List.length_append, Nat.add_assoc]

theorem Spells.refl (cursor : Cursor) : cursor.Spells [] cursor := ⟨rfl, rfl⟩

end Cursor

namespace Phrase

open Grammar

/-! ## Forms that can be moved -/

/-- The phrases that may end with a word or a number, behind which no name may go on. -/
def isOpen : Phrase → Bool
  | .clause | .extended | .expression | .primary | .nil | .boolean | .number | .integer => true
  | _ => false

/-- Whether the form may end with a look ahead. -/
def endsOpen : Form Phrase → Bool
  | .text _ | .textAnyCase _ | .char _ | .startOfInput | .endOfInput => false
  | .phrase name => isOpen name
  | .seq first second => endsOpen second || second.mayBeEmpty mayBeEmpty && endsOpen first
  | .choice first second => endsOpen first || endsOpen second
  | .optional form | .many form => endsOpen form
  | .notAhead _ => true

/-- Whether the form starts with a character that continues no name, if it takes any. -/
def startsApart : Form Phrase → Bool
  | .text (c :: _) => !isIdentChar c
  | .phrase name => name == .binaryOperator || name == .endOfInput
  | .seq first _ => !first.mayBeEmpty mayBeEmpty && startsApart first
  | .optional form | .many form => startsApart form
  | _ => false

/-- Whether the second form can stand behind the first: names end in between. -/
def joins (first second : Form Phrase) : Bool :=
  !endsOpen first || (second.progresses mayBeEmpty && startsApart second)

/-- A look ahead for one of two characters, and then the character that is there. -/
def isGuarded : Form Phrase → Form Phrase → Bool
  | .notAhead (.choice (.text [_]) (.text [_])), .char _ => true
  | _, _ => false

/-- Whether derivations of the form can be moved: it looks ahead for the character that it takes
next, or for one that continues a name, and asks for neither end of the text. -/
def movable : Form Phrase → Bool
  | .text _ | .textAnyCase _ | .char _ | .notAhead (.phrase .identChar) => true
  | .startOfInput | .endOfInput | .notAhead _ => false
  | .phrase name => name != .clause && name != .endOfInput
  | .seq first second => isGuarded first second || (movable first && movable second &&
      joins first second)
  | .choice first second => movable first && movable second
  | .optional form => movable form
  | .many form => movable form && joins form form && !form.mayBeEmpty mayBeEmpty

/-- The form of every phrase within a clause can be moved. -/
theorem movable_form {name : Phrase} (inner : movable (.phrase name) = true) :
    movable name.form = true := by
  cases name <;> first | rfl | cases inner

theorem endsOpen_form {name : Phrase} (ends : endsOpen name.form = true) : isOpen name = true := by
  cases name <;> first | rfl | cases ends

theorem isGuarded_cases {first second : Form Phrase} (guarded : isGuarded first second = true) :
    ∃ one other accepts, first = .notAhead (.choice (.text [one]) (.text [other])) ∧
      second = .char accepts := by
  unfold isGuarded at guarded
  split at guarded
  · exact ⟨_, _, _, rfl, rfl⟩
  · cases guarded

theorem movable_notAhead {look : Form Phrase} (inner : movable (.notAhead look) = true) :
    look = .phrase .identChar := by
  unfold movable at inner
  split at inner <;> simp_all

/-! ## Looks ahead -/

theorem ahead_of_head {one other : Char} {context : Context} {first second : Cursor}
    (same : second.rest.head? = first.rest.head?)
    (ahead : grammar.Ahead (.choice (.text [one]) (.text [other])) context second) :
    grammar.Ahead (.choice (.text [one]) (.text [other])) context first := by
  obtain ⟨found, derives⟩ := ahead
  have at_first {c : Char} {rest : List Char} (at_second : second.rest = [c] ++ rest) :
      ∃ tail, first.rest = [c] ++ tail := by
    rw [at_second, eq_comm] at same
    exact List.head?_eq_some_iff.mp same
  rcases derives_choice.mp derives with is_one | is_other
  · obtain ⟨rest, here, -⟩ := derives_text.mp is_one
    obtain ⟨tail, there⟩ := at_first here
    exact ⟨_, .first (.text there)⟩
  · obtain ⟨rest, here, -⟩ := derives_text.mp is_other
    obtain ⟨tail, there⟩ := at_first here
    exact ⟨_, .second (.text there)⟩

/-- A look ahead finds each quote that stands there; what else it finds is left open. -/
def SeesQuotes (ahead : Form Phrase → Context → Cursor → Prop) : Prop :=
  ∀ {one other : Char} {context : Context} {cursor : Cursor},
    grammar.Ahead (.choice (.text [one]) (.text [other])) context cursor →
      ahead (.choice (.text [one]) (.text [other])) context cursor

/-! ## Where names end -/

section

variable {ahead : Form Phrase → Context → Cursor → Prop} {form first second : Form Phrase}
  {context : Context} {stop middle : Cursor} {found : Found Phrase}

theorem apart_of_mayStart {c : Char} (apart : startsApart form = true)
    (may : form.mayStart mayBeEmpty starts grammar.blank c = true) : isIdentChar c = false := by
  induction form with
  | text chars =>
    cases chars with
    | nil => cases apart
    | cons first rest =>
      have same : first = c := by simpa [Form.mayStart] using may
      subst same
      simpa [startsApart] using apart
  | phrase name =>
    rcases Bool.or_eq_true_iff.mp apart with operator | ending
    · cases beq_iff_eq.mp operator
      have starts : isOperatorStart c = true := may
      exact (boundary_apart (by simp [isBoundary, starts])).1
    · cases beq_iff_eq.mp ending
      cases may
  | seq first second ih_first _ =>
    obtain ⟨takes, apart⟩ := Bool.and_eq_true_iff.mp apart
    refine ih_first apart ?_
    simpa [Form.mayStart, (Bool.not_eq_true' _).mp takes] using may
  | optional form ih | many form ih => exact ih apart may
  | textAnyCase | char | startOfInput | endOfInput | choice | notAhead => cases apart

/-- A name ends between two forms that can stand behind each other, or behind both if the second one
takes nothing. -/
theorem lacks_between (joined : joins first second = true) (ends : endsOpen first = true)
    (blanks : grammar.Blanks context stop middle)
    (derives : Derives grammar ahead second context middle found)
    (behind : endsOpen (.seq first second) = true → found.cursor.Lacks isIdentChar) :
    stop.Lacks isIdentChar := by
  simp only [joins, ends, Bool.not_true, Bool.false_or, Bool.and_eq_true] at joined
  refine blanks.lacks (fun c blank => (blank_apart blank).1) ?_
  by_cases takes : found.cursor.rest.length < middle.rest.length
  · obtain ⟨c, here, may⟩ := derives.mayStart firsts joined.1 takes
    exact Cursor.lacks_of_head here (apart_of_mayStart joined.2 may)
  · obtain ⟨reaches, takes_some⟩ := derives.advances ranking
    rw [← reaches.eq_of_not_lt takes]
    have nothing : second.mayBeEmpty mayBeEmpty = true := by
      by_contra some_char
      exact takes (takes_some (Bool.eq_false_iff.mpr some_char))
    exact behind (by simp [endsOpen, ends, nothing])

theorem lacks_before_rounds (joined : joins first second = true) (ends : endsOpen first = true)
    (some_char : second.mayBeEmpty mayBeEmpty = false)
    (blanks : grammar.Blanks context stop middle)
    (rounds : Rounds grammar ahead second context middle found) : stop.Lacks isIdentChar := by
  simp only [joins, ends, Bool.not_true, Bool.false_or, Bool.and_eq_true] at joined
  refine blanks.lacks (fun c blank => (blank_apart blank).1) ?_
  obtain ⟨c, here, may⟩ := rounds.mayStart firsts joined.1 some_char
  exact Cursor.lacks_of_head here (apart_of_mayStart joined.2 may)

end

/-! ## Moving derivations -/

theorem blanks_move {context : Context} {start stop start' stop' : Cursor} {chars : List Char}
    (blanks : grammar.Blanks context start stop) (spells : start.Spells chars stop)
    (spells' : start'.Spells chars stop') : grammar.Blanks context start' stop' := by
  unfold Blanks at blanks ⊢
  split at blanks
  · obtain ⟨run, all_blank, rest, offset⟩ := blanks
    cases spells.chars_eq ⟨rest, offset⟩
    exact ⟨chars, all_blank, spells'.1, spells'.2⟩
  · cases blanks
    cases (Cursor.Spells.refl start).chars_eq spells
    exact spells'.eq_of_nil

/-- What is found from a place is found, with trees that are alike, from every place with the same
characters.  If it ends open, no name may go on behind them. -/
def Moves (isOpen : Bool) (derives : Cursor → Found Phrase → Prop) (cursor : Cursor)
    (found : Found Phrase) : Prop :=
  ∀ chars cursor' stop', cursor.Spells chars found.cursor → cursor'.Spells chars stop' →
    (isOpen = true → stop'.Lacks isIdentChar) →
    ∃ found', derives cursor' found' ∧ found'.cursor = stop' ∧ AllAlike found.trees found'.trees

/-- What is found one after the other, with blanks between, can be moved with them, if names end in
between. -/
theorem Moves.append {first second both : Cursor → Found Phrase → Prop} {context : Context}
    {cursor middle : Cursor} {front back : Found Phrase} {open_first open_second open_both : Bool}
    (front_moves : Moves open_first first cursor front)
    (back_moves : Moves open_second second middle back) (to_front : cursor.Reaches front.cursor)
    (blanks : grammar.Blanks context front.cursor middle) (to_back : middle.Reaches back.cursor)
    (ends : open_second = true → open_both = true)
    (between : ∀ {stop middle back}, grammar.Blanks context stop middle → second middle back →
      (open_both = true → back.cursor.Lacks isIdentChar) → open_first = true →
      stop.Lacks isIdentChar)
    (join : ∀ {cursor middle front back}, first cursor front →
      grammar.Blanks context front.cursor middle → second middle back →
      both cursor ⟨front.trees ++ back.trees, back.cursor⟩) :
    Moves open_both both cursor ⟨front.trees ++ back.trees, back.cursor⟩ := by
  intro chars cursor' stop' spells spells' behind
  obtain ⟨front_chars, in_front⟩ : ∃ chars, cursor.Spells chars front.cursor := to_front
  obtain ⟨blank_chars, in_blanks⟩ : ∃ chars, front.cursor.Spells chars middle := blanks.reaches
  obtain ⟨back_chars, in_back⟩ : ∃ chars, middle.Spells chars back.cursor := to_back
  cases (in_front.append (in_blanks.append in_back)).chars_eq spells
  obtain ⟨front_stop, in_front', rest'⟩ := spells'.split
  obtain ⟨middle', in_blanks', in_back'⟩ := rest'.split
  have blanks' := blanks_move blanks in_blanks in_blanks'
  obtain ⟨back', second_found, rfl, back_alike⟩ :=
    back_moves back_chars middle' stop' in_back in_back' (behind ∘ ends)
  obtain ⟨front', first_found, rfl, front_alike⟩ :=
    front_moves front_chars cursor' front_stop in_front in_front'
      (between blanks' second_found behind)
  exact ⟨_, join first_found blanks' second_found, rfl, front_alike.append back_alike⟩

/-- A phrase makes the same of what was found in two places, places aside. -/
theorem alike_present (name : Phrase) (context : Context) {cursor cursor' : Cursor}
    {found found' : Found Phrase} (alike : AllAlike found.trees found'.trees)
    (same_text : cursor'.textTo found'.cursor = cursor.textTo found.cursor) :
    AllAlike (grammar.present name context cursor found).trees
      (grammar.present name context cursor' found').trees := by
  have either (is_node : Bool) : AllAlike
      (if is_node then (⟨[.node name cursor.offset (cursor.textTo found.cursor) found.trees],
        found.cursor⟩ : Found Phrase) else found).trees
      (if is_node then (⟨[.node name cursor'.offset (cursor'.textTo found'.cursor) found'.trees],
        found'.cursor⟩ : Found Phrase) else found').trees := by
    cases is_node with
    | false => exact alike
    | true => exact ⟨⟨rfl, fun _ => same_text, alike⟩, trivial⟩
  exact either _

/-- A character that is looked at before it is taken. -/
theorem guarded_moves {one other : Char} {accepts : Char → Bool} {context : Context}
    {ahead : Form Phrase → Context → Cursor → Prop} {cursor middle : Cursor} {found : Found Phrase}
    (clear : ¬ grammar.Ahead (.choice (.text [one]) (.text [other]))
      { context with lookahead := context.lookahead.flip } cursor)
    (blanks : grammar.Blanks context cursor middle)
    (derives : Derives grammar ahead (.char accepts) context middle found) (isOpen : Bool) :
    Moves isOpen (grammar.Derivable
      (.seq (.notAhead (.choice (.text [one]) (.text [other]))) (.char accepts)) context) cursor
      found := by
  intro chars cursor' stop' spells spells' _
  obtain ⟨c, rest, here, accepted, rfl⟩ := derives_char.mp derives
  obtain ⟨blank_chars, in_blanks⟩ : ∃ chars, cursor.Spells chars middle := blanks.reaches
  have single : middle.Spells [c] ⟨rest, middle.offset + 1⟩ := ⟨here, rfl⟩
  cases (in_blanks.append single).chars_eq spells
  have same_head : cursor'.rest.head? = cursor.rest.head? := by
    cases blank_chars with
    | nil => exact spells.head_eq spells'
    | cons blank more => exact spells.head_eq spells'
  obtain ⟨middle', in_blanks', single'⟩ := spells'.split
  exact ⟨⟨[], stop'⟩, .seq (.notAhead fun ahead => clear (ahead_of_head same_head ahead))
    (blanks_move blanks in_blanks in_blanks') (spelled_char accepted single'), rfl, trivial⟩

section

variable {ahead : Form Phrase → Context → Cursor → Prop}

mutual

/-- A derivation, whatever its looks ahead were for names, can be moved to any place where the same
characters stand, if no name goes on behind them. -/
theorem moves_of_derives (sees : SeesQuotes ahead) {form : Form Phrase} {context : Context}
    {cursor : Cursor} {found : Found Phrase} :
    Derives grammar ahead form context cursor found → movable form = true →
      Moves (endsOpen form) (grammar.Derivable form context) cursor found
  | @Derives.text _ _ _ chars rest _ _ here, _ => by
    intro chars' cursor' stop' spells spells' _
    cases spells.chars_eq ⟨here, rfl⟩
    exact ⟨⟨[], stop'⟩, spelled_text spells', rfl, trivial⟩
  | @Derives.textAnyCase _ _ _ chars front rest _ _ here same, _ => by
    intro chars' cursor' stop' spells spells' _
    have length_eq := congrArg List.length same
    rw [List.length_map, List.length_map] at length_eq
    cases spells.chars_eq ⟨here, by rw [length_eq]⟩
    refine ⟨_, .textAnyCase spells'.1 same, ?_, trivial⟩
    show (⟨stop'.rest, cursor'.offset + chars.length⟩ : Cursor) = stop'
    rw [← length_eq, ← spells'.2]
  | @Derives.char _ _ _ accepts c rest _ cursor here accepted, _ => by
    intro chars' cursor' stop' spells spells' _
    have single : cursor.Spells [c] ⟨rest, cursor.offset + 1⟩ := ⟨here, rfl⟩
    cases spells.chars_eq single
    exact ⟨⟨[], stop'⟩, spelled_char accepted spells', rfl, trivial⟩
  | @Derives.phrase _ _ _ name context cursor found inner, is_movable => by
    intro chars cursor' stop' spells spells' behind
    rw [present_cursor] at spells
    obtain ⟨found', inner', rfl, alike⟩ := moves_of_derives sees inner (movable_form is_movable)
      chars cursor' stop' spells spells' fun ends => behind (endsOpen_form ends)
    refine ⟨_, .phrase inner', present_cursor .., alike_present name context alike ?_⟩
    rw [spells.textTo_eq, spells'.textTo_eq]
  | @Derives.seq _ _ _ first second context cursor middle _ _ front blanks back, is_movable => by
    rcases Bool.or_eq_true_iff.mp is_movable with guarded | both
    · obtain ⟨one, other, accepts, rfl, rfl⟩ := isGuarded_cases guarded
      cases front with
      | notAhead clear => exact guarded_moves (fun found => clear (sees found)) blanks back _
    · simp only [Bool.and_eq_true] at both
      obtain ⟨⟨movable_first, movable_second⟩, joined⟩ := both
      exact (moves_of_derives sees front movable_first).append
        (moves_of_derives sees back movable_second) (front.advances ranking).1 blanks
        (back.advances ranking).1 (fun ends => by simp [endsOpen, ends])
        (fun blanks derives behind ends => lacks_between joined ends blanks derives behind) .seq
  | .first inner, is_movable => by
    intro chars cursor' stop' spells spells' behind
    obtain ⟨found', inner', moved⟩ := moves_of_derives sees inner
      (Bool.and_eq_true_iff.mp is_movable).1 chars cursor' stop' spells spells'
      fun ends => behind (by simp [endsOpen, ends])
    exact ⟨found', .first inner', moved⟩
  | .second inner, is_movable => by
    intro chars cursor' stop' spells spells' behind
    obtain ⟨found', inner', moved⟩ := moves_of_derives sees inner
      (Bool.and_eq_true_iff.mp is_movable).2 chars cursor' stop' spells spells'
      fun ends => behind (by simp [endsOpen, ends])
    exact ⟨found', .second inner', moved⟩
  | .given inner, is_movable => by
    intro chars cursor' stop' spells spells' behind
    obtain ⟨found', inner', moved⟩ := moves_of_derives sees inner is_movable
      chars cursor' stop' spells spells' behind
    exact ⟨found', .given inner', moved⟩
  | .omitted, _ => by
    intro chars cursor' stop' spells spells' _
    cases (Cursor.Spells.refl _).chars_eq spells
    cases spells'.eq_of_nil
    exact ⟨_, .omitted, rfl, trivial⟩
  | .noRound, _ => by
    intro chars cursor' stop' spells spells' _
    cases (Cursor.Spells.refl _).chars_eq spells
    cases spells'.eq_of_nil
    exact ⟨_, .noRound, rfl, trivial⟩
  | .rounds inner, is_movable => by
    intro chars cursor' stop' spells spells' behind
    obtain ⟨found', inner', moved⟩ := moves_of_rounds sees inner is_movable
      chars cursor' stop' spells spells' behind
    exact ⟨found', .rounds inner', moved⟩
  | .notAhead clear, is_movable => by
    intro chars cursor' stop' spells spells' behind
    cases movable_notAhead is_movable
    cases (Cursor.Spells.refl _).chars_eq spells
    cases spells'.eq_of_nil
    exact ⟨_, .notAhead (not_ahead_of_lacks (behind rfl)), rfl, trivial⟩

theorem moves_of_rounds (sees : SeesQuotes ahead) {form : Form Phrase} {context : Context}
    {cursor : Cursor} {found : Found Phrase} :
    Rounds grammar ahead form context cursor found → movable (.many form) = true →
      Moves (endsOpen form) (Rounds grammar grammar.Ahead form context) cursor found
  | .last inner, is_movable => by
    simp only [movable, Bool.and_eq_true] at is_movable
    intro chars cursor' stop' spells spells' behind
    obtain ⟨found', inner', moved⟩ := moves_of_derives sees inner is_movable.1.1
      chars cursor' stop' spells spells' behind
    exact ⟨found', .last inner', moved⟩
  | .more front blanks back, is_movable => by
    have both := is_movable
    simp only [movable, Bool.and_eq_true, Bool.not_eq_true'] at both
    obtain ⟨⟨movable_round, joined⟩, some_char⟩ := both
    exact (moves_of_derives sees front movable_round).append
      (moves_of_rounds sees back is_movable) (front.advances ranking).1 blanks
      (back.advances ranking).1 id
      (fun blanks rounds _ ends => lacks_before_rounds joined ends some_char blanks rounds) .more

end

end

end Phrase

end Proviso
