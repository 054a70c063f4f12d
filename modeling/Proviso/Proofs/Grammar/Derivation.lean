/- # Proviso.Proofs.Grammar.Derivation -- grammars read without preferences

The context-free reading of a grammar: any alternative of a choice, any number of rounds of a
repetition, any run of blanks where the matcher skips blanks.  A look ahead that must fail stays as
a condition on what follows (`Grammar.Ahead`).

What the matcher takes is derivable (`derivable_of_take`), looks ahead aside for any grammar
(`derives_of_take`).  Which characters a phrase can start with is read off the grammar once, for all
phrases (`Grammar.Firsts`); so a phrase that cannot start with the next character is neither
derivable there nor taken. -/
import Mathlib.Data.List.DropRight
import Mathlib.Data.List.TakeWhile
import Proviso.Proofs.Grammar.Recognize

namespace Proviso

set_option autoImplicit false

/-- What the form looks ahead for. -/
def Form.looks {Name : Type} : Form Name → List (Form Name)
  | .text _ | .textAnyCase _ | .char _ | .startOfInput | .endOfInput | .phrase _ => []
  | .seq first second | .choice first second => first.looks ++ second.looks
  | .optional form | .many form => form.looks
  | .notAhead form => [form]

namespace Grammar

variable {Name : Type}

/-- Blanks, any number of them, where blanks may stand. -/
def Blanks (grammar : Grammar Name) (context : Context) (start stop : Cursor) : Prop :=
  match context.spacing with
  | .free => ∃ blanks, (∀ c ∈ blanks, grammar.blank c = true) ∧ start.rest = blanks ++ stop.rest ∧
      stop.offset = start.offset + blanks.length
  | _ => stop = start

mutual

/-- A form is read at a place, in a context, as a context-free grammar; `ahead` says what a look
ahead would find. -/
inductive Derives (grammar : Grammar Name) (ahead : Form Name → Context → Cursor → Prop) :
    Form Name → Context → Cursor → Found Name → Prop where
  | text {chars rest : List Char} {context : Context} {cursor : Cursor}
      (here : cursor.rest = chars ++ rest) :
      Derives grammar ahead (.text chars) context cursor
        ⟨[], ⟨rest, cursor.offset + chars.length⟩⟩
  | textAnyCase {chars front rest : List Char} {context : Context} {cursor : Cursor}
      (here : cursor.rest = front ++ rest)
      (same : front.map Char.toLower = chars.map Char.toLower) :
      Derives grammar ahead (.textAnyCase chars) context cursor
        ⟨[], ⟨rest, cursor.offset + chars.length⟩⟩
  | char {accepts : Char → Bool} {c : Char} {rest : List Char} {context : Context}
      {cursor : Cursor} (here : cursor.rest = c :: rest) (accepted : accepts c = true) :
      Derives grammar ahead (.char accepts) context cursor ⟨[], ⟨rest, cursor.offset + 1⟩⟩
  | startOfInput {context : Context} {cursor : Cursor} (first : cursor.offset = 0) :
      Derives grammar ahead .startOfInput context cursor ⟨[], cursor⟩
  | endOfInput {context : Context} {cursor : Cursor} (last : cursor.rest = []) :
      Derives grammar ahead .endOfInput context cursor ⟨[], cursor⟩
  | phrase {name : Name} {context : Context} {cursor : Cursor} {found : Found Name}
      (inner : Derives grammar ahead (grammar.form name) (grammar.inside name context) cursor
        found) :
      Derives grammar ahead (.phrase name) context cursor
        (grammar.present name context cursor found)
  | seq {first second : Form Name} {context : Context} {cursor middle : Cursor}
      {found next : Found Name} (front : Derives grammar ahead first context cursor found)
      (blanks : grammar.Blanks context found.cursor middle)
      (back : Derives grammar ahead second context middle next) :
      Derives grammar ahead (.seq first second) context cursor
        ⟨found.trees ++ next.trees, next.cursor⟩
  | first {first second : Form Name} {context : Context} {cursor : Cursor} {found : Found Name}
      (inner : Derives grammar ahead first context cursor found) :
      Derives grammar ahead (.choice first second) context cursor found
  | second {first second : Form Name} {context : Context} {cursor : Cursor} {found : Found Name}
      (inner : Derives grammar ahead second context cursor found) :
      Derives grammar ahead (.choice first second) context cursor found
  | given {form : Form Name} {context : Context} {cursor : Cursor} {found : Found Name}
      (inner : Derives grammar ahead form context cursor found) :
      Derives grammar ahead (.optional form) context cursor found
  | omitted {form : Form Name} {context : Context} {cursor : Cursor} :
      Derives grammar ahead (.optional form) context cursor ⟨[], cursor⟩
  | noRound {form : Form Name} {context : Context} {cursor : Cursor} :
      Derives grammar ahead (.many form) context cursor ⟨[], cursor⟩
  | rounds {form : Form Name} {context : Context} {cursor : Cursor} {found : Found Name}
      (inner : Rounds grammar ahead form context cursor found) :
      Derives grammar ahead (.many form) context cursor found
  | notAhead {form : Form Name} {context : Context} {cursor : Cursor}
      (clear : ¬ ahead form { context with lookahead := context.lookahead.flip } cursor) :
      Derives grammar ahead (.notAhead form) context cursor ⟨[], cursor⟩

/-- A form is read once or more often, with blanks between. -/
inductive Rounds (grammar : Grammar Name) (ahead : Form Name → Context → Cursor → Prop) :
    Form Name → Context → Cursor → Found Name → Prop where
  | last {form : Form Name} {context : Context} {cursor : Cursor} {found : Found Name}
      (inner : Derives grammar ahead form context cursor found) :
      Rounds grammar ahead form context cursor found
  | more {form : Form Name} {context : Context} {cursor middle : Cursor}
      {found next : Found Name} (front : Derives grammar ahead form context cursor found)
      (blanks : grammar.Blanks context found.cursor middle)
      (back : Rounds grammar ahead form context middle next) :
      Rounds grammar ahead form context cursor ⟨found.trees ++ next.trees, next.cursor⟩

end

/-- A look ahead finds a form; nothing is asked of a look ahead within it. -/
def Ahead (grammar : Grammar Name) (form : Form Name) (context : Context) (cursor : Cursor) :
    Prop :=
  ∃ found, Derives grammar (fun _ _ _ => False) form context cursor found

abbrev Derivable (grammar : Grammar Name) : Form Name → Context → Cursor → Found Name → Prop :=
  Derives grammar grammar.Ahead

variable {grammar : Grammar Name} {ahead : Form Name → Context → Cursor → Prop}
  {context : Context} {cursor : Cursor} {found : Found Name}

/-! ## Readings of each form -/

theorem derives_text {chars : List Char} :
    Derives grammar ahead (.text chars) context cursor found ↔
      ∃ rest, cursor.rest = chars ++ rest ∧ found = ⟨[], ⟨rest, cursor.offset + chars.length⟩⟩ := by
  constructor
  · intro derives
    cases derives with
    | text here => exact ⟨_, here, rfl⟩
  · rintro ⟨rest, here, rfl⟩
    exact .text here

theorem derives_char {accepts : Char → Bool} :
    Derives grammar ahead (.char accepts) context cursor found ↔
      ∃ c rest, cursor.rest = c :: rest ∧ accepts c = true ∧
        found = ⟨[], ⟨rest, cursor.offset + 1⟩⟩ := by
  constructor
  · intro derives
    cases derives with
    | char here accepted => exact ⟨_, _, here, accepted, rfl⟩
  · rintro ⟨c, rest, here, accepted, rfl⟩
    exact .char here accepted

theorem derives_phrase {name : Name} :
    Derives grammar ahead (.phrase name) context cursor found ↔
      ∃ inner, Derives grammar ahead (grammar.form name) (grammar.inside name context) cursor
        inner ∧ found = grammar.present name context cursor inner := by
  constructor
  · intro derives
    cases derives with
    | phrase inner => exact ⟨_, inner, rfl⟩
  · rintro ⟨inner, derives, rfl⟩
    exact .phrase derives

/-- A phrase that is read in place is read like its form. -/
theorem derives_silent {name : Name} (silent : grammar.mode name = .silent) :
    Derives grammar ahead (.phrase name) context cursor found ↔
      Derives grammar ahead (grammar.form name) context cursor found := by
  rw [derives_phrase, grammar.inside_silent silent]
  simp only [grammar.present_silent silent, exists_eq_right']

theorem derives_seq {first second : Form Name} :
    Derives grammar ahead (.seq first second) context cursor found ↔
      ∃ front middle back, Derives grammar ahead first context cursor front ∧
        grammar.Blanks context front.cursor middle ∧
        Derives grammar ahead second context middle back ∧
        found = ⟨front.trees ++ back.trees, back.cursor⟩ := by
  constructor
  · intro derives
    cases derives with
    | seq front blanks back => exact ⟨_, _, _, front, blanks, back, rfl⟩
  · rintro ⟨front, middle, back, in_front, blanks, in_back, rfl⟩
    exact .seq in_front blanks in_back

theorem derives_choice {first second : Form Name} :
    Derives grammar ahead (.choice first second) context cursor found ↔
      Derives grammar ahead first context cursor found ∨
        Derives grammar ahead second context cursor found := by
  constructor
  · intro derives
    cases derives with
    | first inner => exact .inl inner
    | second inner => exact .inr inner
  · rintro (inner | inner)
    · exact .first inner
    · exact .second inner

/-- One of several alternatives is read. -/
theorem derives_choices {forms : List (Form Name)} (some_form : forms ≠ []) :
    Derives grammar ahead (.choices forms) context cursor found ↔
      ∃ (place : Nat) (form : Form Name), forms[place]? = some form ∧
        Derives grammar ahead form context cursor found := by
  induction forms with
  | nil => exact absurd rfl some_form
  | cons form rest ih =>
    cases rest with
    | nil =>
      constructor
      · exact fun derives => ⟨0, form, rfl, derives⟩
      · rintro ⟨place, other, listed, derives⟩
        cases place with
        | zero =>
          cases listed
          exact derives
        | succ place => simp at listed
    | cons next rest =>
      rw [Form.choices, derives_choice, ih (by simp)]
      · constructor
        · rintro (derives | ⟨place, other, listed, derives⟩)
          · exact ⟨0, form, rfl, derives⟩
          · exact ⟨place + 1, other, listed, derives⟩
        · rintro ⟨place, other, listed, derives⟩
          cases place with
          | zero =>
            cases listed
            exact .inl derives
          | succ place => exact .inr ⟨place, other, listed, derives⟩
      · simp

/-- One of several phrases is read. -/
theorem derives_phrases {names : List Name} (some_name : names ≠ []) :
    Derives grammar ahead (.choices (names.map .phrase)) context cursor found ↔
      ∃ (place : Nat) (name : Name), names[place]? = some name ∧
        Derives grammar ahead (.phrase name) context cursor found := by
  rw [derives_choices (by simpa using some_name)]
  constructor
  · rintro ⟨place, form, listed, derives⟩
    rw [List.getElem?_map, Option.map_eq_some_iff] at listed
    obtain ⟨name, listed, rfl⟩ := listed
    exact ⟨place, name, listed, derives⟩
  · rintro ⟨place, name, listed, derives⟩
    exact ⟨place, .phrase name, by rw [List.getElem?_map, listed]; rfl, derives⟩

theorem derives_optional {form : Form Name} :
    Derives grammar ahead (.optional form) context cursor found ↔
      Derives grammar ahead form context cursor found ∨ found = ⟨[], cursor⟩ := by
  constructor
  · intro derives
    cases derives with
    | given inner => exact .inl inner
    | omitted => exact .inr rfl
  · rintro (inner | rfl)
    · exact .given inner
    · exact .omitted

theorem derives_many {form : Form Name} :
    Derives grammar ahead (.many form) context cursor found ↔
      found = ⟨[], cursor⟩ ∨ Rounds grammar ahead form context cursor found := by
  constructor
  · intro derives
    cases derives with
    | noRound => exact .inl rfl
    | rounds inner => exact .inr inner
  · rintro (rfl | inner)
    · exact .noRound
    · exact .rounds inner

theorem derives_notAhead {form : Form Name} :
    Derives grammar ahead (.notAhead form) context cursor found ↔
      ¬ ahead form { context with lookahead := context.lookahead.flip } cursor ∧
        found = ⟨[], cursor⟩ := by
  constructor
  · intro derives
    cases derives with
    | notAhead clear => exact ⟨clear, rfl⟩
  · rintro ⟨clear, rfl⟩
    exact .notAhead clear

/-! ## Blanks -/

theorem skipBlanks_of_lacks (context : Context) (bare : cursor.Lacks grammar.blank) :
    grammar.skipBlanks context cursor = cursor := by
  unfold skipBlanks
  split
  · have none_blank : cursor.rest.takeWhile grammar.blank = [] := by
      cases here : cursor.rest with
      | nil => rfl
      | cons c rest =>
        have first := bare c (by simp [here])
        simp [first]
    rw [none_blank]
    rfl
  · rfl

/-- No blank is left behind the blanks. -/
theorem lacks_skipBlanks (free : context.spacing = .free) (cursor : Cursor) :
    (grammar.skipBlanks context cursor).Lacks grammar.blank := by
  have rest_eq : (grammar.skipBlanks context cursor).rest =
      cursor.rest.dropWhile grammar.blank := by
    simp only [skipBlanks, free, Cursor.skip]
    have front := List.prefix_iff_eq_append.mp
      (List.takeWhile_prefix grammar.blank (l := cursor.rest))
    exact List.append_cancel_left (front.trans List.takeWhile_append_dropWhile.symm)
  intro c here
  rw [rest_eq] at here
  have not_blank := List.head?_dropWhile_not grammar.blank cursor.rest
  rw [here] at not_blank
  simpa using not_blank

namespace Blanks

variable {start stop : Cursor}

theorem reaches (blanks : grammar.Blanks context start stop) : start.Reaches stop := by
  unfold Blanks at blanks
  split at blanks
  · obtain ⟨chars, -, rest, offset⟩ := blanks
    exact ⟨chars, rest, offset⟩
  · subst blanks
    exact .refl stop

theorem trans {middle : Cursor} (first : grammar.Blanks context start middle)
    (second : grammar.Blanks context middle stop) : grammar.Blanks context start stop := by
  unfold Blanks at first second ⊢
  split at first <;> rename_i free
  · simp only [free] at second
    obtain ⟨front, front_blank, rest, offset⟩ := first
    obtain ⟨back, back_blank, rest', offset'⟩ := second
    refine ⟨front ++ back, List.forall_mem_append.mpr ⟨front_blank, back_blank⟩, ?_, ?_⟩
    · rw [rest, rest', List.append_assoc]
    · rw [offset', offset, List.length_append, Nat.add_assoc]
  · split at second
    · exact absurd ‹_› free
    · rw [second, first]

/-- Blanks lead to the place after all blanks. -/
theorem skipBlanks_eq (blanks : grammar.Blanks context start stop) :
    grammar.skipBlanks context stop = grammar.skipBlanks context start := by
  unfold Blanks at blanks
  unfold skipBlanks
  cases spaced : context.spacing with
  | free =>
    rw [spaced] at blanks
    obtain ⟨chars, all_blank, rest, offset⟩ := blanks
    simp only [Cursor.skip, rest, offset]
    rw [List.takeWhile_append_of_pos all_blank, List.length_append, ← List.drop_drop,
      List.drop_left, Nat.add_assoc]
  | atomic | compound =>
    rw [spaced] at blanks
    exact blanks

/-- Blanks up to something that is no blank are all the blanks. -/
theorem eq_skipBlanks (blanks : grammar.Blanks context start stop)
    (bare : stop.Lacks grammar.blank) :
    stop = grammar.skipBlanks context start := by
  rw [← blanks.skipBlanks_eq, skipBlanks_of_lacks context bare]

theorem head (blanks : grammar.Blanks context start stop)
    (some_blank : stop.rest.length < start.rest.length) :
    ∃ c, start.rest.head? = some c ∧ grammar.blank c = true := by
  unfold Blanks at blanks
  split at blanks
  · obtain ⟨chars, all_blank, rest, -⟩ := blanks
    cases chars with
    | nil =>
      rw [rest] at some_blank
      simp at some_blank
    | cons c chars => exact ⟨c, by rw [rest]; rfl, all_blank c (by simp)⟩
  · subst blanks
    omega

/-- What is not there behind the blanks, and is no blank, is not there before them. -/
theorem lacks (blanks : grammar.Blanks context start stop) {kind : Char → Bool}
    (apart : ∀ c, grammar.blank c = true → kind c = false) (ends : stop.Lacks kind) :
    start.Lacks kind := by
  by_cases some_blank : stop.rest.length < start.rest.length
  · obtain ⟨c, here, is_blank⟩ := blanks.head some_blank
    exact Cursor.lacks_of_head here (apart c is_blank)
  · rwa [← blanks.reaches.eq_of_not_lt some_blank]

end Blanks

theorem blanks_refl (context : Context) (cursor : Cursor) :
    grammar.Blanks context cursor cursor := by
  unfold Blanks
  split
  · exact ⟨[], by simp, rfl, rfl⟩
  · rfl

theorem blanks_skipBlanks (context : Context) (cursor : Cursor) :
    grammar.Blanks context cursor (grammar.skipBlanks context cursor) := by
  unfold Blanks skipBlanks
  cases context.spacing with
  | free =>
    refine ⟨cursor.rest.takeWhile grammar.blank, fun c listed => ?_, ?_, rfl⟩
    · exact List.mem_takeWhile_imp listed
    · exact (List.prefix_iff_eq_append.mp (List.takeWhile_prefix grammar.blank)).symm
  | atomic => rfl
  | compound => rfl

/-! ## Derivations advance -/

mutual

theorem Derives.advances (ranking : grammar.Ranking) {form : Form Name} {context : Context}
    {cursor : Cursor} {found : Found Name} :
    Derives grammar ahead form context cursor found →
      cursor.Reaches found.cursor ∧
        (form.mayBeEmpty ranking.empty = false → found.cursor.rest.length < cursor.rest.length)
  | @Derives.text _ _ _ chars _ _ _ here => by
    refine ⟨⟨chars, here, rfl⟩, fun some_char => ?_⟩
    have takes : chars ≠ [] := by simpa [Form.mayBeEmpty] using some_char
    have shorter := List.length_pos_iff.mpr takes
    simp only [here, List.length_append]
    omega
  | @Derives.textAnyCase _ _ _ chars front _ _ _ here same => by
    have counted : front.length = chars.length := by simpa using congrArg List.length same
    refine ⟨⟨front, here, by rw [counted]⟩, fun some_char => ?_⟩
    have takes : chars ≠ [] := by simpa [Form.mayBeEmpty] using some_char
    have shorter := List.length_pos_iff.mpr takes
    simp only [here, List.length_append]
    omega
  | .char here _ => ⟨⟨[_], here, rfl⟩, fun _ => by simp [here]⟩
  | .startOfInput _ => ⟨.refl _, fun never => by simp [Form.mayBeEmpty] at never⟩
  | .endOfInput _ => ⟨.refl _, fun never => by simp [Form.mayBeEmpty] at never⟩
  | @Derives.phrase _ _ _ name _ _ _ inner => by
    obtain ⟨reaches, takes⟩ := inner.advances ranking
    rw [present_cursor]
    refine ⟨reaches, fun some_char => takes ?_⟩
    have needs := ranking.empty_of_form name
    rw [show ranking.empty name = false from some_char] at needs
    simpa using needs
  | .seq front blanks back => by
    obtain ⟨reaches_front, takes_front⟩ := front.advances ranking
    obtain ⟨reaches_back, takes_back⟩ := back.advances ranking
    refine ⟨(reaches_front.trans blanks.reaches).trans reaches_back, fun some_char => ?_⟩
    have front_le := reaches_front.length_le
    have blanks_le := blanks.reaches.length_le
    have back_le := reaches_back.length_le
    dsimp only
    rcases Bool.and_eq_false_iff.mp some_char with in_first | in_second
    · have shorter := takes_front in_first
      omega
    · have shorter := takes_back in_second
      omega
  | .first inner => by
    obtain ⟨reaches, takes⟩ := inner.advances ranking
    exact ⟨reaches, fun some_char => takes (Bool.or_eq_false_iff.mp some_char).1⟩
  | .second inner => by
    obtain ⟨reaches, takes⟩ := inner.advances ranking
    exact ⟨reaches, fun some_char => takes (Bool.or_eq_false_iff.mp some_char).2⟩
  | .given inner => ⟨(inner.advances ranking).1, fun never => by simp [Form.mayBeEmpty] at never⟩
  | .omitted => ⟨.refl _, fun never => by simp [Form.mayBeEmpty] at never⟩
  | .noRound => ⟨.refl _, fun never => by simp [Form.mayBeEmpty] at never⟩
  | .rounds inner => ⟨(inner.advances ranking).1, fun never => by simp [Form.mayBeEmpty] at never⟩
  | .notAhead _ => ⟨.refl _, fun never => by simp [Form.mayBeEmpty] at never⟩

theorem Rounds.advances (ranking : grammar.Ranking) {form : Form Name} {context : Context}
    {cursor : Cursor} {found : Found Name} :
    Rounds grammar ahead form context cursor found →
      cursor.Reaches found.cursor ∧
        (form.mayBeEmpty ranking.empty = false → found.cursor.rest.length < cursor.rest.length)
  | .last inner => inner.advances ranking
  | .more front blanks back => by
    obtain ⟨reaches_front, takes_front⟩ := front.advances ranking
    obtain ⟨reaches_back, -⟩ := back.advances ranking
    refine ⟨(reaches_front.trans blanks.reaches).trans reaches_back, fun some_char => ?_⟩
    have shorter := takes_front some_char
    have blanks_le := blanks.reaches.length_le
    have back_le := reaches_back.length_le
    dsimp only
    omega

end

/-! ## What is taken is derivable -/

theorem Rounds.snoc {form : Form Name} {context : Context} {middle : Cursor} {next : Found Name} :
    ∀ {cursor : Cursor} {found : Found Name}, Rounds grammar ahead form context cursor found →
      grammar.Blanks context found.cursor middle →
      Derives grammar ahead form context middle next →
      Rounds grammar ahead form context cursor ⟨found.trees ++ next.trees, next.cursor⟩
  | _, _, .last inner, blanks, derives => .more inner blanks (.last derives)
  | _, _, .more front between back, blanks, derives => by
    rw [List.append_assoc]
    exact .more front between (back.snoc blanks derives)

section Soundness

variable {take : Name → Recognizer Name}

theorem rounds_derives {form : Form Name} {step : Cursor → Option (Found Name)} {bound : Nat}
    (advances : ∀ cursor found, step cursor = some found → cursor.Reaches found.cursor)
    (sound : ∀ cursor found, cursor.rest.length ≤ bound → step cursor = some found →
      Derives grammar ahead form context cursor found)
    (budget : Nat) {found : Found Name} (within : found.cursor.rest.length ≤ bound)
    (before : Rounds grammar ahead form context cursor found) :
    Rounds grammar ahead form context cursor (grammar.rounds step context budget found) := by
  induction budget generalizing found with
  | zero => exact before
  | succ budget ih =>
    unfold rounds
    split
    · exact before
    · rename_i next taken
      have blanks : grammar.Blanks context found.cursor _ := blanks_skipBlanks context found.cursor
      have blanks_le := Nat.le_trans blanks.reaches.length_le within
      have next_le := (advances _ _ taken).length_le
      exact ih (Nat.le_trans next_le blanks_le) (before.snoc blanks (sound _ _ blanks_le taken))

/-- What a form takes is derivable if that is so for the phrases that are looked for in it, further
on or at its start, and if a look ahead that takes nothing finds nothing. -/
theorem takeForm_derives {empty : Name → Bool} (advances : Advances empty take) (form : Form Name)
    (bound : Nat)
    (sound : ∀ name context (cursor : Cursor) found,
      cursor.rest.length < bound ∨ cursor.rest.length = bound ∧ name ∈ form.heads empty →
        take name context cursor = some found →
        Derives grammar ahead (.phrase name) context cursor found)
    (clear : ∀ look ∈ form.looks, ∀ context cursor,
      grammar.takeForm take look context cursor = none → ¬ ahead look context cursor)
    (context : Context) (cursor : Cursor) (within : cursor.rest.length ≤ bound)
    (found : Found Name) (taken : grammar.takeForm take form context cursor = some found) :
    Derives grammar ahead form context cursor found := by
  induction form generalizing bound context cursor found with
  | text chars =>
    simp only [takeForm, Option.ite_none_right_eq_some, Option.some.injEq,
      List.isPrefixOf_iff_prefix] at taken
    obtain ⟨⟨rest, here⟩, rfl⟩ := taken
    rw [Cursor.skip, ← here, List.drop_left]
    exact .text here.symm
  | textAnyCase chars =>
    simp only [takeForm, Option.ite_none_right_eq_some, Option.some.injEq,
      List.isPrefixOf_iff_prefix] at taken
    obtain ⟨starts, rfl⟩ := taken
    refine .textAnyCase (List.take_append_drop chars.length cursor.rest).symm ?_
    have front := List.prefix_iff_eq_take.mp starts
    rw [List.length_map, ← List.map_take] at front
    exact front.symm
  | char accepts =>
    simp only [takeForm] at taken
    split at taken
    · rename_i c rest here
      simp only [Option.ite_none_right_eq_some, Option.some.injEq] at taken
      obtain ⟨accepted, rfl⟩ := taken
      simp only [Cursor.skip, here, List.drop_one, List.tail_cons]
      exact .char here accepted
    · cases taken
  | startOfInput =>
    simp only [takeForm, Option.ite_none_right_eq_some, Option.some.injEq] at taken
    obtain ⟨first, rfl⟩ := taken
    exact .startOfInput first
  | endOfInput =>
    simp only [takeForm, Option.ite_none_right_eq_some, Option.some.injEq] at taken
    obtain ⟨last, rfl⟩ := taken
    exact .endOfInput (List.isEmpty_iff.mp last)
  | phrase name =>
    refine sound name context cursor found ?_ taken
    rcases Nat.lt_or_eq_of_le within with shorter | equal
    · exact .inl shorter
    · exact .inr ⟨equal, List.mem_singleton_self name⟩
  | seq first second ih_first ih_second =>
    simp only [takeForm, Option.bind_eq_some_iff, Option.map_eq_some_iff] at taken
    obtain ⟨front, taken_front, back, taken_back, rfl⟩ := taken
    obtain ⟨reaches, takes⟩ := takeForm_advances advances first context cursor front taken_front
    have blanks : grammar.Blanks context front.cursor _ := blanks_skipBlanks context front.cursor
    have front_le := reaches.length_le
    have blanks_le := blanks.reaches.length_le
    have clear_second := fun look listed => clear look (List.mem_append_right _ listed)
    have in_front : Derives grammar ahead first context cursor front := by
      refine ih_first bound ?_ (fun look listed => clear look (List.mem_append_left _ listed))
        context cursor within front taken_front
      intro name context cursor found place
      exact sound name context cursor found
        (place.imp_right fun at_start => ⟨at_start.1, List.mem_append_left _ at_start.2⟩)
    -- The second form stands at the start of the sequence only where the first takes nothing.
    refine .seq in_front blanks ?_
    cases first_empty : first.mayBeEmpty empty with
    | true =>
      refine ih_second bound ?_ clear_second context _ (by omega) back taken_back
      intro name context cursor found place
      refine sound name context cursor found (place.imp_right fun at_start => ⟨at_start.1, ?_⟩)
      simp [Form.heads, first_empty, at_start.2]
    | false =>
      have shorter := takes first_empty
      refine ih_second _ ?_ clear_second context _ (Nat.le_refl _) back taken_back
      intro name context cursor found place
      exact sound name context cursor found (.inl (by omega))
  | choice first second ih_first ih_second =>
    simp only [takeForm, Option.or_eq_some_iff] at taken
    rcases taken with taken | ⟨-, taken⟩
    · refine .first (ih_first bound ?_ (fun look listed => clear look
        (List.mem_append_left _ listed)) context cursor within found taken)
      intro name context cursor found place
      exact sound name context cursor found
        (place.imp_right fun at_start => ⟨at_start.1, List.mem_append_left _ at_start.2⟩)
    · refine .second (ih_second bound ?_ (fun look listed => clear look
        (List.mem_append_right _ listed)) context cursor within found taken)
      intro name context cursor found place
      exact sound name context cursor found
        (place.imp_right fun at_start => ⟨at_start.1, List.mem_append_right _ at_start.2⟩)
  | optional form ih =>
    simp only [takeForm, Option.some.injEq] at taken
    cases inner : grammar.takeForm take form context cursor with
    | none =>
      rw [inner] at taken
      exact taken ▸ .omitted
    | some next =>
      rw [inner] at taken
      exact taken ▸ .given (ih bound sound clear _ _ within _ inner)
  | many form ih =>
    simp only [takeForm] at taken
    split at taken
    · cases taken
      exact .noRound
    · rename_i first inner
      cases taken
      have first_le := (takeForm_advances advances form context cursor first inner).1.length_le
      refine .rounds (rounds_derives ?_ (fun cursor found le => ih bound sound clear context cursor
        le found) _ (Nat.le_trans first_le within)
        (.last (ih bound sound clear _ _ within _ inner)))
      exact fun cursor found taken => (takeForm_advances advances form context cursor found taken).1
  | notAhead form ih =>
    simp only [takeForm] at taken
    split at taken
    · cases taken
    · rename_i nothing
      cases taken
      exact .notAhead (clear form (List.mem_singleton_self form) _ _ nothing)

theorem reaches_of_takeUpTo (levels : Nat) :
    Advances (fun _ => true) (grammar.takeUpTo levels) :=
  takeUpTo_advances (fun _ _ => rfl) levels

/-- What a phrase takes is derivable when nothing is asked of looks ahead. -/
theorem derives_of_take {name : Name} {context : Context} {cursor : Cursor} {found : Found Name}
    (taken : grammar.take name context cursor = some found) :
    Derives grammar (fun _ _ _ => False) (.phrase name) context cursor found := by
  unfold Grammar.take at taken
  generalize grammar.names.length * (cursor.rest.length + 1) = levels at taken
  induction levels generalizing name context cursor found with
  | zero => cases taken
  | succ levels ih =>
    simp only [takeUpTo, takePhrase, Option.map_eq_some_iff] at taken
    obtain ⟨inner, taken, rfl⟩ := taken
    exact .phrase (takeForm_derives (reaches_of_takeUpTo levels) _ _
      (fun _ _ _ _ _ taken => ih taken) (fun _ _ _ _ _ => id) _ _ (Nat.le_refl _) _ taken)

/-- Where a look ahead finds nothing, the form takes nothing. -/
theorem takeForm_eq_none {form : Form Name} {context : Context} {cursor : Cursor}
    (clear : ¬ grammar.Ahead form context cursor) :
    grammar.takeForm grammar.take form context cursor = none := by
  cases taken : grammar.takeForm grammar.take form context cursor with
  | none => rfl
  | some found =>
    refine absurd ⟨found, ?_⟩ clear
    have advances : Advances (fun _ => true) grammar.take :=
      fun name context cursor => reaches_of_takeUpTo _ name context cursor
    exact takeForm_derives advances _ _ (fun _ _ _ _ _ => derives_of_take) (fun _ _ _ _ _ => id)
      _ _ (Nat.le_refl _) _ taken

/-- What a phrase takes is derivable, if each look ahead of the grammar that takes nothing finds
nothing. -/
theorem derivable_of_take (ranking : grammar.Ranking)
    (clear : ∀ name, ∀ look ∈ (grammar.form name).looks, ∀ context cursor,
      grammar.taken look context cursor = none → ¬ grammar.Ahead look context cursor)
    {name : Name} {context : Context} {cursor : Cursor} {found : Found Name}
    (taken : grammar.take name context cursor = some found) :
    grammar.Derivable (.phrase name) context cursor found := by
  -- A phrase that is looked for in another one nests less deep.
  induction deep : ranking.depth name cursor using Nat.strong_induction_on
    generalizing name context cursor found with
  | _ depth ih =>
    rw [take_phrase ranking, Option.map_eq_some_iff] at taken
    obtain ⟨inner, taken, rfl⟩ := taken
    refine .phrase (takeForm_derives (take_advances ranking) _ cursor.rest.length ?_ (clear name)
      _ _ (Nat.le_refl _) _ taken)
    intro other context next found place taken
    exact ih _ (deep ▸ ranking.depth_lt place) taken rfl

end Soundness

end Grammar

/-! ## First characters -/

/-- Whether the form may start with a character, as far as the phrases say that they may.  A part
that may be empty may be followed by blanks. -/
def Form.mayStart {Name : Type} (empty : Name → Bool) (starts : Name → Char → Bool)
    (blank : Char → Bool) : Form Name → Char → Bool
  | .text chars, c => chars.head? == some c
  | .textAnyCase chars, c => chars.head?.map Char.toLower == some c.toLower
  | .char accepts, c => accepts c
  | .startOfInput, _ | .endOfInput, _ | .notAhead _, _ => false
  | .phrase name, c => starts name c
  | .seq first second, c => first.mayStart empty starts blank c ||
      first.mayBeEmpty empty && (second.mayStart empty starts blank c || blank c)
  | .choice first second, c =>
    first.mayStart empty starts blank c || second.mayStart empty starts blank c
  | .optional form, c | .many form, c => form.mayStart empty starts blank c

/-- The characters that phrases start with. -/
structure Grammar.Firsts {Name : Type} (grammar : Grammar Name) extends grammar.Ranking where
  starts : Name → Char → Bool
  starts_of_form : ∀ name c,
    (grammar.form name).mayStart empty starts grammar.blank c = true → starts name c = true

namespace Grammar

variable {Name : Type} {grammar : Grammar Name} {ahead : Form Name → Context → Cursor → Prop}

mutual

/-- A derivation that takes something starts with a character that its form may start with. -/
theorem Derives.mayStart (firsts : grammar.Firsts) {form : Form Name} {context : Context}
    {cursor : Cursor} {found : Found Name} :
    Derives grammar ahead form context cursor found → form.progresses firsts.empty = true →
      found.cursor.rest.length < cursor.rest.length →
      ∃ c, cursor.rest.head? = some c ∧
        form.mayStart firsts.empty firsts.starts grammar.blank c = true
  | @Derives.text _ _ _ chars rest _ _ here, _, takes => by
    cases chars with
    | nil =>
      rw [here] at takes
      simp at takes
    | cons c chars => exact ⟨c, by rw [here]; rfl, by simp [Form.mayStart]⟩
  | @Derives.textAnyCase _ _ _ chars front rest _ _ here same, _, takes => by
    cases front with
    | nil =>
      rw [here] at takes
      simp at takes
    | cons c front =>
      refine ⟨c, by rw [here]; rfl, ?_⟩
      cases chars with
      | nil => simp at same
      | cons first chars =>
        have lower : c.toLower = first.toLower := by simpa using (List.cons.inj same).1
        simp [Form.mayStart, lower]
  | .char here accepted, _, _ => ⟨_, by rw [here]; rfl, accepted⟩
  | .startOfInput _, _, takes => absurd takes (Nat.lt_irrefl _)
  | .endOfInput _, _, takes => absurd takes (Nat.lt_irrefl _)
  | @Derives.phrase _ _ _ name _ _ _ inner, _, takes => by
    rw [present_cursor] at takes
    obtain ⟨c, here, starts⟩ := inner.mayStart firsts (firsts.progresses name) takes
    exact ⟨c, here, firsts.starts_of_form name c starts⟩
  | @Derives.seq _ _ _ first second _ _ middle front _ in_front blanks in_back, progresses,
      takes => by
    obtain ⟨progress_first, progress_second⟩ := Bool.and_eq_true_iff.mp progresses
    obtain ⟨reaches, takes_first⟩ := in_front.advances firsts.toRanking
    by_cases taken : front.cursor.rest.length < cursor.rest.length
    · obtain ⟨c, here, starts⟩ := in_front.mayStart firsts progress_first taken
      exact ⟨c, here, by simp [Form.mayStart, starts]⟩
    · have first_empty : first.mayBeEmpty firsts.empty = true := by
        by_contra some_char
        exact taken (takes_first (by simpa using some_char))
      have still := reaches.eq_of_not_lt taken
      rw [still] at blanks
      by_cases blank : middle.rest.length < cursor.rest.length
      · obtain ⟨c, here, is_blank⟩ := blanks.head blank
        exact ⟨c, here, by simp [Form.mayStart, first_empty, is_blank]⟩
      · have still := blanks.reaches.eq_of_not_lt blank
        subst still
        obtain ⟨c, here, starts⟩ := in_back.mayStart firsts progress_second takes
        exact ⟨c, here, by simp [Form.mayStart, first_empty, starts]⟩
  | .first inner, progresses, takes => by
    obtain ⟨c, here, starts⟩ :=
      inner.mayStart firsts (Bool.and_eq_true_iff.mp progresses).1 takes
    exact ⟨c, here, by simp [Form.mayStart, starts]⟩
  | .second inner, progresses, takes => by
    obtain ⟨c, here, starts⟩ :=
      inner.mayStart firsts (Bool.and_eq_true_iff.mp progresses).2 takes
    exact ⟨c, here, by simp [Form.mayStart, starts]⟩
  | .given inner, progresses, takes => inner.mayStart firsts progresses takes
  | .omitted, _, takes => absurd takes (Nat.lt_irrefl _)
  | .noRound, _, takes => absurd takes (Nat.lt_irrefl _)
  | .rounds inner, progresses, _ => inner.mayStart firsts (Bool.and_eq_true_iff.mp progresses).2
      (by simpa using (Bool.and_eq_true_iff.mp progresses).1)
  | .notAhead _, _, takes => absurd takes (Nat.lt_irrefl _)

theorem Rounds.mayStart (firsts : grammar.Firsts) {form : Form Name} {context : Context}
    {cursor : Cursor} {found : Found Name} :
    Rounds grammar ahead form context cursor found → form.progresses firsts.empty = true →
      form.mayBeEmpty firsts.empty = false →
      ∃ c, cursor.rest.head? = some c ∧
        form.mayStart firsts.empty firsts.starts grammar.blank c = true
  | .last inner, progresses, some_char =>
    inner.mayStart firsts progresses ((inner.advances firsts.toRanking).2 some_char)
  | .more front _ _, progresses, some_char =>
    front.mayStart firsts progresses ((front.advances firsts.toRanking).2 some_char)

end

/-- A phrase that takes something starts with one of its first characters. -/
theorem Firsts.starts_of_derives (firsts : grammar.Firsts) {name : Name} {context : Context}
    {cursor : Cursor} {found : Found Name} (some_char : firsts.empty name = false)
    (derives : Derives grammar ahead (.phrase name) context cursor found) :
    ∃ c, cursor.rest.head? = some c ∧ firsts.starts name c = true :=
  derives.mayStart firsts rfl ((derives.advances firsts.toRanking).2 some_char)

/-- A phrase takes nothing where a character stands that it does not start with. -/
theorem Firsts.take_eq_none (firsts : grammar.Firsts) {name : Name} {context : Context}
    {cursor : Cursor} (some_char : firsts.empty name = false)
    (other : cursor.Lacks (firsts.starts name)) :
    grammar.take name context cursor = none := by
  cases taken : grammar.take name context cursor with
  | none => rfl
  | some found =>
    obtain ⟨c, here, starts⟩ := firsts.starts_of_derives some_char (derives_of_take taken)
    rw [other c here] at starts
    cases starts

end Grammar

end Proviso
