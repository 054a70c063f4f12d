/- # Proviso.Proofs.Grammar.Recognize -- what the matcher takes

The matcher keeps a record of failures, and it is run with a number of levels.  Neither matters to
what it takes.  The record is only written, never read, by what decides a match (`readForm_fst`).
And where no phrase can be entered again before a character was taken, a ranking of the phrases
bounds how deep they nest, so that more levels change nothing (`takeUpTo_stable`).

What is left is `Grammar.take`: the phrase that is taken at a place, as a function of the place
alone.  It satisfies the equation that the grammar reads as (`take_eq`). -/
import Proviso.Grammar.Matcher

namespace Proviso

set_option autoImplicit false

/-! ## Places -/

namespace Cursor

/-- One place is at another one or before it, in the same text. -/
def Reaches (start stop : Cursor) : Prop :=
  ∃ chars, start.rest = chars ++ stop.rest ∧ stop.offset = start.offset + chars.length

theorem Reaches.refl (cursor : Cursor) : cursor.Reaches cursor := ⟨[], rfl, rfl⟩

theorem Reaches.trans {first second third : Cursor} (before : first.Reaches second)
    (after : second.Reaches third) : first.Reaches third := by
  obtain ⟨front, front_rest, front_offset⟩ := before
  obtain ⟨back, back_rest, back_offset⟩ := after
  refine ⟨front ++ back, ?_, ?_⟩
  · rw [front_rest, back_rest, List.append_assoc]
  · rw [back_offset, front_offset, List.length_append, Nat.add_assoc]

theorem Reaches.length_le {start stop : Cursor} (reaches : start.Reaches stop) :
    stop.rest.length ≤ start.rest.length := by
  obtain ⟨chars, rest, -⟩ := reaches
  rw [rest, List.length_append]
  omega

/-- No character of the kind stands at the place. -/
def Lacks (cursor : Cursor) (kind : Char → Bool) : Prop :=
  ∀ c ∈ cursor.rest.head?, kind c = false

theorem lacks_of_head {cursor : Cursor} {kind : Char → Bool} {c : Char}
    (here : cursor.rest.head? = some c) (other : kind c = false) : cursor.Lacks kind := by
  intro next also_here
  rw [here] at also_here
  cases also_here
  exact other

/-- Places at which equally much is left are the same. -/
theorem Reaches.eq_of_not_lt {start stop : Cursor} (reaches : start.Reaches stop)
    (none_taken : ¬ stop.rest.length < start.rest.length) : stop = start := by
  obtain ⟨chars, rest, offset⟩ := reaches
  have no_chars : chars = [] := by
    rw [rest, List.length_append] at none_taken
    exact List.eq_nil_of_length_eq_zero (by omega)
  subst no_chars
  cases start
  cases stop
  simp_all

/-- A place is known by what is left there. -/
theorem Reaches.unique {start first second : Cursor} (to_first : start.Reaches first)
    (to_second : start.Reaches second) (same : first.rest = second.rest) : first = second := by
  obtain ⟨front, front_rest, front_offset⟩ := to_first
  obtain ⟨back, back_rest, back_offset⟩ := to_second
  have lengths := congrArg List.length (front_rest.symm.trans back_rest)
  rw [List.length_append, List.length_append, same] at lengths
  have offsets : first.offset = second.offset := by omega
  cases first
  cases second
  simp_all

theorem reaches_skip {cursor : Cursor} {count : Nat} (within : count ≤ cursor.rest.length) :
    cursor.Reaches (cursor.skip count) := by
  refine ⟨cursor.rest.take count, (List.take_append_drop count cursor.rest).symm, ?_⟩
  rw [List.length_take, Nat.min_eq_left within]
  rfl

end Cursor

namespace Grammar

variable {Name : Type} (grammar : Grammar Name)

theorem reaches_skipBlanks (context : Context) (cursor : Cursor) :
    cursor.Reaches (grammar.skipBlanks context cursor) := by
  unfold skipBlanks
  split
  · exact Cursor.reaches_skip (List.takeWhile_sublist _).length_le
  · exact .refl cursor

/-! ## Recognition -/

/-- What is taken at a place in a context, if anything is. -/
abbrev Recognizer (Name : Type) := Context → Cursor → Option (Found Name)

def rounds (step : Cursor → Option (Found Name)) (context : Context) :
    Nat → Found Name → Found Name
  | 0, found => found
  | budget + 1, found =>
    match step (grammar.skipBlanks context found.cursor) with
    | none => found
    | some next => rounds step context budget ⟨found.trees ++ next.trees, next.cursor⟩

/-- What a form takes, given what the phrases in it take. -/
def takeForm (take : Name → Recognizer Name) : Form Name → Recognizer Name
  | .text chars => fun _ cursor =>
    if chars.isPrefixOf cursor.rest then some ⟨[], cursor.skip chars.length⟩ else none
  | .textAnyCase chars => fun _ cursor =>
    if (chars.map Char.toLower).isPrefixOf (cursor.rest.map Char.toLower) then
      some ⟨[], cursor.skip chars.length⟩ else none
  | .char accepts => fun _ cursor =>
    match cursor.rest with
    | c :: _ => if accepts c then some ⟨[], cursor.skip 1⟩ else none
    | [] => none
  | .startOfInput => fun _ cursor => if cursor.offset = 0 then some ⟨[], cursor⟩ else none
  | .endOfInput => fun _ cursor => if cursor.rest.isEmpty then some ⟨[], cursor⟩ else none
  | .phrase name => take name
  | .seq first second => fun context cursor =>
    (takeForm take first context cursor).bind fun found =>
      (takeForm take second context (grammar.skipBlanks context found.cursor)).map fun next =>
        ⟨found.trees ++ next.trees, next.cursor⟩
  | .choice first second => fun context cursor =>
    (takeForm take first context cursor).or (takeForm take second context cursor)
  | .optional form => fun context cursor =>
    some ((takeForm take form context cursor).getD ⟨[], cursor⟩)
  | .many form => fun context cursor =>
    match takeForm take form context cursor with
    | none => some ⟨[], cursor⟩
    | some found =>
      some (grammar.rounds (takeForm take form context) context cursor.rest.length found)
  | .notAhead form => fun context cursor =>
    match takeForm take form { context with lookahead := context.lookahead.flip } cursor with
    | some _ => none
    | none => some ⟨[], cursor⟩

/-- The context in which the form of a phrase is read. -/
def inside (name : Name) (context : Context) : Context :=
  match grammar.mode name with
  | .plain | .silent => context
  | .atomic => { context with spacing := .atomic }
  | .compound => { context with spacing := .compound }

/-- What a phrase makes of what its form took from a place. -/
def present (name : Name) (context : Context) (start : Cursor) (found : Found Name) : Found Name :=
  let isTree := match grammar.mode name with
    | .silent => false
    | .plain | .atomic => isNode context
    | .compound => isNode { context with spacing := .compound }
  if isTree then ⟨[.node name start.offset (start.textTo found.cursor) found.trees], found.cursor⟩
  else found

@[simp] theorem present_cursor (name : Name) (context : Context) (start : Cursor)
    (found : Found Name) : (grammar.present name context start found).cursor = found.cursor := by
  simp only [present, apply_ite Found.cursor, ite_self]

theorem inside_silent {name : Name} (silent : grammar.mode name = .silent) (context : Context) :
    grammar.inside name context = context := by
  simp only [inside, silent]

theorem present_silent {name : Name} (silent : grammar.mode name = .silent) (context : Context)
    (start : Cursor) (found : Found Name) : grammar.present name context start found = found := by
  simp [present, silent]

/-- What a phrase takes, given what the phrases in its form take. -/
def takePhrase (take : Name → Recognizer Name) (name : Name) : Recognizer Name :=
  fun context cursor =>
    (grammar.takeForm take (grammar.form name) (grammar.inside name context) cursor).map
      (grammar.present name context cursor)

/-- What a phrase takes when phrases nest at most as deep as the given number of levels. -/
def takeUpTo : Nat → Name → Recognizer Name
  | 0, _ => fun _ _ => none
  | levels + 1, name => grammar.takePhrase (takeUpTo levels) name

/-! ## The record of failures does not matter -/

section Record

variable {read : Name → Reader Name} {take : Name → Recognizer Name}

theorem iterate_fst {step : Cursor → Failures Name → Outcome Name}
    {pure : Cursor → Option (Found Name)}
    (same : ∀ cursor failures, (step cursor failures).1 = pure cursor)
    (context : Context) (budget : Nat) (found : Found Name) (failures : Failures Name) :
    (grammar.iterate step context budget found failures).1 =
      some (grammar.rounds pure context budget found) := by
  induction budget generalizing found failures with
  | zero => rfl
  | succ budget ih =>
    have first := same (grammar.skipBlanks context found.cursor) failures
    unfold iterate rounds
    rw [← first]
    cases step (grammar.skipBlanks context found.cursor) failures with
    | mk result failures =>
      cases result with
      | none => rfl
      | some next => exact ih _ _

/-- What a form takes does not depend on the record of failures. -/
theorem readForm_fst
    (same : ∀ name context cursor failures,
      (read name context cursor failures).1 = take name context cursor)
    (form : Form Name) (context : Context) (cursor : Cursor) (failures : Failures Name) :
    (grammar.readForm read form context cursor failures).1 =
      grammar.takeForm take form context cursor := by
  induction form generalizing context cursor failures with
  | text | textAnyCase | startOfInput | endOfInput => rfl
  | char accepts =>
    cases here : cursor.rest <;> simp only [readForm, takeForm, here]
  | phrase name => exact same name context cursor failures
  | seq first second ih_first ih_second =>
    simp only [readForm, takeForm, ← ih_first context cursor failures]
    cases grammar.readForm read first context cursor failures with
    | mk result failures =>
      cases result with
      | none => rfl
      | some found =>
        simp only [Option.bind_some,
          ← ih_second context (grammar.skipBlanks context found.cursor) failures]
        cases grammar.readForm read second context (grammar.skipBlanks context found.cursor)
          failures with
        | mk result failures => cases result <;> rfl
  | choice first second ih_first ih_second =>
    simp only [readForm, takeForm, ← ih_first context cursor failures]
    cases grammar.readForm read first context cursor failures with
    | mk result failures =>
      cases result with
      | none => exact ih_second context cursor failures
      | some found => rfl
  | optional form ih =>
    simp only [readForm, takeForm, ← ih context cursor failures]
    cases grammar.readForm read form context cursor failures with
    | mk result failures => cases result <;> rfl
  | many form ih =>
    simp only [readForm, takeForm, ← ih context cursor failures]
    cases grammar.readForm read form context cursor failures with
    | mk result failures =>
      cases result with
      | none => rfl
      | some found => exact grammar.iterate_fst (fun cursor => ih context cursor) _ _ _ _
  | notAhead form ih =>
    simp only [readForm, takeForm, ← ih _ cursor failures]
    cases grammar.readForm read form { context with lookahead := context.lookahead.flip } cursor
      failures with
    | mk result failures => cases result <;> rfl

theorem readPhrase_fst
    (same : ∀ name context cursor failures,
      (read name context cursor failures).1 = take name context cursor)
    (name : Name) (context : Context) (cursor : Cursor) (failures : Failures Name) :
    (grammar.readPhrase read name context cursor failures).1 =
      grammar.takePhrase take name context cursor := by
  have form_fst := grammar.readForm_fst same (grammar.form name)
  unfold readPhrase takePhrase inside present
  cases grammar.mode name <;> simp [readNamed, form_fst]

/-- What is taken does not depend on the record of failures. -/
theorem run_fst (levels : Nat) (name : Name) (context : Context) (cursor : Cursor)
    (failures : Failures Name) :
    (grammar.run levels name context cursor failures).1 =
      grammar.takeUpTo levels name context cursor := by
  induction levels generalizing name context cursor failures with
  | zero => rfl
  | succ levels ih => exact grammar.readPhrase_fst ih name context cursor failures

end Record

end Grammar

/-! ## Rankings -/

namespace Form

variable {Name : Type} (empty : Name → Bool)

/-- Whether the form may match without taking a character, as far as the phrases say that may. -/
def mayBeEmpty : Form Name → Bool
  | .text chars | .textAnyCase chars => chars.isEmpty
  | .char _ => false
  | .startOfInput | .endOfInput | .optional _ | .many _ | .notAhead _ => true
  | .phrase name => empty name
  | .seq first second => first.mayBeEmpty && second.mayBeEmpty
  | .choice first second => first.mayBeEmpty || second.mayBeEmpty

/-- The phrases that may be looked for where the form starts. -/
def heads : Form Name → List Name
  | .text _ | .textAnyCase _ | .char _ | .startOfInput | .endOfInput => []
  | .phrase name => [name]
  | .seq first second => first.heads ++ if first.mayBeEmpty empty then second.heads else []
  | .choice first second => first.heads ++ second.heads
  | .optional form | .many form | .notAhead form => form.heads

/-- Whether every round of every repetition takes a character. -/
def progresses : Form Name → Bool
  | .text _ | .textAnyCase _ | .char _ | .startOfInput | .endOfInput | .phrase _ => true
  | .seq first second | .choice first second => first.progresses && second.progresses
  | .optional form | .notAhead form => form.progresses
  | .many form => !form.mayBeEmpty empty && form.progresses

end Form

/-- A grammar without left recursion: phrases that start with other phrases rank above them. -/
structure Grammar.Ranking {Name : Type} (grammar : Grammar Name) where
  /-- The phrases that may match without taking a character. -/
  empty : Name → Bool
  rank : Name → Nat
  empty_of_form : ∀ name, (grammar.form name).mayBeEmpty empty = true → empty name = true
  rank_heads : ∀ name, ∀ head ∈ (grammar.form name).heads empty, rank head < rank name
  rank_lt : ∀ name, rank name < grammar.names.length
  progresses : ∀ name, (grammar.form name).progresses empty = true

namespace Grammar

variable {Name : Type} {grammar : Grammar Name}

/-! ## What is taken is at the front -/

/-- What is taken stands at the front of what is left, and is something unless the phrase is known
to match nothing. -/
def Advances (empty : Name → Bool) (take : Name → Recognizer Name) : Prop :=
  ∀ name context cursor found, take name context cursor = some found →
    cursor.Reaches found.cursor ∧
      (empty name = false → found.cursor.rest.length < cursor.rest.length)

section Advancing

variable {empty : Name → Bool} {take : Name → Recognizer Name}

theorem reaches_rounds {step : Cursor → Option (Found Name)}
    (advances : ∀ cursor found, step cursor = some found → cursor.Reaches found.cursor)
    (context : Context) (budget : Nat) (found : Found Name) :
    found.cursor.Reaches (grammar.rounds step context budget found).cursor := by
  induction budget generalizing found with
  | zero => exact .refl _
  | succ budget ih =>
    unfold rounds
    split
    · exact .refl _
    · rename_i next taken
      have onward := (grammar.reaches_skipBlanks context found.cursor).trans (advances _ _ taken)
      exact onward.trans (ih ⟨found.trees ++ next.trees, next.cursor⟩)

theorem takeForm_advances (advances : Advances empty take) (form : Form Name) (context : Context)
    (cursor : Cursor) (found : Found Name)
    (taken : grammar.takeForm take form context cursor = some found) :
    cursor.Reaches found.cursor ∧
      (form.mayBeEmpty empty = false → found.cursor.rest.length < cursor.rest.length) := by
  induction form generalizing context cursor found with
  | text chars =>
    simp only [takeForm, Option.ite_none_right_eq_some, Option.some.injEq,
      List.isPrefixOf_iff_prefix] at taken
    obtain ⟨starts, rfl⟩ := taken
    refine ⟨Cursor.reaches_skip starts.length_le, fun some_char => ?_⟩
    have takes : chars ≠ [] := by simpa [Form.mayBeEmpty] using some_char
    have shorter := List.length_pos_iff.mpr takes
    have within := starts.length_le
    simp only [Cursor.skip, List.length_drop]
    omega
  | textAnyCase chars =>
    simp only [takeForm, Option.ite_none_right_eq_some, Option.some.injEq,
      List.isPrefixOf_iff_prefix] at taken
    obtain ⟨starts, rfl⟩ := taken
    have within : chars.length ≤ cursor.rest.length := by simpa using starts.length_le
    refine ⟨Cursor.reaches_skip within, fun some_char => ?_⟩
    have takes : chars ≠ [] := by simpa [Form.mayBeEmpty] using some_char
    have shorter := List.length_pos_iff.mpr takes
    simp only [Cursor.skip, List.length_drop]
    omega
  | char accepts =>
    simp only [takeForm] at taken
    split at taken
    · rename_i c rest here
      simp only [Option.ite_none_right_eq_some, Option.some.injEq] at taken
      obtain ⟨-, rfl⟩ := taken
      refine ⟨Cursor.reaches_skip (by simp [here]), fun _ => ?_⟩
      simp [Cursor.skip, here]
    · cases taken
  | startOfInput =>
    simp only [takeForm, Option.ite_none_right_eq_some, Option.some.injEq] at taken
    obtain ⟨-, rfl⟩ := taken
    exact ⟨.refl _, fun never => by simp [Form.mayBeEmpty] at never⟩
  | endOfInput =>
    simp only [takeForm, Option.ite_none_right_eq_some, Option.some.injEq] at taken
    obtain ⟨-, rfl⟩ := taken
    exact ⟨.refl _, fun never => by simp [Form.mayBeEmpty] at never⟩
  | phrase name => exact advances name context cursor found taken
  | seq first second ih_first ih_second =>
    simp only [takeForm, Option.bind_eq_some_iff, Option.map_eq_some_iff] at taken
    obtain ⟨front, taken_front, back, taken_back, rfl⟩ := taken
    obtain ⟨reaches_front, takes_front⟩ := ih_first _ _ _ taken_front
    obtain ⟨reaches_back, takes_back⟩ := ih_second _ _ _ taken_back
    have blanks := grammar.reaches_skipBlanks context front.cursor
    refine ⟨(reaches_front.trans blanks).trans reaches_back, fun some_char => ?_⟩
    have front_le := reaches_front.length_le
    have blanks_le := blanks.length_le
    have back_le := reaches_back.length_le
    dsimp only
    rcases Bool.and_eq_false_iff.mp some_char with in_first | in_second
    · have shorter := takes_front in_first
      omega
    · have shorter := takes_back in_second
      omega
  | choice first second ih_first ih_second =>
    simp only [takeForm, Option.or_eq_some_iff] at taken
    rcases taken with taken | ⟨-, taken⟩
    · obtain ⟨reaches, takes⟩ := ih_first _ _ _ taken
      exact ⟨reaches, fun some_char => takes (Bool.or_eq_false_iff.mp some_char).1⟩
    · obtain ⟨reaches, takes⟩ := ih_second _ _ _ taken
      exact ⟨reaches, fun some_char => takes (Bool.or_eq_false_iff.mp some_char).2⟩
  | optional form ih =>
    simp only [takeForm, Option.some.injEq] at taken
    refine ⟨?_, fun never => by simp [Form.mayBeEmpty] at never⟩
    cases inner : grammar.takeForm take form context cursor with
    | none =>
      rw [inner] at taken
      exact taken ▸ .refl _
    | some next =>
      rw [inner] at taken
      exact taken ▸ (ih _ _ _ inner).1
  | many form ih =>
    refine ⟨?_, fun never => by simp [Form.mayBeEmpty] at never⟩
    simp only [takeForm] at taken
    split at taken
    · cases taken
      exact .refl _
    · rename_i first inner
      cases taken
      exact (ih _ _ _ inner).1.trans
        (reaches_rounds (fun cursor found taken => (ih _ _ _ taken).1) _ _ _)
  | notAhead form ih =>
    refine ⟨?_, fun never => by simp [Form.mayBeEmpty] at never⟩
    simp only [takeForm] at taken
    split at taken
    · cases taken
    · cases taken
      exact .refl _

theorem takeUpTo_advances
    (empty_of_form : ∀ name, (grammar.form name).mayBeEmpty empty = true → empty name = true)
    (levels : Nat) : Advances empty (grammar.takeUpTo levels) := by
  induction levels with
  | zero =>
    intro name context cursor found taken
    cases taken
  | succ levels ih =>
    intro name context cursor found taken
    simp only [takeUpTo, takePhrase, Option.map_eq_some_iff] at taken
    obtain ⟨inner, taken, rfl⟩ := taken
    obtain ⟨reaches, takes⟩ := takeForm_advances ih _ _ _ _ taken
    rw [present_cursor]
    refine ⟨reaches, fun some_char => takes ?_⟩
    have needs := empty_of_form name
    rw [some_char] at needs
    simpa using needs

end Advancing

/-! ## More levels change nothing -/

theorem rounds_congr {step step' : Cursor → Option (Found Name)} {context : Context} {bound : Nat}
    (advances : ∀ cursor found, step cursor = some found → cursor.Reaches found.cursor)
    (same : ∀ cursor, cursor.rest.length ≤ bound → step cursor = step' cursor)
    (budget : Nat) (found : Found Name) (within : found.cursor.rest.length ≤ bound) :
    grammar.rounds step context budget found = grammar.rounds step' context budget found := by
  induction budget generalizing found with
  | zero => rfl
  | succ budget ih =>
    have blanks_le := (grammar.reaches_skipBlanks context found.cursor).length_le
    unfold rounds
    rw [← same _ (Nat.le_trans blanks_le within)]
    cases taken : step (grammar.skipBlanks context found.cursor) with
    | none => rfl
    | some next =>
      have next_le := (advances _ _ taken).length_le
      exact ih _ (Nat.le_trans next_le (Nat.le_trans blanks_le within))

/-- What a form takes depends on what its phrases take further on, and on what those take that may
be looked for at its start. -/
theorem takeForm_congr {empty : Name → Bool} {take take' : Name → Recognizer Name}
    (advances : Advances empty take) (form : Form Name) (bound : Nat)
    (same : ∀ name context (cursor : Cursor),
      cursor.rest.length < bound ∨ cursor.rest.length = bound ∧ name ∈ form.heads empty →
        take name context cursor = take' name context cursor)
    (context : Context) (cursor : Cursor) (within : cursor.rest.length ≤ bound) :
    grammar.takeForm take form context cursor = grammar.takeForm take' form context cursor := by
  induction form generalizing bound context cursor with
  | text | textAnyCase | char | startOfInput | endOfInput => rfl
  | phrase name =>
    apply same
    rcases Nat.lt_or_eq_of_le within with shorter | equal
    · exact .inl shorter
    · exact .inr ⟨equal, by simp [Form.heads]⟩
  | seq first second ih_first ih_second =>
    have same_first : grammar.takeForm take first context cursor =
        grammar.takeForm take' first context cursor := by
      apply ih_first bound _ context cursor within
      intro name context cursor place
      apply same
      exact place.imp_right fun at_start => ⟨at_start.1, by simp [Form.heads, at_start.2]⟩
    simp only [takeForm, ← same_first]
    cases taken : grammar.takeForm take first context cursor with
    | none => rfl
    | some found =>
      obtain ⟨reaches, takes⟩ := takeForm_advances advances first context cursor found taken
      have blanks_le := (grammar.reaches_skipBlanks context found.cursor).length_le
      have front_le := reaches.length_le
      have same_second : grammar.takeForm take second context
          (grammar.skipBlanks context found.cursor) =
          grammar.takeForm take' second context (grammar.skipBlanks context found.cursor) := by
        cases first_empty : first.mayBeEmpty empty with
        | true =>
          apply ih_second bound _ context _ (by omega)
          intro name context cursor place
          apply same
          exact place.imp_right fun at_start => ⟨at_start.1, by simp [Form.heads, at_start.2,
            first_empty]⟩
        | false =>
          have shorter := takes first_empty
          apply ih_second _ _ context _ (Nat.le_refl _)
          intro name context cursor place
          exact same _ _ _ (.inl (by omega))
      simp only [Option.bind_some, same_second]
  | choice first second ih_first ih_second =>
    have same_first : grammar.takeForm take first context cursor =
        grammar.takeForm take' first context cursor := by
      apply ih_first bound _ context cursor within
      intro name context cursor place
      apply same
      exact place.imp_right fun at_start => ⟨at_start.1, by simp [Form.heads, at_start.2]⟩
    have same_second : grammar.takeForm take second context cursor =
        grammar.takeForm take' second context cursor := by
      apply ih_second bound _ context cursor within
      intro name context cursor place
      apply same
      exact place.imp_right fun at_start => ⟨at_start.1, by simp [Form.heads, at_start.2]⟩
    simp only [takeForm, same_first, same_second]
  | optional form ih => simp only [takeForm, ih bound same context cursor within]
  | many form ih =>
    have same_step (cursor : Cursor) (within : cursor.rest.length ≤ bound) :=
      ih bound same context cursor within
    simp only [takeForm, ← same_step cursor within]
    cases taken : grammar.takeForm take form context cursor with
    | none => rfl
    | some found =>
      have front_le := (takeForm_advances advances form context cursor found taken).1.length_le
      simp only [Option.some.injEq]
      exact rounds_congr (fun cursor found taken =>
        (takeForm_advances advances form context cursor found taken).1) same_step _ _ (by omega)
  | notAhead form ih => simp only [takeForm, ih bound same _ cursor within]

/-- How deep phrases nest, at most, when a phrase is looked for at a place. -/
def Ranking.depth (ranking : grammar.Ranking) (name : Name) (cursor : Cursor) : Nat :=
  grammar.names.length * cursor.rest.length + ranking.rank name

/-- What is looked for in a phrase nests less deep than the phrase. -/
theorem Ranking.depth_lt (ranking : grammar.Ranking) {name inner : Name} {cursor next : Cursor}
    (further : next.rest.length < cursor.rest.length ∨
      next.rest.length = cursor.rest.length ∧ inner ∈ (grammar.form name).heads ranking.empty) :
    ranking.depth inner next < ranking.depth name cursor := by
  unfold depth
  rcases further with shorter | ⟨same, is_head⟩
  · have inner_lt := ranking.rank_lt inner
    have product := Nat.mul_le_mul_left grammar.names.length (Nat.succ_le_of_lt shorter)
    rw [Nat.mul_succ] at product
    omega
  · have lower := ranking.rank_heads name inner is_head
    rw [same]
    omega

/-- Beyond the depth of a phrase, more levels change nothing. -/
theorem takeUpTo_stable (ranking : grammar.Ranking) {levels levels' : Nat} {name : Name}
    {cursor : Cursor} (enough : ranking.depth name cursor < levels)
    (enough' : ranking.depth name cursor < levels') (context : Context) :
    grammar.takeUpTo levels name context cursor = grammar.takeUpTo levels' name context cursor := by
  induction levels generalizing levels' name cursor context with
  | zero => omega
  | succ levels ih =>
    cases levels' with
    | zero => omega
    | succ levels' =>
      simp only [takeUpTo, takePhrase]
      rw [takeForm_congr (takeUpTo_advances ranking.empty_of_form levels) (grammar.form name)
        cursor.rest.length _ _ cursor (Nat.le_refl _)]
      intro inner context next further
      have deeper := ranking.depth_lt further
      exact ih (by omega) (by omega) context

/-! ## What is taken -/

def take (grammar : Grammar Name) (name : Name) : Recognizer Name := fun context cursor =>
  grammar.takeUpTo (grammar.names.length * (cursor.rest.length + 1)) name context cursor

theorem read_fst (name : Name) (text : List Char) :
    (grammar.read name text).1 = grammar.take name ⟨.free, .none⟩ ⟨text, 0⟩ :=
  grammar.run_fst _ _ _ _ _

theorem Ranking.depth_lt_levels (ranking : grammar.Ranking) (name : Name) (cursor : Cursor) :
    ranking.depth name cursor < grammar.names.length * (cursor.rest.length + 1) := by
  have lower := ranking.rank_lt name
  unfold depth
  rw [Nat.mul_succ]
  omega

/-- A phrase takes what its form takes. -/
theorem take_eq (ranking : grammar.Ranking) (name : Name) (context : Context) (cursor : Cursor) :
    grammar.take name context cursor = grammar.takePhrase grammar.take name context cursor := by
  have positive : 0 < grammar.names.length * (cursor.rest.length + 1) :=
    Nat.lt_of_le_of_lt (Nat.zero_le _) (ranking.depth_lt_levels name cursor)
  obtain ⟨levels, counted⟩ := Nat.exists_eq_succ_of_ne_zero (Nat.ne_of_gt positive)
  have deep := ranking.depth_lt_levels name cursor
  unfold take
  rw [counted] at deep ⊢
  simp only [takeUpTo, takePhrase]
  rw [takeForm_congr (takeUpTo_advances ranking.empty_of_form levels) (grammar.form name)
    cursor.rest.length _ _ cursor (Nat.le_refl _)]
  intro inner context next further
  have deeper := ranking.depth_lt further
  exact takeUpTo_stable ranking (by omega) (ranking.depth_lt_levels inner next) context

theorem take_advances (ranking : grammar.Ranking) : Advances ranking.empty grammar.take :=
  fun name context cursor => takeUpTo_advances ranking.empty_of_form _ name context cursor

/-! ## Repetitions -/

abbrev taken (grammar : Grammar Name) (form : Form Name) (context : Context) (cursor : Cursor) :
    Option (Found Name) := grammar.takeForm grammar.take form context cursor

theorem take_phrase (ranking : grammar.Ranking) (name : Name) (context : Context)
    (cursor : Cursor) :
    grammar.take name context cursor =
      (grammar.taken (grammar.form name) (grammar.inside name context) cursor).map
        (grammar.present name context cursor) := take_eq ranking name context cursor

theorem rounds_append (step : Cursor → Option (Found Name)) (context : Context) (budget : Nat)
    (front : List (Tree Name)) (found : Found Name) :
    grammar.rounds step context budget ⟨front ++ found.trees, found.cursor⟩ =
      ⟨front ++ (grammar.rounds step context budget found).trees,
        (grammar.rounds step context budget found).cursor⟩ := by
  induction budget generalizing found with
  | zero => rfl
  | succ budget ih =>
    unfold rounds
    cases step (grammar.skipBlanks context found.cursor) with
    | none => rfl
    | some next =>
      dsimp only
      rw [List.append_assoc]
      exact ih ⟨found.trees ++ next.trees, next.cursor⟩

/-- When each round takes a character, as many rounds as there are characters are enough. -/
theorem rounds_stable {step : Cursor → Option (Found Name)} {context : Context}
    (progresses : ∀ cursor found, step cursor = some found →
      found.cursor.rest.length < cursor.rest.length)
    {budget budget' : Nat} {found : Found Name} (enough : found.cursor.rest.length ≤ budget)
    (enough' : found.cursor.rest.length ≤ budget') :
    grammar.rounds step context budget found = grammar.rounds step context budget' found := by
  have next_lt {found next : Found Name}
      (stepped : step (grammar.skipBlanks context found.cursor) = some next) :
      next.cursor.rest.length < found.cursor.rest.length :=
    Nat.lt_of_lt_of_le (progresses _ _ stepped)
      (grammar.reaches_skipBlanks context found.cursor).length_le
  induction budget generalizing budget' found with
  | zero =>
    cases budget' with
    | zero => rfl
    | succ budget' =>
      unfold rounds
      cases stepped : step (grammar.skipBlanks context found.cursor) with
      | none => rfl
      | some next =>
        have shorter := next_lt stepped
        omega
  | succ budget ih =>
    cases budget' with
    | zero =>
      unfold rounds
      cases stepped : step (grammar.skipBlanks context found.cursor) with
      | none => rfl
      | some next =>
        have shorter := next_lt stepped
        omega
    | succ budget' =>
      unfold rounds
      cases stepped : step (grammar.skipBlanks context found.cursor) with
      | none => rfl
      | some next =>
        have shorter := next_lt stepped
        exact ih (by dsimp only; omega) (by dsimp only; omega)

section Repetition

variable {form : Form Name} {context : Context} {cursor : Cursor} {found next : Found Name}

theorem taken_many_none (stops : grammar.taken form context cursor = none) :
    grammar.taken (.many form) context cursor = some ⟨[], cursor⟩ := by
  simp only [taken] at stops
  simp only [taken, takeForm, stops]

theorem taken_many_last (first : grammar.taken form context cursor = some found)
    (stops : grammar.taken form context (grammar.skipBlanks context found.cursor) = none) :
    grammar.taken (.many form) context cursor = some found := by
  simp only [taken] at first stops
  simp only [taken, takeForm, first]
  cases cursor.rest.length with
  | zero => rfl
  | succ budget => simp only [rounds, stops]

/-- A repetition takes its first round, and then what it takes after that. -/
theorem taken_many_more (ranking : grammar.Ranking)
    (some_char : form.mayBeEmpty ranking.empty = false)
    (first : grammar.taken form context cursor = some found)
    (second : grammar.taken form context (grammar.skipBlanks context found.cursor) = some next)
    {rest : Found Name} (onward : grammar.taken (.many form) context
      (grammar.skipBlanks context found.cursor) = some rest) :
    grammar.taken (.many form) context cursor =
      some ⟨found.trees ++ rest.trees, rest.cursor⟩ := by
  have progresses (cursor : Cursor) (found : Found Name)
      (taken : grammar.taken form context cursor = some found) :
      found.cursor.rest.length < cursor.rest.length :=
    (takeForm_advances (take_advances ranking) form context cursor found taken).2 some_char
  have first_lt := progresses _ _ first
  have next_lt := progresses _ _ second
  have blanks_le := (grammar.reaches_skipBlanks context found.cursor).length_le
  simp only [taken] at first second onward
  simp only [takeForm, second, Option.some.injEq] at onward
  subst onward
  simp only [taken, takeForm, first, Option.some.injEq]
  obtain ⟨budget, counted⟩ := Nat.exists_eq_succ_of_ne_zero (Nat.ne_zero_of_lt first_lt)
  rw [counted]
  simp only [rounds, second]
  rw [rounds_append]
  have stable : grammar.rounds (grammar.taken form context) context budget next =
      grammar.rounds (grammar.taken form context) context
        (grammar.skipBlanks context found.cursor).rest.length next :=
    rounds_stable progresses (by omega) (by omega)
  rw [stable]

end Repetition

end Grammar

end Proviso
