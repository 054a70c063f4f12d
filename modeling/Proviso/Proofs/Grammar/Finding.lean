/- # Proviso.Proofs.Grammar.Finding -- when the matcher finds what is derivable

Where blanks may stand, a derivation may count them to a phrase or to what stands beside it; the
matcher counts them to one.  So trees are compared up to the blanks at the ends of the texts of
phrases that blanks may stand in (`Grammar.trimTrees`), and places up to blanks.

`Grammar.Finds` says that the matcher takes what a derivation gives, up to that.  It is built up
along the forms: each lemma names the one way in which the preferences of the matcher could lead it
elsewhere, an earlier alternative that works or a repetition that goes on. -/
import Proviso.Proofs.Grammar.Derivation

namespace Proviso

set_option autoImplicit false

/-! ## Texts between places -/

namespace Cursor

theorem textTo_of_rest {start stop : Cursor} {chars : List Char}
    (rest : start.rest = chars ++ stop.rest) (offset : stop.offset = start.offset + chars.length) :
    start.textTo stop = chars := by
  rw [textTo, rest, offset, Nat.add_sub_cancel_left, List.take_left]

theorem Reaches.rest_eq {start stop : Cursor} (reaches : start.Reaches stop) :
    start.rest = start.textTo stop ++ stop.rest := by
  obtain ⟨chars, rest, offset⟩ := reaches
  rw [textTo_of_rest rest offset, rest]

theorem Reaches.offset_eq {start stop : Cursor} (reaches : start.Reaches stop) :
    stop.offset = start.offset + (start.textTo stop).length := by
  obtain ⟨chars, rest, offset⟩ := reaches
  rw [textTo_of_rest rest offset, offset]

end Cursor

theorem rdropWhile_append_of_all {p : Char → Bool} (front : List Char) {back : List Char}
    (all : ∀ c ∈ back, p c = true) : (front ++ back).rdropWhile p = front.rdropWhile p := by
  rw [List.rdropWhile, List.reverse_append, List.dropWhile_append_of_pos (by simpa using all),
    List.rdropWhile]

theorem rdropWhile_append_cons {p : Char → Bool} (front : List Char) {c : Char} {text : List Char}
    (visible : p c = false) :
    (front ++ c :: text).rdropWhile p = front ++ c :: text.rdropWhile p := by
  have reversed : (front ++ c :: text).reverse = text.reverse ++ c :: front.reverse := by simp
  rw [List.rdropWhile, reversed, List.dropWhile_append, List.dropWhile_cons, visible]
  split
  · rename_i all_dropped
    rw [List.isEmpty_iff] at all_dropped
    simp [List.rdropWhile, all_dropped]
  · simp [List.rdropWhile]

namespace Grammar

variable {Name : Type} {grammar : Grammar Name}

/-! ## Trees without the blanks at their ends -/

mutual

/-- The tree with the text of each phrase that blanks may stand in stripped of blanks at both
ends. -/
def trimTree (grammar : Grammar Name) : Tree Name → Tree Name
  | .node name offset text children =>
    match grammar.mode name with
    | .plain =>
      let front := text.rdropWhile grammar.blank
      .node name (offset + (front.takeWhile grammar.blank).length) (front.dropWhile grammar.blank)
        (trimTrees grammar children)
    | _ => .node name offset text (trimTrees grammar children)

def trimTrees (grammar : Grammar Name) : List (Tree Name) → List (Tree Name)
  | [] => []
  | tree :: rest => trimTree grammar tree :: trimTrees grammar rest

end

theorem trimTrees_append (first second : List (Tree Name)) :
    grammar.trimTrees (first ++ second) = grammar.trimTrees first ++ grammar.trimTrees second := by
  induction first with
  | nil => rfl
  | cons tree rest ih => simp only [List.cons_append, trimTrees, ih]

/-- Two places are the same up to blanks. -/
def Near (grammar : Grammar Name) (context : Context) (first second : Cursor) : Prop :=
  grammar.skipBlanks context first = grammar.skipBlanks context second

/-- Texts up to near places are the same up to blanks at their ends. -/
theorem Near.rdropWhile_eq {context : Context} {start first second : Cursor}
    (near : grammar.Near context first second) (to_first : start.Reaches first)
    (to_second : start.Reaches second) :
    (start.textTo first).rdropWhile grammar.blank =
      (start.textTo second).rdropWhile grammar.blank := by
  have through (stop : Cursor) (reaches : start.Reaches stop) :
      (start.textTo stop).rdropWhile grammar.blank =
        (start.textTo (grammar.skipBlanks context stop)).rdropWhile grammar.blank := by
    have blanks := grammar.blanks_skipBlanks context stop
    unfold Blanks at blanks
    split at blanks
    · obtain ⟨chars, all_blank, rest, offset⟩ := blanks
      have longer : start.textTo (grammar.skipBlanks context stop) =
          start.textTo stop ++ chars := by
        apply Cursor.textTo_of_rest
        · rw [List.append_assoc, ← rest, ← reaches.rest_eq]
        · rw [offset, reaches.offset_eq, List.length_append, Nat.add_assoc]
      rw [longer, rdropWhile_append_of_all _ all_blank]
    · rw [blanks]
  rw [through first to_first, through second to_second, near]

/-! ## Finding -/

/-- The matcher takes what a derivation gives, up to blanks. -/
structure Finds (grammar : Grammar Name) (form : Form Name) (context : Context) (cursor : Cursor)
    (found : Found Name) : Prop where
  reaches : cursor.Reaches found.cursor
  taken : ∃ other, grammar.taken form context cursor = some other ∧
    grammar.Near context other.cursor found.cursor ∧
    grammar.trimTrees other.trees = grammar.trimTrees found.trees

namespace Finds

variable {context : Context} {cursor : Cursor} {found next : Found Name}
  {first second form : Form Name}

theorem of_taken (ranking : grammar.Ranking)
    (taken : grammar.taken form context cursor = some found) :
    grammar.Finds form context cursor found :=
  ⟨(takeForm_advances (take_advances ranking) form context cursor found taken).1,
    found, taken, rfl, rfl⟩

theorem ne_none (finds : grammar.Finds form context cursor found) :
    grammar.taken form context cursor ≠ none := by
  obtain ⟨-, other, taken, -⟩ := finds
  rw [taken]
  simp

/-- What is found may be counted with fewer or more blanks at its end. -/
theorem near (finds : grammar.Finds form context cursor found)
    (reaches : cursor.Reaches next.cursor)
    (near : grammar.Near context found.cursor next.cursor)
    (trees : grammar.trimTrees found.trees = grammar.trimTrees next.trees) :
    grammar.Finds form context cursor next := by
  obtain ⟨-, other, taken, near_found, trees_found⟩ := finds
  exact ⟨reaches, other, taken, near_found.trans near, trees_found.trans trees⟩

theorem seq (front : grammar.Finds first context cursor found)
    (back : grammar.Finds second context (grammar.skipBlanks context found.cursor) next) :
    grammar.Finds (.seq first second) context cursor
      ⟨found.trees ++ next.trees, next.cursor⟩ := by
  obtain ⟨reaches_front, front, taken_front, near_front, trees_front⟩ := front
  obtain ⟨reaches_back, back, taken_back, near_back, trees_back⟩ := back
  refine ⟨?_, ⟨front.trees ++ back.trees, back.cursor⟩, ?_, near_back, ?_⟩
  · exact (reaches_front.trans (grammar.reaches_skipBlanks context _)).trans reaches_back
  · rw [← near_front] at taken_back
    simp only [Grammar.taken] at taken_front taken_back
    simp only [Grammar.taken, takeForm, taken_front, Option.bind_some, taken_back, Option.map_some]
  · rw [trimTrees_append, trimTrees_append, trees_front, trees_back]

theorem choice_first (front : grammar.Finds first context cursor found) :
    grammar.Finds (.choice first second) context cursor found := by
  obtain ⟨reaches, other, taken, near, trees⟩ := front
  refine ⟨reaches, other, ?_, near, trees⟩
  simp only [Grammar.taken] at taken
  simp only [Grammar.taken, takeForm, taken, Option.some_or]

/-- The second of two alternatives is found where the first one takes nothing. -/
theorem choice_second (nothing : grammar.taken first context cursor = none)
    (back : grammar.Finds second context cursor found) :
    grammar.Finds (.choice first second) context cursor found := by
  obtain ⟨reaches, other, taken, near, trees⟩ := back
  refine ⟨reaches, other, ?_, near, trees⟩
  simp only [Grammar.taken] at taken nothing
  simp only [Grammar.taken, takeForm, nothing, taken, Option.none_or]

/-- One of several alternatives is found where those before it take nothing. -/
theorem choices {forms : List (Form Name)} {place : Nat} (listed : forms[place]? = some form)
    (nothing : ∀ earlier, earlier < place → ∀ other, forms[earlier]? = some other →
      grammar.taken other context cursor = none)
    (inner : grammar.Finds form context cursor found) :
    grammar.Finds (.choices forms) context cursor found := by
  induction forms generalizing place with
  | nil => simp at listed
  | cons head rest ih =>
    cases rest with
    | nil =>
      cases place with
      | zero =>
        cases listed
        exact inner
      | succ place => simp at listed
    | cons next rest =>
      rw [Form.choices]
      · cases place with
        | zero =>
          cases listed
          exact .choice_first inner
        | succ place =>
          refine .choice_second (nothing 0 (by omega) head rfl) (ih listed ?_)
          exact fun earlier before other there =>
            nothing (earlier + 1) (by omega) other there
      · simp

theorem optional_given (inner : grammar.Finds form context cursor found) :
    grammar.Finds (.optional form) context cursor found := by
  obtain ⟨reaches, other, taken, near, trees⟩ := inner
  refine ⟨reaches, other, ?_, near, trees⟩
  simp only [Grammar.taken] at taken
  simp only [Grammar.taken, takeForm, taken, Option.getD_some]

/-- An optional form is left out where it takes nothing. -/
theorem optional_omitted (nothing : grammar.taken form context cursor = none) :
    grammar.Finds (.optional form) context cursor ⟨[], cursor⟩ := by
  refine ⟨.refl cursor, ⟨[], cursor⟩, ?_, rfl, rfl⟩
  simp only [Grammar.taken] at nothing
  simp only [Grammar.taken, takeForm, nothing, Option.getD_none]

/-- A repetition has no round where its form takes nothing. -/
theorem many_none (nothing : grammar.taken form context cursor = none) :
    grammar.Finds (.many form) context cursor ⟨[], cursor⟩ :=
  ⟨.refl cursor, ⟨[], cursor⟩, taken_many_none nothing, rfl, rfl⟩

/-- A repetition ends where its form takes nothing. -/
theorem many_last (last : grammar.Finds form context cursor found)
    (nothing : grammar.taken form context (grammar.skipBlanks context found.cursor) = none) :
    grammar.Finds (.many form) context cursor found := by
  obtain ⟨reaches, other, taken, near, trees⟩ := last
  rw [← near] at nothing
  exact ⟨reaches, other, taken_many_last taken nothing, near, trees⟩

theorem many_more (ranking : grammar.Ranking) (some_char : form.mayBeEmpty ranking.empty = false)
    (front : grammar.Finds form context cursor found)
    (again : grammar.taken form context (grammar.skipBlanks context found.cursor) ≠ none)
    (back : grammar.Finds (.many form) context (grammar.skipBlanks context found.cursor) next) :
    grammar.Finds (.many form) context cursor ⟨found.trees ++ next.trees, next.cursor⟩ := by
  obtain ⟨reaches_front, front, taken_front, near_front, trees_front⟩ := front
  obtain ⟨reaches_back, back, taken_back, near_back, trees_back⟩ := back
  obtain ⟨round, taken_round⟩ := Option.ne_none_iff_exists'.mp again
  refine ⟨?_, ⟨front.trees ++ back.trees, back.cursor⟩, ?_, near_back, ?_⟩
  · exact (reaches_front.trans (grammar.reaches_skipBlanks context _)).trans reaches_back
  · rw [← near_front] at taken_back taken_round
    exact taken_many_more ranking some_char taken_front taken_round taken_back
  · rw [trimTrees_append, trimTrees_append, trees_front, trees_back]

end Finds

/-- Nodes for near ends are the same up to blanks. -/
theorem trimTrees_present {name : Name} {context : Context} {cursor : Cursor}
    {found other : Found Name} (to_found : cursor.Reaches found.cursor)
    (to_other : cursor.Reaches other.cursor)
    (near : grammar.Near (grammar.inside name context) other.cursor found.cursor)
    (trees : grammar.trimTrees other.trees = grammar.trimTrees found.trees) :
    grammar.trimTrees (grammar.present name context cursor other).trees =
      grammar.trimTrees (grammar.present name context cursor found).trees := by
  have texts := near.rdropWhile_eq to_other to_found
  unfold present
  unfold Near skipBlanks inside at near
  cases mode : grammar.mode name <;> simp only [mode] at near ⊢
  · split
    · simp only [trimTrees, trimTree, mode, texts, trees]
    · exact trees
  · simpa using trees
  · rw [near]
    split
    · simp only [trimTrees, trimTree, mode, trees]
    · exact trees
  · rw [near]
    split
    · simp only [trimTrees, trimTree, mode, trees]
    · exact trees

/-- Nodes that start at near places are the same up to blanks. -/
theorem trimTrees_present_of_blanks {name : Name} {context : Context} {cursor start : Cursor}
    {found : Found Name} (plain : grammar.mode name = .plain)
    (blanks : grammar.Blanks context cursor start) (reaches : start.Reaches found.cursor)
    (bare : start.Lacks grammar.blank)
    (takes : found.cursor.rest.length < start.rest.length) :
    grammar.trimTrees (grammar.present name context start found).trees =
      grammar.trimTrees (grammar.present name context cursor found).trees := by
  unfold Blanks at blanks
  split at blanks
  · obtain ⟨chars, all_blank, rest, offset⟩ := blanks
    have longer : cursor.textTo found.cursor = chars ++ start.textTo found.cursor := by
      apply Cursor.textTo_of_rest
      · rw [rest, reaches.rest_eq, List.append_assoc]
      · rw [reaches.offset_eq, offset, List.length_append, Nat.add_assoc]
    obtain ⟨c, text, is_text⟩ : ∃ c text, start.textTo found.cursor = c :: text := by
      apply List.exists_cons_of_ne_nil
      intro none_taken
      have counted := congrArg List.length reaches.rest_eq
      rw [none_taken] at counted
      simp at counted
      omega
    have visible : grammar.blank c = false := by
      apply bare c
      rw [reaches.rest_eq, is_text]
      rfl
    have stripped : (c :: text).rdropWhile grammar.blank = c :: text.rdropWhile grammar.blank :=
      rdropWhile_append_cons [] visible
    have stripped_longer := @rdropWhile_append_cons grammar.blank chars c text visible
    unfold present
    rw [longer, is_text]
    simp only [plain]
    split
    · simp only [trimTrees, trimTree, plain, stripped, stripped_longer, offset,
        List.takeWhile_append_of_pos all_blank, List.dropWhile_append_of_pos all_blank,
        List.takeWhile_cons, List.dropWhile_cons, visible, Bool.false_eq_true, if_false,
        List.append_nil, List.length_nil, Nat.add_zero]
    · rfl
  · rw [blanks]

theorem near_of_inside {name : Name} {context : Context} {first second : Cursor}
    (near : grammar.Near (grammar.inside name context) first second) :
    grammar.Near context first second := by
  unfold Near skipBlanks inside at near
  unfold Near
  cases mode : grammar.mode name <;> simp only [mode] at near
  · exact near
  · exact near
  · rw [near]
  · rw [near]

theorem Finds.phrase (ranking : grammar.Ranking) {name : Name} {context : Context}
    {cursor : Cursor} {found : Found Name}
    (inner : grammar.Finds (grammar.form name) (grammar.inside name context) cursor found) :
    grammar.Finds (.phrase name) context cursor (grammar.present name context cursor found) := by
  obtain ⟨reaches, other, taken, near, trees⟩ := inner
  have to_other := (takeForm_advances (take_advances ranking) _ _ _ _ taken).1
  refine ⟨?_, grammar.present name context cursor other, ?_, ?_, ?_⟩
  · rwa [present_cursor]
  · show grammar.take name context cursor = _
    rw [take_phrase ranking, taken, Option.map_some]
  · rw [present_cursor, present_cursor]
    exact near_of_inside near
  · exact trimTrees_present reaches to_other near trees

/-- A phrase that is read in place is found like its form. -/
theorem Finds.silent (ranking : grammar.Ranking) {name : Name} {context : Context}
    {cursor : Cursor} {found : Found Name} (silent : grammar.mode name = .silent)
    (inner : grammar.Finds (grammar.form name) context cursor found) :
    grammar.Finds (.phrase name) context cursor found := by
  rw [← grammar.inside_silent silent context] at inner
  rw [← grammar.present_silent silent context cursor found]
  exact .phrase ranking inner

namespace Finds

variable {context : Context} {form : Form Name}

/-- A repetition is found when its rounds are, and when it stops where it should.  `follows` says
what may stand behind a round: a further round may, and what stands behind the last one does. -/
theorem rounds (ranking : grammar.Ranking) (some_char : form.mayBeEmpty ranking.empty = false)
    {bound : Nat} {follows : Cursor → Prop}
    (round : ∀ cursor found, cursor.rest.length ≤ bound →
      grammar.Derivable form context cursor found →
      follows (grammar.skipBlanks context found.cursor) → grammar.Finds form context cursor found)
    (again : ∀ cursor found, grammar.Derivable form context cursor found →
      follows cursor ∧ grammar.skipBlanks context cursor = cursor) :
    ∀ {cursor found}, cursor.rest.length ≤ bound →
      Rounds grammar grammar.Ahead form context cursor found →
      follows (grammar.skipBlanks context found.cursor) →
      grammar.taken form context (grammar.skipBlanks context found.cursor) = none →
      grammar.taken form context cursor ≠ none ∧ grammar.Finds (.many form) context cursor found
  | cursor, found, within, .last inner, ends, stops => by
    have finds := round _ _ within inner ends
    exact ⟨finds.ne_none, finds.many_last stops⟩
  | cursor, _, within, @Rounds.more _ _ _ _ _ _ middle front next in_front blanks in_back, ends,
      stops => by
    have starts : follows middle ∧ grammar.skipBlanks context middle = middle := by
      cases in_back with
      | last inner => exact again _ _ inner
      | more inner => exact again _ _ inner
    have place : grammar.skipBlanks context front.cursor = middle := by
      rw [← blanks.skipBlanks_eq, starts.2]
    have finds := round _ _ within in_front (by rw [place]; exact starts.1)
    have front_le := finds.reaches.length_le
    have blanks_le := blanks.reaches.length_le
    obtain ⟨goes_on, finds_back⟩ :=
      rounds ranking some_char round again (by omega) in_back ends stops
    rw [← place] at goes_on finds_back
    exact ⟨finds.ne_none, finds.many_more ranking some_char goes_on finds_back⟩

/-- A repetition is found from behind the blanks before it, up to the blanks behind it. -/
theorem many_free (ranking : grammar.Ranking) (some_char : form.mayBeEmpty ranking.empty = false)
    {bound : Nat} {follows : Cursor → Prop}
    (round : ∀ cursor found, cursor.rest.length ≤ bound →
      grammar.Derivable form context cursor found →
      follows (grammar.skipBlanks context found.cursor) → grammar.Finds form context cursor found)
    (again : ∀ cursor found, grammar.Derivable form context cursor found →
      follows cursor ∧ grammar.skipBlanks context cursor = cursor)
    {start cursor : Cursor} {found : Found Name} (blanks : grammar.Blanks context start cursor)
    (within : cursor.rest.length ≤ bound)
    (derives : grammar.Derivable (.many form) context cursor found)
    (ends : follows (grammar.skipBlanks context found.cursor))
    (stops : grammar.taken form context (grammar.skipBlanks context found.cursor) = none) :
    follows (grammar.skipBlanks context start) ∧
      ∃ other, grammar.Finds (.many form) context (grammar.skipBlanks context start) other ∧
        other.trees = found.trees ∧
        grammar.skipBlanks context other.cursor = grammar.skipBlanks context found.cursor := by
  rcases derives_many.mp derives with rfl | rounds
  · rw [← blanks.skipBlanks_eq]
    exact ⟨ends, _, .many_none stops, rfl, (blanks_skipBlanks context cursor).skipBlanks_eq⟩
  · obtain ⟨starts, still⟩ : follows cursor ∧ grammar.skipBlanks context cursor = cursor := by
      cases rounds with
      | last inner => exact again _ _ inner
      | more inner => exact again _ _ inner
    rw [← blanks.skipBlanks_eq, still]
    exact ⟨starts, found, (Finds.rounds ranking some_char round again within rounds ends stops).2,
      rfl, rfl⟩

end Finds

/-! ## Single forms -/

section Single

variable {context : Context} {cursor : Cursor} {found : Found Name}
  {ahead : Form Name → Context → Cursor → Prop}

theorem taken_text {chars rest : List Char} (here : cursor.rest = chars ++ rest) :
    grammar.taken (.text chars) context cursor =
      some ⟨[], ⟨rest, cursor.offset + chars.length⟩⟩ := by
  have starts : chars.isPrefixOf (chars ++ rest) = true :=
    List.isPrefixOf_iff_prefix.mpr (List.prefix_append chars rest)
  simp only [taken, takeForm, here, starts, if_true, Cursor.skip, List.drop_left]

theorem taken_char {accepts : Char → Bool} {c : Char} {rest : List Char}
    (here : cursor.rest = c :: rest) (accepted : accepts c = true) :
    grammar.taken (.char accepts) context cursor = some ⟨[], ⟨rest, cursor.offset + 1⟩⟩ := by
  simp only [taken, takeForm, here, accepted, if_true, Cursor.skip, List.drop_one, List.tail_cons]

theorem taken_char_eq_none {accepts : Char → Bool}
    (other : cursor.Lacks accepts) :
    grammar.taken (.char accepts) context cursor = none := by
  simp only [taken, takeForm]
  cases here : cursor.rest with
  | nil => rfl
  | cons c rest =>
    have refused := other c (by rw [here]; rfl)
    simp only [refused, Bool.false_eq_true, if_false]

theorem taken_text_eq_none {first : Char} {chars : List Char}
    (other : ∀ c ∈ cursor.rest.head?, c ≠ first) :
    grammar.taken (.text (first :: chars)) context cursor = none := by
  have differs : (first :: chars).isPrefixOf cursor.rest = false := by
    cases here : cursor.rest with
    | nil => rfl
    | cons c rest =>
      have apart := other c (by rw [here]; rfl)
      simp only [List.isPrefixOf, Bool.and_eq_false_iff, beq_eq_false_iff_ne]
      exact .inl apart.symm
  simp only [taken, takeForm, differs, Bool.false_eq_true, if_false]

theorem taken_choice_eq_none {first second : Form Name}
    (no_first : grammar.taken first context cursor = none)
    (no_second : grammar.taken second context cursor = none) :
    grammar.taken (.choice first second) context cursor = none := by
  simp only [taken] at no_first no_second
  simp only [taken, takeForm, no_first, no_second, Option.or_none]

theorem taken_seq_eq_none {first second : Form Name}
    (nothing : grammar.taken first context cursor = none) :
    grammar.taken (.seq first second) context cursor = none := by
  simp only [taken] at nothing
  simp only [taken, takeForm, nothing, Option.bind_none]

/-- A look ahead that finds its form fails. -/
theorem taken_notAhead_eq_none {form : Form Name}
    (finds : grammar.Finds form { context with lookahead := context.lookahead.flip } cursor found) :
    grammar.taken (.notAhead form) context cursor = none := by
  obtain ⟨-, other, taken, -⟩ := finds
  simp only [Grammar.taken] at taken
  simp only [Grammar.taken, takeForm, taken]

theorem Finds.text_of_rest (ranking : grammar.Ranking) {chars rest : List Char}
    (here : cursor.rest = chars ++ rest) :
    grammar.Finds (.text chars) context cursor ⟨[], ⟨rest, cursor.offset + chars.length⟩⟩ :=
  .of_taken ranking (taken_text here)

theorem Finds.text (ranking : grammar.Ranking) {chars : List Char}
    (derives : Derives grammar ahead (.text chars) context cursor found) :
    grammar.Finds (.text chars) context cursor found := by
  obtain ⟨rest, here, rfl⟩ := derives_text.mp derives
  exact .of_taken ranking (taken_text here)

theorem Finds.textAnyCase (ranking : grammar.Ranking) {chars : List Char}
    (derives : Derives grammar ahead (.textAnyCase chars) context cursor found) :
    grammar.Finds (.textAnyCase chars) context cursor found := by
  cases derives with
  | @textAnyCase _ front rest _ _ here same =>
    have counted : chars.length = front.length := by simpa using (congrArg List.length same).symm
    have starts :
        (chars.map Char.toLower).isPrefixOf ((front ++ rest).map Char.toLower) = true := by
      rw [List.map_append, same]
      exact List.isPrefixOf_iff_prefix.mpr (List.prefix_append _ _)
    refine .of_taken ranking ?_
    simp only [Grammar.taken, takeForm, here, starts, if_true, Cursor.skip, counted, List.drop_left]

theorem Finds.char (ranking : grammar.Ranking) {accepts : Char → Bool}
    (derives : Derives grammar ahead (.char accepts) context cursor found) :
    grammar.Finds (.char accepts) context cursor found := by
  obtain ⟨c, rest, here, accepted, rfl⟩ := derives_char.mp derives
  exact .of_taken ranking (taken_char here accepted)

theorem Finds.startOfInput (ranking : grammar.Ranking)
    (derives : Derives grammar ahead .startOfInput context cursor found) :
    grammar.Finds .startOfInput context cursor found := by
  cases derives with
  | startOfInput first =>
    refine .of_taken ranking ?_
    simp only [Grammar.taken, takeForm, first, if_true]

theorem Finds.endOfInput (ranking : grammar.Ranking)
    (derives : Derives grammar ahead .endOfInput context cursor found) :
    grammar.Finds .endOfInput context cursor found := by
  cases derives with
  | endOfInput last =>
    refine .of_taken ranking ?_
    simp only [Grammar.taken, takeForm, last, List.isEmpty_nil, if_true]

theorem Finds.notAhead (ranking : grammar.Ranking) {form : Form Name}
    (derives : grammar.Derivable (.notAhead form) context cursor found) :
    grammar.Finds (.notAhead form) context cursor found := by
  obtain ⟨clear, rfl⟩ := derives_notAhead.mp derives
  have nothing := takeForm_eq_none clear
  refine .of_taken ranking ?_
  simp only [Grammar.taken, takeForm, nothing]

end Single

/-! ## Forms without blanks -/

section Bound

variable {context : Context} (bound : context.spacing ≠ .free)
include bound

theorem skipBlanks_bound (cursor : Cursor) : grammar.skipBlanks context cursor = cursor := by
  unfold skipBlanks
  split
  · exact absurd ‹_› bound
  · rfl

theorem blanks_bound {start stop : Cursor} (blanks : grammar.Blanks context start stop) :
    stop = start := by
  have still := blanks.skipBlanks_eq
  rwa [skipBlanks_bound bound, skipBlanks_bound bound] at still

variable {cursor : Cursor} {found next : Found Name} {first second form : Form Name}

theorem derives_seq_bound {ahead : Form Name → Context → Cursor → Prop}
    (derives : Derives grammar ahead (.seq first second) context cursor found) :
    ∃ front back, Derives grammar ahead first context cursor front ∧
      Derives grammar ahead second context front.cursor back ∧
      found = ⟨front.trees ++ back.trees, back.cursor⟩ := by
  obtain ⟨front, middle, back, in_front, blanks, in_back, rfl⟩ := derives_seq.mp derives
  rw [blanks_bound bound blanks] at in_back
  exact ⟨front, back, in_front, in_back, rfl⟩

theorem Finds.seq_bound (front : grammar.Finds first context cursor found)
    (back : grammar.Finds second context found.cursor next) :
    grammar.Finds (.seq first second) context cursor
      ⟨found.trees ++ next.trees, next.cursor⟩ := by
  refine front.seq ?_
  rwa [skipBlanks_bound bound]

/-- A repetition without blanks is found when each round is and the last one is followed by no
further one. -/
theorem Finds.many_bound (ranking : grammar.Ranking)
    (some_char : form.mayBeEmpty ranking.empty = false) {follows : Cursor → Prop}
    (round : ∀ cursor found, grammar.Derivable form context cursor found → follows found.cursor →
      grammar.Finds form context cursor found)
    (again : ∀ cursor found, grammar.Derivable form context cursor found → follows cursor)
    (derives : grammar.Derivable (.many form) context cursor found) (ends : follows found.cursor)
    (stops : grammar.taken form context found.cursor = none) :
    grammar.Finds (.many form) context cursor found := by
  rcases derives_many.mp derives with rfl | rounds
  · exact .many_none stops
  · rw [← skipBlanks_bound bound found.cursor] at ends stops
    exact (Finds.rounds ranking some_char
      (fun cursor found _ derives ends => round cursor found derives
        (by rwa [skipBlanks_bound bound] at ends))
      (fun cursor found derives => ⟨again cursor found derives, skipBlanks_bound bound cursor⟩)
      (Nat.le_refl _) rounds ends stops).2

/-- A repetition of forms that are found wherever they are derivable. -/
theorem Finds.many_run (ranking : grammar.Ranking)
    (some_char : form.mayBeEmpty ranking.empty = false)
    (round : ∀ cursor found, grammar.Derivable form context cursor found →
      grammar.Finds form context cursor found)
    (derives : grammar.Derivable (.many form) context cursor found)
    (stops : grammar.taken form context found.cursor = none) :
    grammar.Finds (.many form) context cursor found := by
  have follows (_ : Cursor) : True := trivial
  exact .many_bound bound ranking some_char
    (fun cursor found derives _ => round cursor found derives) (fun cursor _ _ => follows cursor)
    derives trivial stops

end Bound

end Grammar

end Proviso
