/- # Proviso.Proofs.Clause.Words -- names, numbers and texts

The phrases that blanks may not stand in: names, paths, numbers, quoted texts and the constants.
The matcher takes as many characters as it can, a derivation any number.  So each lemma here says
which characters must not follow for a derivation to be what the matcher finds. -/
import Proviso.Proofs.Clause.Starts

namespace Proviso

set_option autoImplicit false

namespace Phrase

open Grammar

variable {ahead : Form Phrase → Context → Cursor → Prop} {context : Context} {cursor : Cursor}
  {found : Found Phrase}

/-! ## Runs of characters -/

/-- Runs of characters of a kind at the front of a text, which end where no such character follows,
are the same. -/
theorem run_unique {kind : Char → Bool} {run run' tail tail' : List Char}
    (of_kind : ∀ c ∈ run, kind c = true) (of_kind' : ∀ c ∈ run', kind c = true)
    (ends : ∀ c ∈ tail.head?, kind c = false) (ends' : ∀ c ∈ tail'.head?, kind c = false)
    (same : run ++ tail = run' ++ tail') : run = run' ∧ tail = tail' := by
  have front {run tail : List Char} (of_kind : ∀ c ∈ run, kind c = true)
      (ends : ∀ c ∈ tail.head?, kind c = false) : (run ++ tail).takeWhile kind = run := by
    rw [List.takeWhile_append_of_pos of_kind]
    cases tail with
    | nil => simp
    | cons c tail => simp [ends c rfl]
  have runs : run = run' := by rw [← front of_kind ends, same, front of_kind' ends']
  subst runs
  exact ⟨rfl, List.append_cancel_left same⟩

/-- Rounds of single characters are a run of such characters. -/
theorem rounds_run {form : Form Phrase} {kind : Char → Bool} (bound : context.spacing ≠ .free)
    (single : ∀ cursor found, Derives grammar ahead form context cursor found →
      ∃ c, kind c = true ∧ cursor.rest = c :: found.cursor.rest) :
    ∀ {cursor found}, Rounds grammar ahead form context cursor found →
      ∃ run, (∀ c ∈ run, kind c = true) ∧ cursor.rest = run ++ found.cursor.rest
  | cursor, found, .last inner => by
    obtain ⟨c, of_kind, rest⟩ := single _ _ inner
    exact ⟨[c], by simpa using of_kind, rest⟩
  | cursor, _, .more front blanks back => by
    obtain ⟨c, of_kind, rest⟩ := single _ _ front
    obtain ⟨run, all_of_kind, rest_run⟩ := rounds_run bound single back
    rw [blanks_bound bound blanks] at rest_run
    exact ⟨c :: run, by simpa using ⟨of_kind, all_of_kind⟩, by rw [rest, rest_run]; rfl⟩

theorem many_run {form : Form Phrase} {kind : Char → Bool} (bound : context.spacing ≠ .free)
    (single : ∀ cursor found, Derives grammar ahead form context cursor found →
      ∃ c, kind c = true ∧ cursor.rest = c :: found.cursor.rest)
    (derives : Derives grammar ahead (.many form) context cursor found) :
    ∃ run, (∀ c ∈ run, kind c = true) ∧ cursor.rest = run ++ found.cursor.rest := by
  rcases derives_many.mp derives with rfl | rounds
  · exact ⟨[], by simp, rfl⟩
  · exact rounds_run bound single rounds

theorem char_single {kind : Char → Bool} (cursor : Cursor) (found : Found Phrase)
    (derives : Derives grammar ahead (.char kind) context cursor found) :
    ∃ c, kind c = true ∧ cursor.rest = c :: found.cursor.rest := by
  obtain ⟨c, rest, here, accepted, rfl⟩ := derives_char.mp derives
  exact ⟨c, accepted, here⟩

theorem identChar_single (cursor : Cursor) (found : Found Phrase)
    (derives : Derives grammar ahead (.phrase .identChar) context cursor found) :
    ∃ c, isIdentChar c = true ∧ cursor.rest = c :: found.cursor.rest :=
  char_single cursor found ((derives_silent rfl).mp derives)

theorem taken_identChar_eq_none (other : cursor.Lacks isIdentChar) :
    grammar.taken (.phrase .identChar) context cursor = none :=
  firsts.take_eq_none rfl other

theorem finds_identChar
    (derives : Derives grammar ahead (.phrase .identChar) context cursor found) :
    grammar.Finds (.phrase .identChar) context cursor found :=
  .silent ranking rfl (.char ranking ((derives_silent rfl).mp derives))

/-- A look ahead for a character that continues names finds none only if none is there. -/
theorem lacks_of_not_ahead (clear : ¬ grammar.Ahead (.phrase .identChar) context cursor) :
    cursor.Lacks isIdentChar := by
  intro c here
  by_contra continues
  obtain ⟨rest, rest_eq⟩ := List.head?_eq_some_iff.mp here
  exact clear ⟨_, .phrase (.char rest_eq (by simpa using continues))⟩

/-! ## Names -/

theorem ident_bound (context : Context) : (grammar.inside .ident context).spacing ≠ .free := by
  simp [inside, grammar, mode]

theorem ident_shape (derives : Derives grammar ahead (.phrase .ident) context cursor found) :
    ∃ first run, isIdentStart first = true ∧ (∀ c ∈ run, isIdentChar c = true) ∧
      cursor.rest = first :: run ++ found.cursor.rest := by
  obtain ⟨inner, in_form, rfl⟩ := derives_phrase.mp derives
  obtain ⟨front, back, in_front, in_back, rfl⟩ := derives_seq_bound (ident_bound context) in_form
  obtain ⟨first, starts, rest⟩ := char_single _ _ in_front
  obtain ⟨run, continues, rest_run⟩ := many_run (ident_bound context) identChar_single in_back
  rw [present_cursor]
  exact ⟨first, run, starts, continues, by rw [rest, rest_run]; rfl⟩

theorem finds_ident (derives : grammar.Derivable (.phrase .ident) context cursor found)
    (ends : found.cursor.Lacks isIdentChar) :
    grammar.Finds (.phrase .ident) context cursor found := by
  obtain ⟨inner, in_form, rfl⟩ := derives_phrase.mp derives
  rw [present_cursor] at ends
  have bound := ident_bound context
  obtain ⟨front, back, in_front, in_back, rfl⟩ := derives_seq_bound bound in_form
  refine .phrase ranking (.seq_bound bound (.char ranking in_front) ?_)
  exact .many_run bound ranking rfl (fun _ _ derives => finds_identChar derives) in_back
    (taken_identChar_eq_none ends)

/-! ## Digits -/

theorem digits_shape (bound : context.spacing ≠ .free)
    (derives : Derives grammar ahead digits context cursor found) :
    ∃ first run, (∀ c ∈ first :: run, c.isDigit = true) ∧
      cursor.rest = first :: run ++ found.cursor.rest := by
  obtain ⟨front, back, in_front, in_back, rfl⟩ := derives_seq_bound bound derives
  obtain ⟨first, is_digit, rest⟩ := char_single _ _ in_front
  obtain ⟨run, are_digits, rest_run⟩ := many_run bound char_single in_back
  exact ⟨first, run, by simpa using ⟨is_digit, are_digits⟩, by rw [rest, rest_run]; rfl⟩

theorem finds_many_digits (bound : context.spacing ≠ .free)
    (derives : grammar.Derivable (.many (.char Char.isDigit)) context cursor found)
    (ends : found.cursor.Lacks Char.isDigit) :
    grammar.Finds (.many (.char Char.isDigit)) context cursor found :=
  .many_run bound ranking rfl (fun _ _ derives => .char ranking derives) derives
    (taken_char_eq_none ends)

theorem finds_digits (bound : context.spacing ≠ .free)
    (derives : grammar.Derivable digits context cursor found)
    (ends : found.cursor.Lacks Char.isDigit) : grammar.Finds digits context cursor found := by
  obtain ⟨front, back, in_front, in_back, rfl⟩ := derives_seq_bound bound derives
  exact .seq_bound bound (.char ranking in_front) (finds_many_digits bound in_back ends)

/-! ## Paths -/

theorem index_bound (context : Context) : (grammar.inside .index context).spacing ≠ .free := by
  simp [inside, grammar, mode]

theorem finds_index (derives : grammar.Derivable (.phrase .index) context cursor found)
    (ends : found.cursor.Lacks Char.isDigit) :
    grammar.Finds (.phrase .index) context cursor found := by
  obtain ⟨inner, in_form, rfl⟩ := derives_phrase.mp derives
  rw [present_cursor] at ends
  exact .phrase ranking (finds_digits (index_bound context) in_form ends)

theorem fieldAccess_bound (context : Context) :
    (grammar.inside .fieldAccess context).spacing ≠ .free := by
  simp [inside, grammar, mode]

theorem finds_fieldAccess
    (derives : grammar.Derivable (.phrase .fieldAccess) context cursor found)
    (ends : found.cursor.Lacks isIdentChar) :
    grammar.Finds (.phrase .fieldAccess) context cursor found := by
  obtain ⟨inner, in_form, rfl⟩ := derives_phrase.mp derives
  rw [present_cursor] at ends
  have bound := fieldAccess_bound context
  obtain ⟨dot, name, in_dot, in_name, rfl⟩ := derives_seq_bound bound in_form
  exact .phrase ranking (.seq_bound bound (.text ranking in_dot) (finds_ident in_name ends))

theorem indexAccess_bound (context : Context) :
    (grammar.inside .indexAccess context).spacing ≠ .free := by
  simp [inside, grammar, mode]

theorem finds_indexAccess
    (derives : grammar.Derivable (.phrase .indexAccess) context cursor found) :
    grammar.Finds (.phrase .indexAccess) context cursor found := by
  obtain ⟨inner, in_form, rfl⟩ := derives_phrase.mp derives
  have bound := indexAccess_bound context
  obtain ⟨opening, rest, in_opening, in_rest, rfl⟩ := derives_seq_bound bound in_form
  obtain ⟨index, closing, in_index, in_closing, rfl⟩ := derives_seq_bound bound in_rest
  have ends : index.cursor.Lacks Char.isDigit := by
    obtain ⟨rest, here, -⟩ := derives_text.mp in_closing
    exact Cursor.lacks_of_head (by rw [here]; rfl) rfl
  exact .phrase ranking (.seq_bound bound (.text ranking in_opening)
    (.seq_bound bound (finds_index in_index ends) (.text ranking in_closing)))

def isStepStart (c : Char) : Bool := c == '.' || c == '['

def stepForm : Form Phrase := .choice (.phrase .fieldAccess) (.phrase .indexAccess)

theorem step_starts (derives : Derives grammar ahead stepForm context cursor found) :
    ∃ c, cursor.rest.head? = some c ∧ isStepStart c = true := by
  rcases derives_choice.mp derives with derives | derives
  · obtain ⟨c, here, starts⟩ := firsts.starts_of_derives rfl derives
    have dot : (c == '.') = true := starts
    exact ⟨c, here, by simp [isStepStart, dot]⟩
  · obtain ⟨c, here, starts⟩ := firsts.starts_of_derives rfl derives
    have bracket : (c == '[') = true := starts
    exact ⟨c, here, by simp [isStepStart, bracket]⟩

theorem taken_step_eq_none (ends : cursor.Lacks isStepStart) :
    grammar.taken stepForm context cursor = none := by
  have no_field : grammar.take .fieldAccess context cursor = none := by
    refine firsts.take_eq_none rfl fun c here => ?_
    have other := ends c here
    simp only [isStepStart, Bool.or_eq_false_iff] at other
    exact other.1
  have no_bracket : grammar.take .indexAccess context cursor = none := by
    refine firsts.take_eq_none rfl fun c here => ?_
    have other := ends c here
    simp only [isStepStart, Bool.or_eq_false_iff] at other
    exact other.2
  exact taken_choice_eq_none no_field no_bracket

theorem finds_step (derives : grammar.Derivable stepForm context cursor found)
    (ends : found.cursor.Lacks isIdentChar) : grammar.Finds stepForm context cursor found := by
  rcases derives_choice.mp derives with derives | derives
  · exact .choice_first (finds_fieldAccess derives ends)
  · have no_field : grammar.taken (.phrase .fieldAccess) context cursor = none := by
      obtain ⟨c, here, starts⟩ := firsts.starts_of_derives rfl derives
      have is_bracket : c = '[' := beq_iff_eq.mp starts
      subst is_bracket
      exact firsts.take_eq_none rfl (Cursor.lacks_of_head here rfl)
    exact .choice_second no_field (finds_indexAccess derives)

theorem path_bound (context : Context) : (grammar.inside .fieldPath context).spacing ≠ .free := by
  simp [inside, grammar, mode]

/-- A path ends where no character stands that continues a name or starts a step. -/
theorem finds_fieldPath (derives : grammar.Derivable (.phrase .fieldPath) context cursor found)
    (names_end : found.cursor.Lacks isIdentChar) (steps_end : found.cursor.Lacks isStepStart) :
    grammar.Finds (.phrase .fieldPath) context cursor found := by
  obtain ⟨inner, in_form, rfl⟩ := derives_phrase.mp derives
  rw [present_cursor] at names_end steps_end
  have bound := path_bound context
  obtain ⟨name, steps, in_name, in_steps, rfl⟩ := derives_seq_bound bound in_form
  have lacks_of_step (cursor : Cursor) (found : Found Phrase)
      (derives : grammar.Derivable stepForm (grammar.inside .fieldPath context) cursor found) :
      cursor.Lacks isIdentChar := by
    obtain ⟨c, here, starts⟩ := step_starts derives
    simp only [isStepStart, Bool.or_eq_true, beq_iff_eq] at starts
    rcases starts with rfl | rfl <;> exact Cursor.lacks_of_head here rfl
  have name_ends : name.cursor.Lacks isIdentChar := by
    rcases derives_many.mp in_steps with rfl | rounds
    · exact names_end
    · cases rounds with
      | last step => exact lacks_of_step _ _ step
      | more step => exact lacks_of_step _ _ step
  refine .phrase ranking (.seq_bound bound (finds_ident in_name name_ends) ?_)
  exact .many_bound bound ranking rfl (fun _ _ derives ends => finds_step derives ends)
    lacks_of_step in_steps names_end (taken_step_eq_none steps_end)

end Phrase

end Proviso
