/- # Proviso.Proofs.Clause.Viable -- what may be written behind the start of a clause

A text is viable if something can be written behind it so that the whole is derivable as a clause.
Where a form is looked for within a clause, parts of the phrases around it are still to come: closing
parentheses, further arguments, a message.  A text for all of them is kept beside the place
(`Closes`), and each way of going on in the grammar keeps it: into a phrase, into the first part of a
sequence, behind a part that was read.  A phrase that is looked for can be given a sample of itself,
so the text before it is viable (`Closes.viable`). -/
import Proviso.Proofs.Clause.Locality

namespace Proviso

set_option autoImplicit false

namespace Phrase

open Grammar

/-! ## Samples -/

/-- A short text of each phrase. -/
def sample : Phrase → String
  | .endOfInput | .singleQuoted | .doubleQuoted => ""
  | .whitespace => " "
  | .clause | .expression | .primary | .current => "$"
  | .extended => "@:$;msg:$"
  | .binaryOperator | .or => "||"
  | .and => "&&"
  | .eq => "=="
  | .ne => "!="
  | .le => "<="
  | .ge => ">="
  | .lt => "<"
  | .gt => ">"
  | .add => "+"
  | .sub | .neg => "-"
  | .mul => "*"
  | .div => "/"
  | .rem => "%"
  | .unaryOperator | .not => "!"
  | .grouped => "($)"
  | .sibling => "(a)$"
  | .fieldPath | .ident | .identChar => "a"
  | .fieldAccess => ".a"
  | .indexAccess => "[0]"
  | .index | .integer => "0"
  | .number | .float => "0."
  | .exponent => "e0"
  | .call => "a()"
  | .nil => "nil"
  | .boolean => "true"
  | .string => "''"

theorem countP_sample (name : Phrase) : name.sample.toList.countP Char.isDigit ≤ 1 := by
  cases name <;> decide

/-- The sample of a phrase is read as the phrase. -/
theorem take_sample (name : Phrase) (spacing : Spacing) :
    (grammar.take name ⟨spacing, .none⟩ ⟨name.sample.toList, 0⟩).any (·.cursor.rest.isEmpty) =
      true := by
  cases name <;> cases spacing <;> decide +kernel

section

variable {spacing : Spacing} {start stop : Cursor}

/-- Within a clause, a text that is read as a phrase on its own is derivable wherever it stands. -/
theorem derives_of_read_alone {name : Phrase} {chars : List Char}
    (inner : movable (.phrase name) = true)
    (alone : (grammar.take name ⟨spacing, .none⟩ ⟨chars, 0⟩).any (·.cursor.rest.isEmpty) = true)
    (spells : start.Spells chars stop) (ends : isOpen name = true → stop.Lacks isIdentChar) :
    ∃ found, grammar.Derivable (.phrase name) ⟨spacing, .none⟩ start found ∧
      found.cursor = stop := by
  cases taken : grammar.take name ⟨spacing, .none⟩ ⟨chars, 0⟩ with
  | none => simp [taken] at alone
  | some found =>
    have is_last : found.cursor.rest = [] := by simpa [taken] using alone
    have derives := derivable_of_take_phrase taken
    obtain ⟨text, own⟩ : ∃ text, Cursor.Spells ⟨chars, 0⟩ text found.cursor :=
      (derives.advances ranking).1
    have whole : chars = text ++ found.cursor.rest := own.1
    rw [is_last, List.append_nil] at whole
    subst whole
    obtain ⟨moved, moved_derives, moved_stop, -⟩ :=
      moves_of_derives id derives inner _ start stop own spells ends
    exact ⟨moved, moved_derives, moved_stop⟩

/-- Within a clause, the sample of a phrase is derivable wherever it stands. -/
theorem derives_sample {name : Phrase} (inner : movable (.phrase name) = true)
    (spells : start.Spells name.sample.toList stop)
    (ends : isOpen name = true → stop.Lacks isIdentChar) :
    ∃ found, grammar.Derivable (.phrase name) ⟨spacing, .none⟩ start found ∧
      found.cursor = stop :=
  derives_of_read_alone inner (take_sample name spacing) spells ends

/-- A short text of a form; what may be left out is left out. -/
def shortest : Form Phrase → List Char
  | .text chars => chars
  | .phrase name => name.sample.toList
  | .seq first second => shortest first ++ shortest second
  | _ => []

/-- Whether the form is made up of texts, phrases within a clause, and parts that may be left out. -/
def hasShortest : Form Phrase → Bool
  | .text _ | .optional _ | .many _ => true
  | .phrase name => movable (.phrase name)
  | .seq first second => hasShortest first && hasShortest second && joins first second
  | _ => false

theorem derives_shortest {form : Form Phrase} (has : hasShortest form = true)
    (spells : start.Spells (shortest form) stop)
    (ends : endsOpen form = true → stop.Lacks isIdentChar) :
    ∃ found, grammar.Derivable form ⟨spacing, .none⟩ start found ∧ found.cursor = stop := by
  induction form generalizing start stop with
  | text chars => exact ⟨⟨[], stop⟩, spelled_text spells, rfl⟩
  | phrase name => exact derives_sample has spells ends
  | seq first second ih_first ih_second =>
    simp only [hasShortest, Bool.and_eq_true] at has
    obtain ⟨⟨has_first, has_second⟩, joined⟩ := has
    obtain ⟨middle, in_first, in_second⟩ := Cursor.Spells.split spells
    obtain ⟨back, second_derives, rfl⟩ :=
      ih_second has_second in_second fun opens => ends (by simp [endsOpen, opens])
    have blanks : grammar.Blanks ⟨spacing, .none⟩ middle middle := blanks_refl _ middle
    obtain ⟨front, first_derives, rfl⟩ := ih_first has_first in_first fun opens =>
      lacks_between joined opens blanks second_derives ends
    exact ⟨_, .seq first_derives blanks second_derives, rfl⟩
  | optional form =>
    cases spells.eq_of_nil
    exact ⟨_, .omitted, rfl⟩
  | many form =>
    cases spells.eq_of_nil
    exact ⟨_, .noRound, rfl⟩
  | textAnyCase | char | startOfInput | endOfInput | choice | notAhead => cases has

end

/-! ## What is still to come -/

def Accepts (text : List Char) : Prop :=
  ∃ found, grammar.Derivable (.phrase .clause) free ⟨text, 0⟩ found

/-- Behind a text a form is looked for, within a clause; whatever is read as the form, up to the text
`after`, makes the whole a clause with it. -/
structure Closes (form : Form Phrase) (context : Context) (before after : List Char) : Prop where
  ends : endsOpen form = true → Cursor.Lacks ⟨after, 0⟩ isIdentChar
  no_digit : ∀ c ∈ after, c.isDigit = false
  accepts : ∀ text found, grammar.Derivable form context ⟨text ++ after, before.length⟩ found →
    found.cursor.rest = after → Accepts (before ++ (text ++ after))

namespace Closes

variable {form first second : Form Phrase} {context : Context} {before after chars : List Char}

theorem phrase {name : Phrase} (closes : Closes (.phrase name) context before after) :
    Closes name.form (grammar.inside name context) before after where
  ends opens := closes.ends (endsOpen_form opens)
  no_digit := closes.no_digit
  accepts text found derives is_after :=
    closes.accepts text _ (.phrase derives) (by rwa [present_cursor])

theorem choice_first (closes : Closes (.choice first second) context before after) :
    Closes first context before after where
  ends opens := closes.ends (by simp [endsOpen, opens])
  no_digit := closes.no_digit
  accepts text found derives := closes.accepts text found (.first derives)

theorem choice_second (closes : Closes (.choice first second) context before after) :
    Closes second context before after where
  ends opens := closes.ends (by simp [endsOpen, opens])
  no_digit := closes.no_digit
  accepts text found derives := closes.accepts text found (.second derives)

theorem optional (closes : Closes (.optional form) context before after) :
    Closes form context before after where
  ends := closes.ends
  no_digit := closes.no_digit
  accepts text found derives := closes.accepts text found (.given derives)

theorem first_round (closes : Closes (.many form) context before after) :
    Closes form context before after where
  ends := closes.ends
  no_digit := closes.no_digit
  accepts text found derives := closes.accepts text found (.rounds (.last derives))

/-- Before the first part of a sequence, a text of the second part is still to come. -/
theorem seq_first {spacing : Spacing}
    (closes : Closes (.seq first second) ⟨spacing, .none⟩ before after)
    (has : hasShortest second = true) (joined : joins first second = true)
    (no_digit : ∀ c ∈ shortest second, c.isDigit = false) :
    Closes first ⟨spacing, .none⟩ before (shortest second ++ after) := by
  have second_derives (middle : Cursor) (behind : middle.rest = shortest second ++ after) :
      ∃ back, grammar.Derivable second ⟨spacing, .none⟩ middle back ∧
        back.cursor = ⟨after, middle.offset + (shortest second).length⟩ :=
    derives_shortest has ⟨behind, rfl⟩ fun opens => closes.ends (by simp [endsOpen, opens])
  refine ⟨fun opens => ?_, List.forall_mem_append.mpr ⟨no_digit, closes.no_digit⟩, ?_⟩
  · obtain ⟨back, derives, stop⟩ := second_derives ⟨shortest second ++ after, 0⟩ rfl
    refine lacks_between joined opens (blanks_refl _ _) derives fun both => ?_
    rw [stop]
    exact closes.ends both
  · intro text found derives behind
    obtain ⟨back, in_second, stop⟩ := second_derives found.cursor behind
    have whole := closes.accepts (text ++ shortest second) _
      (.seq (by rwa [List.append_assoc]) (blanks_refl _ _) in_second) (by rw [stop])
    rwa [List.append_assoc] at whole

/-- Before the end of the text, nothing is still to come. -/
theorem before_ending (closes : Closes (.seq form (.phrase .endOfInput)) context before []) :
    Closes form context before [] where
  ends _ := fun c here => nomatch here
  no_digit := closes.no_digit
  accepts text found derives is_last := by
    refine closes.accepts text _ (.seq derives (blanks_refl _ _) (.phrase (.endOfInput is_last))) ?_
    rwa [present_cursor]

/-- Behind what was read, which can be moved, the same text is still to come. -/
theorem onward {read : Cursor → Found Phrase → Prop} {open_read : Bool} {cursor middle : Cursor}
    {found : Found Phrase} (closes : Closes form context before after)
    (moves : Moves open_read read cursor found) (to_found : cursor.Reaches found.cursor)
    (blanks : grammar.Blanks context found.cursor middle) (spells : cursor.Spells chars middle)
    (ends : endsOpen second = true → endsOpen form = true)
    (between : ∀ {stop middle back}, grammar.Blanks context stop middle →
      grammar.Derivable second context middle back →
      (endsOpen form = true → back.cursor.Lacks isIdentChar) → open_read = true →
      stop.Lacks isIdentChar)
    (join : ∀ {cursor middle front back}, read cursor front →
      grammar.Blanks context front.cursor middle →
      grammar.Derivable second context middle back →
      grammar.Derivable form context cursor ⟨front.trees ++ back.trees, back.cursor⟩) :
    Closes second context (before ++ chars) after := by
  refine ⟨closes.ends ∘ ends, closes.no_digit, fun text back derives is_after => ?_⟩
  obtain ⟨front_chars, in_front⟩ : ∃ chars, cursor.Spells chars found.cursor := to_found
  obtain ⟨blank_chars, in_blanks⟩ : ∃ chars, found.cursor.Spells chars middle := blanks.reaches
  cases (in_front.append in_blanks).chars_eq spells
  let stop' : Cursor := ⟨blank_chars ++ (text ++ after), before.length + front_chars.length⟩
  have in_front' : Cursor.Spells ⟨front_chars ++ (blank_chars ++ (text ++ after)), before.length⟩
      front_chars stop' := ⟨rfl, rfl⟩
  have in_blanks' : stop'.Spells blank_chars
      ⟨text ++ after, (before ++ (front_chars ++ blank_chars)).length⟩ :=
    ⟨rfl, by simp [stop', Nat.add_assoc]⟩
  have blanks' := blanks_move blanks in_blanks in_blanks'
  have behind (opens : endsOpen form = true) : back.cursor.Lacks isIdentChar := by
    have lacks := closes.ends opens
    rwa [← is_after] at lacks
  obtain ⟨front', read_front, stops, -⟩ :=
    moves _ _ _ in_front in_front' (between blanks' derives behind)
  rw [← stops] at blanks'
  have whole := closes.accepts (front_chars ++ blank_chars ++ text) _
    (join (by simpa [List.append_assoc] using read_front) blanks' derives) is_after
  simpa [List.append_assoc] using whole

/-- Behind the first part of a sequence, and blanks. -/
theorem seq_second {ahead : Form Phrase → Context → Cursor → Prop} {cursor middle : Cursor}
    {found : Found Phrase} (closes : Closes (.seq first second) context before after)
    (sees : SeesQuotes ahead) (derives : Derives grammar ahead first context cursor found)
    (can_move : movable first = true) (joined : joins first second = true)
    (blanks : grammar.Blanks context found.cursor middle) (spells : cursor.Spells chars middle) :
    Closes second context (before ++ chars) after :=
  closes.onward (moves_of_derives sees derives can_move) (derives.advances ranking).1 blanks spells
    (fun opens => by simp [endsOpen, opens])
    (fun blanks derives behind opens => lacks_between joined opens blanks derives behind) .seq

/-- Behind some rounds of a repetition, and blanks. -/
theorem next_round {ahead : Form Phrase → Context → Cursor → Prop} {cursor middle : Cursor}
    {found : Found Phrase} (closes : Closes (.many form) context before after)
    (sees : SeesQuotes ahead) (rounds : Rounds grammar ahead form context cursor found)
    (can_move : movable (.many form) = true) (blanks : grammar.Blanks context found.cursor middle)
    (spells : cursor.Spells chars middle) : Closes form context (before ++ chars) after := by
  have joined : joins form form = true := by
    simp only [movable, Bool.and_eq_true] at can_move
    exact can_move.1.2
  refine closes.onward (moves_of_rounds sees rounds can_move) (rounds.advances ranking).1 blanks
    spells id (fun blanks derives behind opens => ?_)
    fun rounds blanks derives => .rounds (rounds.snoc blanks derives)
  exact lacks_between joined opens blanks derives fun _ => behind opens

end Closes

/-! ## Viable texts -/

/-- Something can be written behind the text so that the whole is a clause; one digit is enough. -/
def Viable (before : List Char) : Prop :=
  ∃ rest, rest.countP Char.isDigit ≤ 1 ∧ Accepts (before ++ rest)

/-- Where a phrase within a clause is looked for, the text before it is viable. -/
theorem Closes.viable {name : Phrase} {spacing : Spacing} {before after : List Char}
    (closes : Closes (.phrase name) ⟨spacing, .none⟩ before after)
    (inner : movable (.phrase name) = true) : Viable before := by
  have spells : Cursor.Spells ⟨name.sample.toList ++ after, before.length⟩ name.sample.toList
      ⟨after, before.length + name.sample.toList.length⟩ := ⟨rfl, rfl⟩
  obtain ⟨found, derives, stop⟩ := derives_sample inner spells closes.ends
  refine ⟨name.sample.toList ++ after, ?_, closes.accepts _ found derives (by rw [stop])⟩
  have none_behind : after.countP Char.isDigit = 0 :=
    List.countP_eq_zero.mpr fun c listed => by simp [closes.no_digit c listed]
  rw [List.countP_append, none_behind]
  exact countP_sample name

/-- Where the end of a clause is looked for, the text before it is one. -/
theorem Closes.viable_of_ending {before : List Char}
    (closes : Closes (.phrase .endOfInput) free before []) : Viable before :=
  ⟨[], Nat.zero_le 1, closes.accepts [] _ (.phrase (.endOfInput rfl)) (by rw [present_cursor]; rfl)⟩

/-- What a clause is made of, behind the start of the text. -/
def clauseBody : Form Phrase :=
  .seq (.choice (.phrase .extended) (.phrase .expression)) (.phrase .endOfInput)

/-- Behind blanks, a clause is still to come. -/
theorem closes_body {blanks : List Char} (all_blank : ∀ c ∈ blanks, isBlank c = true) :
    Closes clauseBody free blanks [] where
  ends _ := fun c here => nomatch here
  no_digit := fun c listed => nomatch listed
  accepts text found derives _ := by
    have to_body : grammar.Blanks free ⟨blanks ++ (text ++ []), 0⟩ ⟨text ++ [], blanks.length⟩ :=
      ⟨blanks, all_blank, rfl, (Nat.zero_add _).symm⟩
    exact ⟨_, .phrase (.seq (.startOfInput rfl) to_body derives)⟩

theorem viable_nil : Viable [] :=
  (closes_body fun _ listed => absurd listed List.not_mem_nil).before_ending.choice_second.viable rfl

end Phrase

end Proviso
