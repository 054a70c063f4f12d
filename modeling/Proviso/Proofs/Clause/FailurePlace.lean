/- # Proviso.Proofs.Clause.FailurePlace -- where a match is reported to have failed

A report points to the farthest place at which a phrase of the grammar was looked for in vain.  The
matcher looks for phrases in alternatives that it gives up later, so the place says nothing about the
text as a whole; but the text before it can always be continued to a clause.

The record of failures is fair if that is so of its place (`Fair`), and it says what was sought there
(`Recorded`).  A form keeps the record if each phrase in it does, where the phrase is sought
(`known_form`); that a phrase keeps it, found or not, is an induction over the levels
(`keeps_recorded`).  Words, numbers and quoted texts are read without a report of their parts, so
their looks ahead do not matter. -/
import Proviso.Proofs.Clause.Indices
import Proviso.Proofs.Clause.Sought

namespace Proviso

set_option autoImplicit false

/-! ## Forms that leave the record as it is -/

namespace Grammar

section

variable {Name : Type} {grammar : Grammar Name} {read : Name → Reader Name}

/-- What has been read, once the record is known to be as before. -/
theorem eq_of_snd {outcome : Outcome Name} {failures : Failures Name}
    (same : outcome.2 = failures) : outcome = (outcome.1, failures) := Prod.ext rfl same

theorem iterate_snd {step : Cursor → Failures Name → Outcome Name}
    (same : ∀ cursor failures, (step cursor failures).2 = failures) (context : Context)
    (budget : Nat) (found : Found Name) (failures : Failures Name) :
    (grammar.iterate step context budget found failures).2 = failures := by
  induction budget generalizing found with
  | zero => rfl
  | succ budget ih =>
    unfold iterate
    rw [eq_of_snd (same (grammar.skipBlanks context found.cursor) failures)]
    cases (step (grammar.skipBlanks context found.cursor) failures).1 with
    | none => rfl
    | some next => exact ih _

/-- A form writes nothing into the record if its phrases write nothing. -/
theorem readForm_snd {form : Form Name}
    (same : ∀ name ∈ form.phrases, ∀ context cursor failures,
      (read name context cursor failures).2 = failures)
    (context : Context) (cursor : Cursor) (failures : Failures Name) :
    (grammar.readForm read form context cursor failures).2 = failures := by
  induction form generalizing context cursor failures with
  | text | textAnyCase | char | startOfInput | endOfInput => rfl
  | phrase name => exact same name (List.mem_singleton_self name) context cursor failures
  | seq first second ih_first ih_second =>
    have after_first := ih_first (fun name listed => same name (List.mem_append_left _ listed))
    have after_second := ih_second (fun name listed => same name (List.mem_append_right _ listed))
    simp only [readForm]
    rw [eq_of_snd (after_first context cursor failures)]
    cases (grammar.readForm read first context cursor failures).1 with
    | none => rfl
    | some found =>
      dsimp only
      rw [eq_of_snd (after_second context (grammar.skipBlanks context found.cursor) failures)]
      cases (grammar.readForm read second context _ failures).1 <;> rfl
  | choice first second ih_first ih_second =>
    have after_first := ih_first (fun name listed => same name (List.mem_append_left _ listed))
    have after_second := ih_second (fun name listed => same name (List.mem_append_right _ listed))
    simp only [readForm]
    rw [eq_of_snd (after_first context cursor failures)]
    cases (grammar.readForm read first context cursor failures).1 with
    | none => exact after_second context cursor failures
    | some found => rfl
  | optional form ih =>
    simp only [readForm]
    rw [eq_of_snd (ih same context cursor failures)]
    cases (grammar.readForm read form context cursor failures).1 <;> rfl
  | many form ih =>
    simp only [readForm]
    rw [eq_of_snd (ih same context cursor failures)]
    cases (grammar.readForm read form context cursor failures).1 with
    | none => rfl
    | some found => exact iterate_snd (fun cursor => ih same context cursor) _ _ _ _
  | notAhead form ih =>
    let within := { context with lookahead := context.lookahead.flip }
    simp only [readForm]
    rw [eq_of_snd (ih same within cursor failures)]
    cases (grammar.readForm read form within cursor failures).1 <;> rfl

end

end Grammar

namespace Phrase

open Grammar

/-! ## Forms that are read within a clause -/

/-- Whether reading the form reports nothing: its phrases are only read in place, without phrases of
their own. -/
def quiet (form : Form Phrase) : Bool :=
  form.phrases.all fun name => name == .identChar || name == .exponent

/-- Whether the places where phrases fail in the form can be told: it looks ahead for nothing, and
where phrases are read in the first part of a sequence, the second part can be given without
digits. -/
def tracked : Form Phrase → Bool
  | .text _ | .textAnyCase _ | .char _ => true
  | .startOfInput | .endOfInput | .notAhead _ => false
  | .phrase name => movable (.phrase name)
  | .seq first second => tracked first && tracked second && joins first second &&
      (quiet first || hasShortest second && (shortest second).all (!·.isDigit))
  | .choice first second => tracked first && tracked second
  | .optional form => tracked form
  | .many form => tracked form && joins form form && !form.mayBeEmpty mayBeEmpty

theorem tracked_of_many {form : Form Phrase} (is_tracked : tracked (.many form) = true) :
    tracked form = true := by
  simp only [tracked, Bool.and_eq_true] at is_tracked
  exact is_tracked.1.1

theorem movable_of_tracked {form : Form Phrase} (is_tracked : tracked form = true) :
    movable form = true := by
  induction form with
  | text | textAnyCase | char => rfl
  | phrase name => exact is_tracked
  | seq first second ih_first ih_second =>
    simp only [tracked, Bool.and_eq_true] at is_tracked
    simp [movable, ih_first is_tracked.1.1.1, ih_second is_tracked.1.1.2, is_tracked.1.2]
  | choice first second ih_first ih_second =>
    simp only [tracked, Bool.and_eq_true] at is_tracked
    simp [movable, ih_first is_tracked.1, ih_second is_tracked.2]
  | optional form ih => exact ih is_tracked
  | many form ih =>
    simp only [tracked, Bool.and_eq_true] at is_tracked
    simp only [movable, ih is_tracked.1.1, is_tracked.1.2, is_tracked.2, Bool.and_self]
  | startOfInput | endOfInput | notAhead => cases is_tracked

theorem looks_of_tracked {form : Form Phrase} (is_tracked : tracked form = true) :
    form.looks = [] := by
  induction form with
  | text | textAnyCase | char | phrase => rfl
  | seq first second ih_first ih_second =>
    simp only [tracked, Bool.and_eq_true] at is_tracked
    simp [Form.looks, ih_first is_tracked.1.1.1, ih_second is_tracked.1.1.2]
  | choice first second ih_first ih_second =>
    simp only [tracked, Bool.and_eq_true] at is_tracked
    simp [Form.looks, ih_first is_tracked.1, ih_second is_tracked.2]
  | optional form ih => exact ih is_tracked
  | many form ih => exact ih (tracked_of_many is_tracked)
  | startOfInput | endOfInput | notAhead => cases is_tracked

/-- The parts of words, of numbers and of quoted texts are not reported. -/
theorem quiet_form {name : Phrase} (atomic : grammar.mode name = .atomic) :
    quiet name.form = true := by
  cases name <;> first | rfl | cases atomic

theorem tracked_form {name : Phrase} (inner : movable (.phrase name) = true)
    (parted : grammar.mode name ≠ .atomic) : tracked name.form = true := by
  cases name <;> first | rfl | exact absurd rfl parted | cases inner

/-! ## What is read is derivable, with any number of levels -/

/-- What a look ahead finds, unless it is for names. -/
def FindsNoName (look : Form Phrase) (context : Context) (cursor : Cursor) : Prop :=
  look ≠ .phrase .identChar ∧ grammar.Ahead look context cursor

theorem seesQuotes_findsNoName : SeesQuotes FindsNoName := fun found => ⟨nofun, found⟩

section

variable {levels : Nat} {context : Context} {cursor : Cursor} {found : Found Phrase}

theorem derives_of_takeUpTo {name : Phrase}
    (taken : grammar.takeUpTo levels name context cursor = some found) :
    Derives grammar FindsNoName (.phrase name) context cursor found := by
  induction levels generalizing name context cursor found with
  | zero => cases taken
  | succ levels ih =>
    simp only [takeUpTo, takePhrase, Option.map_eq_some_iff] at taken
    obtain ⟨inner, taken, rfl⟩ := taken
    refine .phrase (takeForm_derives (reaches_of_takeUpTo levels) _ _
      (fun _ _ _ _ _ taken => ih taken) ?_ _ _ (Nat.le_refl _) _ taken)
    rintro look listed context cursor nothing ⟨not_name, ahead⟩
    rcases look_cases listed with rfl | ⟨quote, rfl⟩
    · exact not_name rfl
    · exact not_ahead_of_taken_eq_none listed nothing ahead

theorem derives_of_read {form : Form Phrase} {failures : Failures Phrase}
    (is_tracked : tracked form = true)
    (read : (grammar.readForm (grammar.run levels) form context cursor failures).1 = some found) :
    Derives grammar FindsNoName form context cursor found := by
  rw [grammar.readForm_fst (grammar.run_fst levels)] at read
  refine takeForm_derives (reaches_of_takeUpTo levels) form _
    (fun _ _ _ _ _ taken => derives_of_takeUpTo taken) ?_ _ _ (Nat.le_refl _) _ read
  intro look listed
  rw [looks_of_tracked is_tracked] at listed
  exact absurd listed List.not_mem_nil

theorem run_snd_of_quiet {name : Phrase} (is_quiet : quiet (.phrase name) = true)
    (context : Context) (cursor : Cursor) (failures : Failures Phrase) :
    (grammar.run levels name context cursor failures).2 = failures := by
  induction levels generalizing name context cursor failures with
  | zero => rfl
  | succ levels ih =>
    have named : name = .identChar ∨ name = .exponent := by
      simpa [quiet, Form.phrases] using is_quiet
    rcases named with rfl | rfl <;>
      exact readForm_snd (fun _ listed => absurd listed List.not_mem_nil) context cursor failures

theorem readForm_snd_of_quiet {form : Form Phrase} (is_quiet : quiet form = true)
    (context : Context) (cursor : Cursor) (failures : Failures Phrase) :
    (grammar.readForm (grammar.run levels) form context cursor failures).2 = failures := by
  refine readForm_snd (fun name listed => run_snd_of_quiet ?_) context cursor failures
  simpa [quiet, Form.phrases] using List.all_eq_true.mp is_quiet name listed

end

/-! ## What reading a form keeps -/

theorem movable_of_mem_phrases {form : Form Phrase} (is_tracked : tracked form = true)
    {name : Phrase} (listed : name ∈ form.phrases) : movable (.phrase name) = true := by
  induction form with
  | text | textAnyCase | char | startOfInput | endOfInput => cases listed
  | phrase other =>
    cases List.mem_singleton.mp listed
    exact is_tracked
  | seq first second ih_first ih_second =>
    simp only [tracked, Bool.and_eq_true] at is_tracked
    exact (List.mem_append.mp listed).elim (ih_first is_tracked.1.1.1) (ih_second is_tracked.1.1.2)
  | choice first second ih_first ih_second =>
    simp only [tracked, Bool.and_eq_true] at is_tracked
    exact (List.mem_append.mp listed).elim (ih_first is_tracked.1) (ih_second is_tracked.2)
  | optional form ih => exact ih is_tracked listed
  | many form ih => exact ih (tracked_of_many is_tracked) listed
  | notAhead => cases is_tracked

/-- What is known of the record is kept when the phrase is read behind that text. -/
def Keeps (known : Failures Phrase → Prop) (source : List Char) (levels : Nat) (name : Phrase)
    (context : Context) (before : List Char) : Prop :=
  ∀ ⦃cursor : Cursor⦄ ⦃record : Failures Phrase⦄, Cursor.Spells ⟨source, 0⟩ before cursor →
    known record → known (grammar.run levels name context cursor record).2

section

variable {known : Failures Phrase → Prop} {source before after : List Char} {levels : Nat}
  {form first second : Form Phrase} {spacing : Spacing} {cursor : Cursor}
  {failures : Failures Phrase}

/-- A sequence keeps what its first part keeps, and its second part behind that. -/
theorem known_seq (tracked_first : tracked first = true)
    (place : Cursor.Spells ⟨source, 0⟩ before cursor)
    (known_first : known (grammar.readForm (grammar.run levels) first ⟨spacing, .none⟩ cursor
      failures).2)
    (in_second : ∀ {cursor : Cursor} {chars : List Char} {record : Failures Phrase},
      Passes first ⟨spacing, .none⟩ chars → Cursor.Spells ⟨source, 0⟩ (before ++ chars) cursor →
      known record →
      known (grammar.readForm (grammar.run levels) second ⟨spacing, .none⟩ cursor record).2) :
    known (grammar.readForm (grammar.run levels) (.seq first second) ⟨spacing, .none⟩ cursor
      failures).2 := by
  simp only [readForm]
  cases read : grammar.readForm (grammar.run levels) first ⟨spacing, .none⟩ cursor failures with
  | mk result record =>
    rw [read] at known_first
    cases result with
    | none => exact known_first
    | some found =>
      have derives := derives_of_read tracked_first (congrArg Prod.fst read)
      have blanks : grammar.Blanks ⟨spacing, .none⟩ found.cursor _ := blanks_skipBlanks _ _
      obtain ⟨chars, spells⟩ := (derives.advances ranking).1.trans blanks.reaches
      have known_second := in_second
        ⟨_, _, _, _, seesQuotes_findsNoName, derives, blanks, spells⟩ (place.append spells)
        known_first
      revert known_second
      dsimp only
      rcases grammar.readForm (grammar.run levels) second _ _ record with ⟨_ | next, last⟩ <;>
        exact id

/-- Round after round, a repetition keeps what one round keeps. -/
theorem known_iterate (is_tracked : tracked form = true)
    (place : Cursor.Spells ⟨source, 0⟩ before cursor)
    (in_round : ∀ {cursor : Cursor} {chars : List Char} {record : Failures Phrase},
      PassesRounds form ⟨spacing, .none⟩ chars → Cursor.Spells ⟨source, 0⟩ (before ++ chars) cursor →
      known record →
      known (grammar.readForm (grammar.run levels) form ⟨spacing, .none⟩ cursor record).2)
    (budget : Nat) {found : Found Phrase}
    (rounds : Rounds grammar FindsNoName form ⟨spacing, .none⟩ cursor found)
    (known_before : known failures) :
    known (grammar.iterate (grammar.readForm (grammar.run levels) form ⟨spacing, .none⟩)
      ⟨spacing, .none⟩ budget found failures).2 := by
  induction budget generalizing found failures with
  | zero => exact known_before
  | succ budget ih =>
    have blanks : grammar.Blanks ⟨spacing, .none⟩ found.cursor _ := blanks_skipBlanks _ _
    obtain ⟨chars, spells⟩ := (rounds.advances ranking).1.trans blanks.reaches
    have known_round := in_round ⟨_, _, _, _, seesQuotes_findsNoName, rounds, blanks, spells⟩
      (place.append spells) known_before
    unfold iterate
    cases read : grammar.readForm (grammar.run levels) form ⟨spacing, .none⟩
      (grammar.skipBlanks ⟨spacing, .none⟩ found.cursor) failures with
    | mk result record =>
      rw [read] at known_round
      cases result with
      | none => exact known_round
      | some next =>
        have derives := derives_of_read is_tracked (congrArg Prod.fst read)
        exact ih (rounds.snoc blanks derives) known_round

/-- A form keeps what the phrases in it keep, each where it is looked for. -/
theorem known_form (is_tracked : tracked form = true)
    (place : Cursor.Spells ⟨source, 0⟩ before cursor)
    (phrases : ∀ {name : Phrase} {here later : List Char},
      Part ⟨spacing, .none⟩ name here later form before after →
      Keeps known source levels name ⟨spacing, .none⟩ here)
    (known_before : known failures) :
    known (grammar.readForm (grammar.run levels) form ⟨spacing, .none⟩ cursor failures).2 := by
  induction form generalizing before after cursor failures with
  | text | textAnyCase | char => exact known_before
  | phrase name => exact phrases .phrase place known_before
  | seq first second ih_first ih_second =>
    simp only [tracked, Bool.and_eq_true, Bool.or_eq_true] at is_tracked
    obtain ⟨⟨⟨tracked_first, tracked_second⟩, joined⟩, either⟩ := is_tracked
    refine known_seq tracked_first place ?_ fun passes place known_before =>
      ih_second tracked_second place (fun part => phrases
        (.seq_second (movable_of_tracked tracked_first) joined passes part)) known_before
    rcases either with is_quiet | ⟨has, no_digit⟩
    · rwa [readForm_snd_of_quiet is_quiet]
    · refine ih_first tracked_first place (fun part => phrases
        (.seq_first has joined (fun c listed => ?_) part)) known_before
      simpa using List.all_eq_true.mp no_digit c listed
  | choice first second ih_first ih_second =>
    simp only [tracked, Bool.and_eq_true] at is_tracked
    have known_first := ih_first is_tracked.1 place (fun part => phrases part.choice_first)
      known_before
    have known_second (record : Failures Phrase) (known_before : known record) :=
      ih_second is_tracked.2 place (fun part => phrases part.choice_second) known_before
    simp only [readForm]
    revert known_first
    rcases grammar.readForm (grammar.run levels) first _ cursor failures with ⟨_ | found, record⟩
    · exact known_second record
    · exact id
  | optional form ih =>
    have known_inner := ih is_tracked place (fun part => phrases part.optional) known_before
    simp only [readForm]
    revert known_inner
    rcases grammar.readForm (grammar.run levels) form _ cursor failures with ⟨_ | found, record⟩ <;>
      exact id
  | many form ih =>
    have tracked_round := tracked_of_many is_tracked
    have known_first := ih tracked_round place (fun part => phrases part.first_round) known_before
    simp only [readForm]
    cases read : grammar.readForm (grammar.run levels) form ⟨spacing, .none⟩ cursor failures with
    | mk result record =>
      rw [read] at known_first
      cases result with
      | none => exact known_first
      | some found =>
        have derives := derives_of_read tracked_round (congrArg Prod.fst read)
        refine known_iterate tracked_round place (fun passes place known_before => ?_) _
          (.last derives) known_first
        exact ih tracked_round place (fun part => phrases
          (.next_round (movable_of_tracked is_tracked) passes part)) known_before
  | startOfInput | endOfInput | notAhead => cases is_tracked

end

/-! ## The record stays fair -/

/-- The record of failures blames no phrase that was found, and the text before its place is
viable. -/
structure Fair (source : List Char) (failures : Failures Phrase) : Prop where
  no_unwanted : failures.unwanted = []
  viable : ∃ before rest, source = before ++ rest ∧ failures.offset = before.length ∧ Viable before

/-- The record is fair, and each phrase on it has a name and was sought at its place. -/
structure Recorded (source : List Char) (failures : Failures Phrase) : Prop
    extends Fair source failures where
  sought : ∀ name ∈ failures.expected, name.mode ≠ .silent ∧
    ∃ context after, Sought name context (source.take failures.offset) after

section

variable {source before after : List Char} {cursor : Cursor} {failures later : Failures Phrase}
  {spacing : Spacing}

/-- A phrase that fails where it was sought, and where the text before is viable, may be
reported. -/
theorem Recorded.report (recorded : Recorded source later)
    (place : Cursor.Spells ⟨source, 0⟩ before cursor) (viable : Viable before) {name : Phrase}
    (named : name.mode ≠ .silent) (sought : Sought name ⟨spacing, .none⟩ before after) :
    Recorded source (failures.report later .none name cursor.offset) := by
  have offset_eq : cursor.offset = before.length := place.2.trans (Nat.zero_add _)
  have before_eq : source.take cursor.offset = before := by
    rw [show source = before ++ cursor.rest from place.1, offset_eq, List.take_left]
  have reported : name.mode ≠ .silent ∧
      ∃ context after, Sought name context (source.take cursor.offset) after :=
    ⟨named, _, _, before_eq ▸ sought⟩
  unfold Failures.report
  split
  · exact recorded
  · split
    · exact recorded
    · -- What is kept of the record is from the same place.
      have kept (same : cursor.offset = later.offset) (count : Nat) :
          ∀ other ∈ later.expected.take count ++ [name], other.mode ≠ .silent ∧
            ∃ context after, Sought other context (source.take cursor.offset) after := by
        intro other listed
        rcases List.mem_append.mp listed with earlier | last
        · rw [same]
          exact recorded.sought other (List.mem_of_mem_take earlier)
        · cases List.mem_singleton.mp last
          exact reported
      have alone : ∀ other ∈ [] ++ [name], other.mode ≠ .silent ∧
          ∃ context after, Sought other context (source.take cursor.offset) after := by
        intro other listed
        cases List.mem_singleton.mp listed
        exact reported
      dsimp only
      split
      · split
        · exact ⟨⟨by simp [recorded.no_unwanted], before, cursor.rest, place.1, offset_eq, viable⟩,
            kept ‹_› _⟩
        · exact ⟨⟨rfl, before, cursor.rest, place.1, offset_eq, viable⟩, alone⟩
      · exact ⟨⟨rfl, before, cursor.rest, place.1, offset_eq, viable⟩, alone⟩

/-- A named phrase keeps the record if its parts do. -/
theorem Recorded.readNamed {body : Cursor → Failures Phrase → Outcome Phrase}
    (recorded : Recorded source (body cursor failures).2)
    (place : Cursor.Spells ⟨source, 0⟩ before cursor) (viable : Viable before) {name : Phrase}
    (named : name.mode ≠ .silent) (sought : Sought name ⟨spacing, .none⟩ before after)
    (within : Spacing) :
    Recorded source (Grammar.readNamed name body ⟨within, .none⟩ cursor failures).2 := by
  simp only [Grammar.readNamed]
  split
  · exact recorded.report place viable named sought
  · exact recorded

end

/-- Every phrase within a clause keeps the record, wherever it is sought. -/
theorem keeps_recorded (source : List Char) (levels : Nat) {name : Phrase} {spacing : Spacing}
    {before after : List Char} (inner : movable (.phrase name) = true)
    (sought : Sought name ⟨spacing, .none⟩ before after) :
    Keeps (Recorded source) source levels name ⟨spacing, .none⟩ before := by
  induction levels generalizing name spacing before after with
  | zero => exact fun _ _ _ recorded => recorded
  | succ levels ih =>
    intro cursor record place recorded
    have viable := sought.closes.viable inner
    have keeps_form (parted : grammar.mode name ≠ .atomic) {within : Spacing}
        (context_eq : grammar.inside name ⟨spacing, .none⟩ = ⟨within, .none⟩) :
        Recorded source (grammar.readForm (grammar.run levels) name.form ⟨within, .none⟩ cursor
          record).2 := by
      have is_tracked := tracked_form inner parted
      have phrases {other : Phrase} {here later : List Char}
          (part : Part ⟨within, .none⟩ other here later name.form before after) :
          Keeps (Recorded source) source levels other ⟨within, .none⟩ here :=
        ih (movable_of_mem_phrases is_tracked part.mem_phrases) (.part sought inner context_eq part)
      exact known_form is_tracked place phrases recorded
    have named {mode : Mode} (mode_eq : grammar.mode name = mode) (visible : mode ≠ .silent) :
        name.mode ≠ .silent := fun silent => visible (mode_eq.symm.trans silent)
    show Recorded source (grammar.readPhrase (grammar.run levels) name ⟨spacing, .none⟩ cursor
      record).2
    unfold readPhrase
    unfold inside at keeps_form
    cases mode_eq : grammar.mode name with
    | silent =>
      simp only [mode_eq] at keeps_form
      exact keeps_form nofun rfl
    | plain =>
      simp only [mode_eq] at keeps_form
      refine Recorded.readNamed ?_ place viable (named mode_eq nofun) sought _
      exact keeps_form nofun rfl
    | atomic =>
      refine Recorded.readNamed ?_ place viable (named mode_eq nofun) sought _
      rwa [show grammar.form name = name.form from rfl, readForm_snd_of_quiet (quiet_form mode_eq)]
    | compound =>
      simp only [mode_eq] at keeps_form
      refine Recorded.readNamed ?_ place viable (named mode_eq nofun) sought _
      exact keeps_form nofun rfl

/-! ## The whole text -/

/-- The body of a clause keeps the record: an expression or a rule with a message, and the end of
the text. -/
theorem recorded_body {source : List Char} {levels : Nat} {blanks : List Char} {cursor : Cursor}
    {failures : Failures Phrase} (all_blank : ∀ c ∈ blanks, isBlank c = true)
    (place : Cursor.Spells ⟨source, 0⟩ blanks cursor) (recorded : Recorded source failures) :
    Recorded source
      (grammar.readForm (grammar.run levels) clauseBody free cursor failures).2 := by
  have tracked_first : tracked (.choice (.phrase .extended) (.phrase .expression)) = true := rfl
  have phrases {name : Phrase} {here later : List Char}
      (part : Part free name here later (.choice (.phrase .extended) (.phrase .expression)) blanks
        []) : Keeps (Recorded source) source levels name free here :=
    keeps_recorded source levels (movable_of_mem_phrases tracked_first part.mem_phrases)
      (.body all_blank part.before_ending)
  refine known_seq tracked_first place (known_form tracked_first place phrases recorded) ?_
  intro cursor chars record passes place recorded
  have sought : Sought .endOfInput free (blanks ++ chars) [] :=
    .body all_blank (.seq_second rfl rfl passes .phrase)
  cases levels with
  | zero => exact recorded
  | succ levels =>
    exact Recorded.readNamed recorded place sought.closes.viable_of_ending (by decide) sought _

/-- Matching a clause leaves a record of phrases that were sought at its place. -/
theorem recorded_read (source : List Char) : Recorded source (grammar.read .clause source).2 := by
  have initially : Recorded source .initial :=
    ⟨⟨rfl, [], source, rfl, rfl, viable_nil⟩, fun _ listed => absurd listed List.not_mem_nil⟩
  obtain ⟨levels, counted⟩ := Nat.exists_eq_succ_of_ne_zero
    (Nat.mul_ne_zero (show grammar.names.length ≠ 0 by decide) (Nat.succ_ne_zero source.length))
  have to_body : grammar.Blanks free ⟨source, 0⟩ _ := blanks_skipBlanks _ _
  obtain ⟨blanks, all_blank, here, offset⟩ := to_body
  have body := @recorded_body source levels blanks _ _ all_blank ⟨here, offset⟩ initially
  rw [Grammar.read, counted]
  refine Recorded.readNamed ?_ (.refl _) viable_nil (by decide) .clause _
  -- The start of the text is found and leaves the record as it is.
  have whole : (grammar.readForm (grammar.run levels) (.seq .startOfInput clauseBody) free
      ⟨source, 0⟩ .initial).2 = (grammar.readForm (grammar.run levels) clauseBody free
        (grammar.skipBlanks free ⟨source, 0⟩) .initial).2 := by
    generalize clauseBody = inner
    rw [readForm, readForm]
    simp only [if_true]
    rcases grammar.readForm (grammar.run levels) inner _ _ _ with ⟨_ | next, last⟩ <;> rfl
  exact whole ▸ body

/-- Matching a clause leaves a fair record. -/
theorem fair_read (source : List Char) : Fair source (grammar.read .clause source).2 :=
  (recorded_read source).toFair

end Phrase

/-! ## Errors of texts -/

/-- An oversized index needs more than one digit, so it does not stand behind a text that is followed
by one digit at most. -/
theorem index_lt_of_oversized {before rest front digits back : List Char} {value : Nat}
    (few_digits : rest.countP Char.isDigit ≤ 1) (numeral : IsNumeral value digits)
    (too_large : UInt64.size ≤ value)
    (parts : before ++ rest = front ++ '[' :: (digits ++ ']' :: back)) :
    front.length + 1 < before.length := by
  by_contra behind
  obtain ⟨some_digit, are_digits, value_eq⟩ := numeral
  have opening : before.length ≤ (front ++ ['[']).length := by
    rw [List.length_append, List.length_singleton]
    omega
  have rest_eq : rest = (front ++ ['[']).drop before.length ++ (digits ++ ']' :: back) := by
    rw [← List.drop_append_of_le_length opening, List.append_assoc, List.singleton_append, ← parts,
      List.drop_left]
  have single : digits.length ≤ 1 := by
    rw [rest_eq, List.countP_append, List.countP_append, List.countP_eq_length.mpr are_digits]
      at few_digits
    omega
  match digits, some_digit, single with
  | [c], _, _ =>
    have below : c.toNat ≤ 57 :=
      (Char.isDigit_iff_toNat.mp (are_digits c (List.mem_singleton_self c))).2
    have small : value ≤ 9 := by
      rw [← value_eq]
      show 10 * 0 + (c.toNat - 48) ≤ 9
      omega
    exact absurd (Nat.le_trans too_large small) (by decide)

/-- What stands at a place is a character, or nothing at the end of the text. -/
theorem label_findingAt {source : List Char} {offset : Nat} (within : offset ≤ source.length) :
    (∀ c, source[offset]? = some c →
        (SyntaxError.findingAt source offset []).label = String.ofList ['\'', c, '\'']) ∧
      ((SyntaxError.findingAt source offset []).label = "end of input" ↔
        offset = source.length) := by
  cases here : source[offset]? with
  | none =>
    have ended : source.length ≤ offset := List.getElem?_eq_none_iff.mp here
    simp only [SyntaxError.findingAt, here]
    exact ⟨nofun, fun _ => Nat.le_antisymm within ended, fun _ => rfl⟩
  | some c =>
    have inside : offset < source.length := (List.getElem?_eq_some_iff.mp here).1
    have quoted : String.ofList ['\'', c, '\''] ≠ "end of input" := by
      intro same
      have first := congrArg (·.toList.head?) same
      simp at first
    simp only [SyntaxError.findingAt, here, Option.some.injEq]
    refine ⟨?_, fun same => absurd same quoted, fun at_end => ?_⟩
    · rintro other rfl
      rfl
    · omega

namespace Clause

open Phrase Grammar

/-- A text that matches, with one digit at most behind its start, is a clause unless an index at its
start is too large. -/
theorem parse_continued {before rest : List Char} (few_digits : rest.countP Char.isDigit ≤ 1)
    (accepts : Accepts (before ++ rest)) :
    let whole := String.ofList (before ++ rest)
    (∃ trees, Phrase.clause.parse whole = .ok trees) ∧
      ((∃ clause, parse whole = .ok clause) ∨ ∃ index < before.length,
        parse whole = .error ⟨.other "invalid index", whole, .after (before.take index)⟩) := by
  intro whole
  have matches_whole : ∃ trees, Phrase.clause.parse whole = .ok trees := by
    obtain ⟨found, derives⟩ := accepts
    refine (parse_clause_iff_derivable whole).1.mpr ⟨found, ?_⟩
    rwa [Phrase.Derivable, String.toList_ofList]
  refine ⟨matches_whole, ?_⟩
  obtain ⟨trees, matched⟩ := matches_whole
  obtain ⟨derived, ⟨tree, rfl, is_clause⟩, -⟩ := tree_of_match matched
  have reports := parse_reports matched
  generalize indices : indicesOf [tree] = items at reports
  generalize parse whole = result at reports
  cases reports with
  | @clear _ clause => exact .inl ⟨clause, rfl⟩
  | @broken earlier index later error _ oversized =>
    obtain ⟨too_large, rfl⟩ := oversized
    have listed : index ∈ indicesOf [tree] := by simp [indices]
    obtain ⟨-, numeral, front, back, parts, offset⟩ :=
      inPath_of_derived derived (by simpa using is_clause) listed
    rw [String.toList_ofList] at parts
    have at_start := index_lt_of_oversized few_digits numeral too_large parts
    refine .inr ⟨index.offset, offset ▸ at_start, ?_⟩
    rw [String.toList_ofList, List.take_append_of_le_length (by omega)]

/-- **A text that does not match is reported to fail at a place that correct text reaches.**  The
place is in the text or at its end.  What was found there is the character, in quotes, or the end of
the input exactly at the end of the text.  And the text before the place can be continued to one that
matches, and that is a clause unless an index before the place is too large. -/
theorem parse_fails_at_viable_prefix {source : String} {failure : SyntaxError}
    (rejected : Phrase.clause.parse source = .error failure) :
    parse source = .error failure ∧
      ∃ (offset : Nat) (expected : List Expectation) (found : Finding),
        failure = ⟨.unexpected expected found, source, .after (source.toList.take offset)⟩ ∧
        offset ≤ source.toList.length ∧
        (∀ c, source.toList[offset]? = some c → found.label = String.ofList ['\'', c, '\'']) ∧
        (found.label = "end of input" ↔ offset = source.toList.length) ∧
        ∃ rest : List Char,
          let whole := String.ofList (source.toList.take offset ++ rest)
          (∃ trees, Phrase.clause.parse whole = .ok trees) ∧
            ((∃ clause, parse whole = .ok clause) ∨ ∃ index < offset, parse whole =
              .error ⟨.other "invalid index", whole, .after (source.toList.take index)⟩) := by
  refine ⟨by rw [parse, rejected]; rfl, ?_⟩
  have fair := fair_read source.toList
  rw [Phrase.parse] at rejected
  generalize grammar.read .clause source.toList = outcome at fair rejected
  obtain ⟨_ | found, failures⟩ := outcome
  case some => cases rejected
  cases rejected
  obtain ⟨no_unwanted, before, behind, parts, offset_eq, rest, few_digits, accepts⟩ := fair
  have within : failures.offset ≤ source.toList.length := by
    rw [parts, List.length_append, ← offset_eq]
    exact Nat.le_add_right _ _
  have before_eq : source.toList.take failures.offset = before := by
    rw [parts, show failures.offset = before.length from offset_eq, List.take_left]
  obtain ⟨quoted, ended⟩ := label_findingAt within
  have failure_eq : SyntaxError.ofFailures source failures = .ofFailure source failures.offset
      (Phrase.all.filter (· ∈ failures.expected)) [] := by
    simp [SyntaxError.ofFailures, show failures.unwanted = [] from no_unwanted]
  refine ⟨failures.offset, _, _, failure_eq, within, quoted, ended, rest, ?_⟩
  subst before_eq
  obtain ⟨matched, is_clause | ⟨index, at_start, oversized⟩⟩ := parse_continued few_digits accepts
  · exact ⟨matched, .inl is_clause⟩
  · have earlier : index < failures.offset :=
      Nat.lt_of_lt_of_le at_start (List.length_take_le _ _)
    rw [List.take_take, Nat.min_eq_left earlier.le] at oversized
    exact ⟨matched, .inr ⟨index, earlier, oversized⟩⟩

def unmarkedMessage : String := "@:$ > 0\n;msg 'x'"

theorem parse_fails_at_viable_prefix_unmarkedMessage :
    parse unmarkedMessage =
        .error ⟨.unexpected [.operator] (.char ';'), unmarkedMessage, ⟨2, 1⟩⟩ ∧
      ∃ rest trees, Phrase.clause.parse (String.ofList ("@:$ > 0\n".toList ++ rest)) = .ok trees := by
  have parsed : parse unmarkedMessage =
      .error ⟨.unexpected [.operator] (.char ';'), unmarkedMessage, ⟨2, 1⟩⟩ := by decide +kernel
  have none_found : (Phrase.clause.parse unmarkedMessage).toOption.isNone = true := by
    decide +kernel
  cases rejected : Phrase.clause.parse unmarkedMessage with
  | ok trees =>
    rw [rejected] at none_found
    cases none_found
  | error failure =>
    obtain ⟨same, offset, expected, found, failure_eq, within, -, -, rest, ⟨trees, matched⟩, -⟩ :=
      parse_fails_at_viable_prefix rejected
    rw [parsed, failure_eq] at same
    injection same with same
    injection same with _ _ position
    have line_start : ∀ k ≤ unmarkedMessage.toList.length,
        Position.after (unmarkedMessage.toList.take k) = ⟨2, 1⟩ → k = 8 := by decide +kernel
    cases line_start offset within position.symm
    exact ⟨parsed, rest, trees, matched⟩

end Clause

end Proviso
