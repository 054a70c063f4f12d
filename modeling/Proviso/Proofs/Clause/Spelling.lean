/- # Proviso.Proofs.Clause.Spelling -- tokens as phrases

Each token of a clause is derivable where it is spelled out, as the phrase that it is meant as, and
its tree stands for what was written. -/
import Proviso.Proofs.Clause.Operands
import Proviso.Proofs.Clause.Written
import Proviso.Expr.OfTree

namespace Proviso

set_option autoImplicit false

def Cursor.Spells (start : Cursor) (chars : List Char) (stop : Cursor) : Prop :=
  start.rest = chars ++ stop.rest ∧ stop.offset = start.offset + chars.length

namespace Cursor.Spells

variable {start middle stop : Cursor} {chars front back : List Char}

theorem textTo_eq (spells : start.Spells chars stop) : start.textTo stop = chars :=
  textTo_of_rest spells.1 spells.2

theorem eq_of_nil (spells : start.Spells [] stop) : stop = start := by
  obtain ⟨rest, offset⟩ := stop
  obtain ⟨start_rest, start_offset⟩ := start
  cases spells.1
  cases spells.2
  rfl

theorem split (spells : start.Spells (front ++ back) stop) :
    ∃ middle, start.Spells front middle ∧ middle.Spells back stop := by
  obtain ⟨rest, offset⟩ := spells
  refine ⟨⟨back ++ stop.rest, start.offset + front.length⟩, ⟨?_, rfl⟩, rfl, ?_⟩
  · rw [rest, List.append_assoc]
  · rw [offset, List.length_append, Nat.add_assoc]

end Cursor.Spells

namespace Phrase

open Grammar

variable {ahead : Form Phrase → Context → Cursor → Prop} {context : Context}
  {start middle stop : Cursor} {found : Found Phrase}

/-! ## Characters -/

theorem spelled_text {chars : List Char} (spells : start.Spells chars stop) :
    Derives grammar ahead (.text chars) context start ⟨[], stop⟩ := by
  obtain ⟨rest, offset⟩ := spells
  exact derives_text.mpr ⟨stop.rest, rest, by rw [← offset]⟩

theorem spelled_char {kind : Char → Bool} {c : Char} (of_kind : kind c = true)
    (spells : start.Spells [c] stop) :
    Derives grammar ahead (.char kind) context start ⟨[], stop⟩ := by
  obtain ⟨rest, offset⟩ := spells
  refine derives_char.mpr ⟨c, stop.rest, rest, of_kind, ?_⟩
  rw [show start.offset + 1 = stop.offset from offset.symm]

theorem spelled_identChar {c : Char} (continues : isIdentChar c = true)
    (spells : start.Spells [c] stop) :
    Derives grammar ahead (.phrase .identChar) context start ⟨[], stop⟩ :=
  (derives_silent rfl).mpr (spelled_char continues spells)

/-- Pieces one after another are as many rounds. -/
theorem spelled_pieces {form : Form Phrase} {pieces : List (List Char)}
    (single : ∀ piece ∈ pieces, ∀ start stop, start.Spells piece stop →
      Derives grammar ahead form context start ⟨[], stop⟩)
    (spells : start.Spells pieces.flatten stop) :
    Derives grammar ahead (.many form) context start ⟨[], stop⟩ := by
  induction pieces generalizing start with
  | nil =>
    rw [spells.eq_of_nil]
    exact .noRound
  | cons piece pieces ih =>
    obtain ⟨middle, front, back⟩ := @Cursor.Spells.split start stop piece pieces.flatten spells
    have first := single piece (by simp) start middle front
    have others := ih (fun other listed => single other (by simp [listed])) back
    rcases derives_many.mp others with stops | rounds
    · cases stops
      exact .rounds (.last first)
    · exact .rounds (.more first (blanks_refl context middle) rounds)

theorem spelled_run {form : Form Phrase} {kind : Char → Bool}
    (single : ∀ start stop c, kind c = true → start.Spells [c] stop →
      Derives grammar ahead form context start ⟨[], stop⟩)
    {run : List Char} (of_kind : ∀ c ∈ run, kind c = true) (spells : start.Spells run stop) :
    Derives grammar ahead (.many form) context start ⟨[], stop⟩ := by
  have pieces : run = (run.map fun c => [c]).flatten := by
    rw [← List.flatMap_def, List.flatMap_singleton']
  rw [pieces] at spells
  refine spelled_pieces (fun piece listed start stop spells => ?_) spells
  obtain ⟨c, in_run, rfl⟩ := List.mem_map.mp listed
  exact single start stop c (of_kind c in_run) spells

/-- Parts follow each other without blanks. -/
theorem derives_seq_adjacent {first second : Form Phrase} {trees trees' : List (Tree Phrase)}
    (front : Derives grammar ahead first context start ⟨trees, middle⟩)
    (back : Derives grammar ahead second context middle ⟨trees', stop⟩) :
    Derives grammar ahead (.seq first second) context start ⟨trees ++ trees', stop⟩ :=
  .seq front (blanks_refl context middle) back

/-- A phrase that is a node of the tree, over its parts. -/
theorem derives_node {name : Phrase} {trees : List (Tree Phrase)} (named : name.mode ≠ .silent)
    (node : isNode context = true)
    (inner : Derives grammar ahead name.form (grammar.inside name context) start ⟨trees, stop⟩) :
    Derives grammar ahead (.phrase name) context start
      ⟨[.node name start.offset (start.textTo stop) trees], stop⟩ := by
  have derives : Derives grammar ahead (.phrase name) context start
    (grammar.present name context start ⟨trees, stop⟩) := .phrase inner
  have compound_node : isNode { context with spacing := .compound } = true := by
    simp only [isNode, Bool.and_eq_true] at node ⊢
    exact ⟨rfl, node.2⟩
  have present_eq : grammar.present name context start ⟨trees, stop⟩ =
      ⟨[.node name start.offset (start.textTo stop) trees], stop⟩ := by
    unfold present
    cases mode_eq : grammar.mode name
    case silent => exact absurd mode_eq named
    all_goals simp [node, compound_node]
  rwa [present_eq] at derives

/-! ## Words and numbers -/

theorem not_ahead_of_lacks (ends : start.Lacks isIdentChar) :
    ¬ grammar.Ahead (.phrase .identChar) context start := by
  rintro ⟨found, derives⟩
  obtain ⟨c, continues, rest⟩ := identChar_single _ _ derives
  rw [ends c (by rw [rest]; rfl)] at continues
  cases continues

theorem spelled_ident {chars : List Char} (is_identifier : isIdentifier chars = true)
    (node : isNode context = true) (spells : start.Spells chars stop) :
    Derives grammar ahead (.phrase .ident) context start
      ⟨[.node .ident start.offset chars []], stop⟩ := by
  cases chars with
  | nil => cases is_identifier
  | cons first run =>
    obtain ⟨starts, continues⟩ := Bool.and_eq_true_iff.mp is_identifier
    obtain ⟨middle, front, back⟩ := @Cursor.Spells.split start stop [first] run spells
    have form : Derives grammar ahead (Phrase.form .ident) (grammar.inside .ident context) start
        ⟨[], stop⟩ := derives_seq_adjacent (spelled_char starts front)
      (spelled_run (fun _ _ _ => spelled_identChar) (List.all_eq_true.mp continues) back)
    rw [← spells.textTo_eq]
    exact derives_node (by decide) node form

theorem spelled_digits {value : Nat} {digits : List Char} (numeral : IsNumeral value digits)
    (spells : start.Spells digits stop) :
    Derives grammar ahead Phrase.digits context start ⟨[], stop⟩ := by
  obtain ⟨some_digit, are_digits, -⟩ := numeral
  cases digits with
  | nil => exact absurd rfl some_digit
  | cons first run =>
    obtain ⟨middle, front, back⟩ := @Cursor.Spells.split start stop [first] run spells
    exact derives_seq_adjacent (spelled_char (are_digits first (by simp)) front)
      (spelled_run (fun _ _ _ => spelled_char)
        (fun c listed => are_digits c (by simp [listed])) back)

theorem spelled_integer {value : Nat} {digits : List Char} (numeral : IsNumeral value digits)
    (spells : start.Spells digits stop) (ends : stop.Lacks isIdentChar) :
    grammar.Derivable (.phrase .integer) free start
      ⟨[.node .integer start.offset digits []], stop⟩ := by
  have form := derives_seq_adjacent (spelled_digits numeral spells)
    (.notAhead (not_ahead_of_lacks ends) : grammar.Derivable _ (grammar.inside .integer free) _ _)
  rw [← spells.textTo_eq]
  exact derives_node (by decide) rfl form

theorem spelled_nil (spells : start.Spells "nil".toList stop) (ends : stop.Lacks isIdentChar) :
    grammar.Derivable (.phrase .nil) free start
      ⟨[.node .nil start.offset "nil".toList []], stop⟩ := by
  have form := derives_seq_adjacent (spelled_text spells)
    (.notAhead (not_ahead_of_lacks ends) : grammar.Derivable _ (grammar.inside .nil free) _ _)
  rw [← spells.textTo_eq]
  exact derives_node (by decide) rfl form

theorem spelled_boolean (value : Bool) {chars : List Char}
    (chars_eq : chars = if value then "true".toList else "false".toList)
    (spells : start.Spells chars stop) (ends : stop.Lacks isIdentChar) :
    grammar.Derivable (.phrase .boolean) free start
      ⟨[.node .boolean start.offset chars []], stop⟩ := by
  have word : Derives grammar grammar.Ahead (.choice (literally "true") (literally "false"))
      (grammar.inside .boolean free) start ⟨[], stop⟩ := by
    subst chars_eq
    cases value with
    | true => exact .first (spelled_text spells)
    | false => exact .second (spelled_text spells)
  have form := derives_seq_adjacent word
    (.notAhead (not_ahead_of_lacks ends) : grammar.Derivable _ (grammar.inside .boolean free) _ _)
  rw [← spells.textTo_eq]
  exact derives_node (by decide) rfl form

/-! ## Quoted texts -/

theorem spelled_unit {quote : Char} (c : Char)
    (spells : start.Spells (charInQuotes quote c) stop) :
    grammar.Derivable (quotedUnit quote) context start ⟨[], stop⟩ := by
  unfold charInQuotes at spells
  split at spells
  · obtain ⟨middle, backslash, single⟩ := @Cursor.Spells.split start stop ['\\'] [c] spells
    exact .second (derives_seq_adjacent (spelled_text backslash) (spelled_char rfl single))
  · rename_i bare
    have clear (context : Context) :
        ¬ grammar.Ahead (.choice (.text [quote]) (.text ['\\'])) context start := by
      rintro ⟨found, derives⟩
      apply bare
      rcases derives_choice.mp derives with is_quote | is_backslash
      · obtain ⟨rest, here, -⟩ := derives_text.mp is_quote
        exact .inl (List.cons.inj (spells.1.symm.trans here)).1
      · obtain ⟨rest, here, -⟩ := derives_text.mp is_backslash
        exact .inr (List.cons.inj (spells.1.symm.trans here)).1
    exact .first (derives_seq_adjacent (.notAhead (clear _)) (spelled_char rfl spells))

theorem spelled_textInQuotes {quote : Char} {text : List Char}
    (spells : start.Spells (textInQuotes quote text) stop) :
    grammar.Derivable (quotedBody quote) context start ⟨[], stop⟩ := by
  rw [textInQuotes, List.flatMap_def] at spells
  refine spelled_pieces (fun piece listed start stop spells => ?_) spells
  obtain ⟨c, -, rfl⟩ := List.mem_map.mp listed
  exact spelled_unit c spells

theorem unescape_textInQuotes {quote : Char} (is_quote : quote = '\'' ∨ quote = '"')
    (text : List Char) : unescape (textInQuotes quote text) = text := by
  induction text with
  | nil => rfl
  | cons c rest ih =>
    have step : textInQuotes quote (c :: rest) =
        charInQuotes quote c ++ textInQuotes quote rest := rfl
    rw [step]
    unfold charInQuotes
    split
    · rename_i special
      have is_special : c = '\'' ∨ c = '"' ∨ c = '\\' := by
        rcases special with rfl | rfl
        · exact is_quote.imp_right .inl
        · exact .inr (.inr rfl)
      rcases is_special with rfl | rfl | rfl <;> simp [unescape, ih]
    · rename_i bare
      have no_backslash : c ≠ '\\' := fun same => bare (.inr same)
      rw [List.singleton_append, unescape, ih]
      all_goals simp [no_backslash]

theorem spelled_string {quote : Char} (is_quote : quote = '\'' ∨ quote = '"') {text : List Char}
    (spells : start.Spells (quote :: (textInQuotes quote text ++ [quote])) stop) :
    ∃ body, body.text = textInQuotes quote text ∧ grammar.Derivable (.phrase .string) free start
      ⟨[.node .string start.offset (start.textTo stop) [body]], stop⟩ := by
  obtain ⟨middle, opening, rest⟩ :=
    @Cursor.Spells.split start stop [quote] (textInQuotes quote text ++ [quote]) spells
  obtain ⟨last, inner, closing⟩ := rest.split
  rcases is_quote with rfl | rfl
  · have body : grammar.Derivable (.phrase .singleQuoted) ⟨.compound, .none⟩ middle
        ⟨[.node .singleQuoted middle.offset (middle.textTo last) []], last⟩ :=
      derives_node (by decide) rfl (spelled_textInQuotes inner)
    refine ⟨.node .singleQuoted middle.offset (middle.textTo last) [], inner.textTo_eq,
      derives_node (by decide) rfl (.first ?_)⟩
    exact derives_seq_adjacent (spelled_text opening)
      (derives_seq_adjacent body (spelled_text closing))
  · have body : grammar.Derivable (.phrase .doubleQuoted) ⟨.compound, .none⟩ middle
        ⟨[.node .doubleQuoted middle.offset (middle.textTo last) []], last⟩ :=
      derives_node (by decide) rfl (spelled_textInQuotes inner)
    refine ⟨.node .doubleQuoted middle.offset (middle.textTo last) [], inner.textTo_eq,
      derives_node (by decide) rfl (.second ?_)⟩
    exact derives_seq_adjacent (spelled_text opening)
      (derives_seq_adjacent body (spelled_text closing))

/-! ## Paths -/

/-- The context of the parts of a path. -/
abbrev compound : Context := ⟨.compound, .none⟩

theorem spelled_step {step : PathStep} {chars : List Char} (printable : step.Printable)
    (written : step.Written chars) (spells : start.Spells chars stop) :
    ∃ tree, grammar.Derivable stepForm compound start ⟨[tree], stop⟩ ∧
      readStep tree = .ok step := by
  cases step with
  | field name =>
    subst written
    obtain ⟨middle, dot, rest⟩ := @Cursor.Spells.split start stop ['.'] name.toList spells
    have form : Derives grammar grammar.Ahead (Phrase.form .fieldAccess)
        (grammar.inside .fieldAccess compound) start
        ⟨[.node .ident middle.offset name.toList []], stop⟩ :=
      derives_seq_adjacent (spelled_text dot) (spelled_ident printable rfl rest)
    refine ⟨_, .first (derives_node (by decide) rfl form), ?_⟩
    show Except.ok (PathStep.field (String.ofList name.toList)) = _
    rw [String.ofList_toList]
  | index position =>
    obtain ⟨digits, numeral, rfl⟩ := written
    obtain ⟨middle, bracket, rest⟩ := @Cursor.Spells.split start stop ['['] (digits ++ [']']) spells
    obtain ⟨last, number, closing⟩ := rest.split
    have index : grammar.Derivable (.phrase .index) compound middle
        ⟨[.node .index middle.offset (middle.textTo last) []], last⟩ :=
      derives_node (by decide) rfl (spelled_digits numeral number)
    have form : Derives grammar grammar.Ahead (Phrase.form .indexAccess)
        (grammar.inside .indexAccess compound) start
        ⟨[.node .index middle.offset (middle.textTo last) []], stop⟩ :=
      derives_seq_adjacent (spelled_text bracket)
        (derives_seq_adjacent index (spelled_text closing))
    refine ⟨_, .second (derives_node (by decide) rfl form), ?_⟩
    have fits : position < UInt64.size := printable
    simp only [readStep, readIndex, Tree.text, number.textTo_eq, numeral.2.2, fits, if_true]
    rfl

theorem spelled_steps {steps : List PathStep} {chars : List Char}
    (printable : ∀ step ∈ steps, step.Printable) (written : StepsWritten steps chars)
    (spells : start.Spells chars stop) :
    ∃ trees, grammar.Derivable (.many stepForm) compound start ⟨trees, stop⟩ ∧
      trees.mapM readStep = .ok steps := by
  induction steps generalizing start chars with
  | nil =>
    subst written
    rw [spells.eq_of_nil]
    exact ⟨[], .noRound, rfl⟩
  | cons step steps ih =>
    obtain ⟨front, back, step_written, rest_written, rfl⟩ := written
    obtain ⟨middle, spells_front, spells_back⟩ := spells.split
    obtain ⟨tree, first, read⟩ := spelled_step (printable step (by simp)) step_written spells_front
    obtain ⟨trees, others, read_others⟩ :=
      ih (fun step listed => printable step (by simp [listed])) rest_written spells_back
    refine ⟨tree :: trees, ?_, ?_⟩
    · rcases derives_many.mp others with stops | rounds
      · cases stops
        exact .rounds (.last first)
      · exact .rounds (.more first (blanks_refl compound middle) rounds)
    · rw [List.mapM_cons, read, read_others]
      rfl

theorem spelled_path {path : List PathStep} {chars : List Char} (printable : PathPrintable path)
    (written : PathWritten path chars) (spells : start.Spells chars stop) :
    ∃ tree, grammar.Derivable (.phrase .fieldPath) free start ⟨[tree], stop⟩ ∧
      tree.children.mapM readStep = .ok path := by
  match path, printable, written with
  | .field name :: steps, ⟨is_identifier, steps_printable⟩, ⟨back, steps_written, chars_eq⟩ =>
    subst chars_eq
    obtain ⟨middle, spells_name, spells_steps⟩ := spells.split
    obtain ⟨trees, in_steps, read⟩ := spelled_steps steps_printable steps_written spells_steps
    have form : Derives grammar grammar.Ahead (Phrase.form .fieldPath)
        (grammar.inside .fieldPath free) start
        ⟨.node .ident start.offset name.toList [] :: trees, stop⟩ :=
      derives_seq_adjacent (spelled_ident is_identifier rfl spells_name) in_steps
    refine ⟨_, derives_node (by decide) rfl form, ?_⟩
    simp only [Tree.children, List.mapM_cons, readStep, read, String.ofList_toList]
    rfl

end Phrase

end Proviso
