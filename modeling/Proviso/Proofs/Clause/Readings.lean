/- # Proviso.Proofs.Clause.Readings -- what is written is derivable

Wherever the tokens of an expression are laid out, an expression is derivable, and its tree stands
for what was written.  The induction is on the expression.  An operand in parentheses is an
expression of its own, so what stands around the parentheses is read without a look into them. -/
import Proviso.Proofs.Clause.Expressions
import Proviso.Proofs.Clause.Meaning
import Proviso.Proofs.Clause.Numerals
import Proviso.Proofs.Clause.Spelling

namespace Proviso

set_option autoImplicit false

/-! ## The phrases of operators -/

def UnaryOperator.phrase : UnaryOperator → Phrase
  | .neg => .neg
  | .not => .not

namespace BinaryOperator

def phrase : BinaryOperator → Phrase
  | .connective .or => .or
  | .connective .and => .and
  | .comparison .eq => .eq
  | .comparison .ne => .ne
  | .comparison .le => .le
  | .comparison .ge => .ge
  | .comparison .lt => .lt
  | .comparison .gt => .gt
  | .arithmetic .add => .add
  | .arithmetic .sub => .sub
  | .arithmetic .mul => .mul
  | .arithmetic .div => .div
  | .arithmetic .rem => .rem

def symbol : BinaryOperator → String
  | .connective op => op.symbol
  | .comparison op => op.symbol
  | .arithmetic op => op.symbol

theorem phrase_reads (op : BinaryOperator) :
    op.phrase.unaryOperator? = none ∧ op.phrase.binaryOperator? = some op := by
  rcases op with op | op | op <;> cases op <;> exact ⟨rfl, rfl⟩

theorem phrase_form (op : BinaryOperator) :
    op.phrase ∈ Phrase.binaryOperators ∧ op.phrase.form = .text op.symbol.toList := by
  rcases op with op | op | op <;> cases op <;> exact ⟨by decide, rfl⟩

end BinaryOperator

namespace Phrase

open Grammar

variable {start middle stop place after : Cursor} {expr : Expr}

/-! ## Layout -/

/-- The tokens stand between two places, with any blanks before each. -/
def Lays : List (List Char) → Cursor → Cursor → Prop
  | [], start, stop => stop = start
  | token :: rest, start, stop => ∃ place after, grammar.Blanks free start place ∧
      place.Spells token after ∧ Lays rest after stop

theorem Lays.split {front back : List (List Char)} (lays : Lays (front ++ back) start stop) :
    ∃ middle, Lays front start middle ∧ Lays back middle stop := by
  induction front generalizing start with
  | nil => exact ⟨start, rfl, lays⟩
  | cons token rest ih =>
    obtain ⟨place, after, blanks, spells, lays⟩ := lays
    obtain ⟨middle, lays_front, lays_back⟩ := ih lays
    exact ⟨middle, ⟨place, after, blanks, spells, lays_front⟩, lays_back⟩

/-- Tokens in parentheses: the parentheses, and the tokens between. -/
theorem Lays.parts {tokens : List (List Char)} (lays : Lays (inParentheses tokens) start stop) :
    ∃ opening after middle closing, grammar.Blanks free start opening ∧
      opening.Spells ['('] after ∧ Lays tokens after middle ∧
      grammar.Blanks free middle closing ∧ closing.Spells [')'] stop := by
  obtain ⟨opening, after, to_opening, opens, rest⟩ := lays
  obtain ⟨middle, inner, closing, last, to_closing, closes, ends⟩ := rest.split
  cases ends
  exact ⟨opening, after, middle, closing, to_opening, opens, inner, to_closing, closes⟩

/-- Tokens that are laid out in a text stand up to the blanks at its end. -/
theorem lays_of_laidOut {tokens : List (List Char)} {text : List Char}
    (laid : LaidOut tokens text) (offset : Nat) :
    ∃ stop, Lays tokens ⟨text, offset⟩ stop ∧ ∀ c ∈ stop.rest, isBlank c = true := by
  induction tokens generalizing text offset with
  | nil => exact ⟨⟨text, offset⟩, rfl, laid⟩
  | cons token rest ih =>
    obtain ⟨blanks, behind, all_blank, rfl, laid⟩ := laid
    obtain ⟨stop, lays, ends⟩ := ih laid (offset + blanks.length + token.length)
    exact ⟨stop, ⟨⟨token ++ behind, offset + blanks.length⟩, _, ⟨blanks, all_blank, rfl, rfl⟩,
      ⟨rfl, rfl⟩, lays⟩, ends⟩

/-- Names end before punctuation. -/
theorem Lays.lacks {c : Char} {chars : List Char} {rest : List (List Char)}
    (lays : Lays ((c :: chars) :: rest) start stop) (apart : isIdentChar c = false) :
    start.Lacks isIdentChar := by
  obtain ⟨place, after, blanks, spells, -⟩ := lays
  exact names_end_of_text blanks spells.1 apart

/-! ## Operators -/

theorem spelled_unaryOperator (op : UnaryOperator) (spells : place.Spells op.symbol.toList after) :
    grammar.Derivable (.phrase .unaryOperator) free place
      ⟨[.node op.phrase place.offset (place.textTo after) []], after⟩ := by
  refine (derives_silent rfl).mpr ?_
  cases op with
  | neg => exact .second (derives_node (by decide) rfl (spelled_text spells))
  | not => exact .first (derives_node (by decide) rfl (spelled_text spells))

theorem spelled_binaryOperator (op : BinaryOperator)
    (spells : place.Spells op.symbol.toList after) :
    grammar.Derivable (.phrase .binaryOperator) free place
      ⟨[.node op.phrase place.offset (place.textTo after) []], after⟩ := by
  obtain ⟨is_operator, form_eq⟩ := op.phrase_form
  have named : op.phrase.mode ≠ .silent := by
    rw [(form_operator is_operator).2]
    decide
  have symbol : grammar.Derivable op.phrase.form (grammar.inside op.phrase free) place
      ⟨[], after⟩ := by
    rw [form_eq]
    exact spelled_text spells
  obtain ⟨index, listed⟩ := List.getElem?_of_mem is_operator
  refine (derives_silent rfl).mpr ?_
  rw [form_binaryOperator, derives_choices (by decide)]
  refine ⟨index, .phrase op.phrase, ?_, derives_node named rfl symbol⟩
  rw [List.getElem?_map, listed]
  rfl

/-! ## Expressions -/

/-- An expression stands behind the blanks at a place, as an operand or as a phrase with operands
as its parts. -/
def Reads (name : Phrase) (start stop : Cursor) (expr : Expr) : Prop :=
  ∃ place tree, grammar.Blanks free start place ∧
    grammar.Derivable (.phrase name) free place ⟨[tree], stop⟩ ∧ Expr.ofTree tree = .ok expr ∧
    tree.name.unaryOperator? = none ∧ tree.name.binaryOperator? = none

theorem items_unary (op : UnaryOperator) (offset : Nat) (text : List Char)
    (rest : List (Tree Phrase)) :
    (Expr.itemsOfTrees (.node op.phrase offset text [] :: rest)).toOption =
      (Expr.itemsOfTrees rest).toOption.map (.unary op :: ·) := by
  have is_operator : op.phrase.unaryOperator? = some op := by cases op <;> rfl
  rw [Expr.itemsOfTrees, is_operator]
  cases Expr.itemsOfTrees rest <;> rfl

theorem items_binary (op : BinaryOperator) (offset : Nat) (text : List Char)
    (rest : List (Tree Phrase)) :
    (Expr.itemsOfTrees (.node op.phrase offset text [] :: rest)).toOption =
      (Expr.itemsOfTrees rest).toOption.map (.binary op :: ·) := by
  rw [Expr.itemsOfTrees, op.phrase_reads.1, op.phrase_reads.2]
  cases Expr.itemsOfTrees rest <;> rfl

theorem items_operand {tree : Tree Phrase}
    (names : tree.name.unaryOperator? = none ∧ tree.name.binaryOperator? = none)
    (rest : List (Tree Phrase)) :
    (Expr.itemsOfTrees (tree :: rest)).toOption = (Expr.ofTree tree).toOption.bind fun expr =>
      (Expr.itemsOfTrees rest).toOption.map (.operand expr :: ·) := by
  obtain ⟨name, offset, text, children⟩ := tree
  obtain ⟨not_unary, not_binary⟩ := names
  simp only [Tree.name] at not_unary not_binary
  rw [Expr.itemsOfTrees, not_unary, not_binary]
  cases Expr.ofTree (.node name offset text children) with
  | error error => rfl
  | ok expr => cases Expr.itemsOfTrees rest <;> rfl

/-- The parts of an expression stand for the chain that they form. -/
theorem reads_of_form {trees : List (Tree Phrase)} {items : List Chain.Item} {chain : Chain}
    (blanks : grammar.Blanks free start place)
    (derives : grammar.Derivable (Phrase.form .expression) free place ⟨trees, stop⟩)
    (read : (Expr.itemsOfTrees trees).toOption = some items)
    (grouped : Chain.ofItems? items = some chain) :
    Reads .expression start stop chain.toExpr := by
  refine ⟨place, _, blanks, derives_node (by decide) rfl derives, ?_, rfl, rfl⟩
  rw [Expr.ofTree, eq_ok_of_toOption_eq_some read]
  simp only [bind, Except.bind, grouped]
  rfl

theorem reads_of_operand (reads : Reads .primary start stop expr) :
    Reads .expression start stop expr := by
  obtain ⟨place, tree, blanks, derives, read, names⟩ := reads
  have form : grammar.Derivable (Phrase.form .expression) free place ⟨[tree], stop⟩ :=
    derives_seq_adjacent .noRound (derives_seq_adjacent derives .noRound)
  have items : (Expr.itemsOfTrees [tree]).toOption = some [.operand expr] := by
    rw [items_operand names, read]
    rfl
  exact reads_of_form blanks form items rfl

theorem reads_unary (op : UnaryOperator) (blanks : grammar.Blanks free start place)
    (spells : place.Spells op.symbol.toList after) (reads : Reads .primary after stop expr) :
    Reads .expression start stop (.applyUnary op expr) := by
  obtain ⟨operand, tree, to_operand, derives, read, names⟩ := reads
  have form : grammar.Derivable (Phrase.form .expression) free place
      ⟨[.node op.phrase place.offset (place.textTo after) [], tree], stop⟩ :=
    .seq (.rounds (.last (spelled_unaryOperator op spells))) to_operand
      (derives_seq_adjacent derives .noRound)
  refine reads_of_form blanks form ?_ (rfl : Chain.ofItems? [.unary op, .operand expr] = _)
  rw [items_unary, items_operand names, read]
  rfl

theorem reads_binary (op : BinaryOperator) {left right : Expr}
    (reads_left : Reads .primary start middle left) (blanks : grammar.Blanks free middle place)
    (spells : place.Spells op.symbol.toList after) (reads_right : Reads .primary after stop right) :
    Reads .expression start stop (op.apply left right) := by
  obtain ⟨first, tree, to_first, derives, read, names⟩ := reads_left
  obtain ⟨second, tree', to_second, derives', read', names'⟩ := reads_right
  have link : grammar.Derivable linkForm free place
      ⟨[.node op.phrase place.offset (place.textTo after) [], tree'], stop⟩ :=
    derives_seq_adjacent (spelled_binaryOperator op spells) (.seq .noRound to_second derives')
  have form : grammar.Derivable (Phrase.form .expression) free first
      ⟨[tree, .node op.phrase place.offset (place.textTo after) [], tree'], stop⟩ :=
    derives_seq_adjacent .noRound (.seq derives blanks (.rounds (.last link)))
  refine reads_of_form to_first form ?_
    (rfl : Chain.ofItems? [.operand left, .binary op, .operand right] = _)
  rw [items_operand names, read, items_binary, items_operand names', read']
  rfl

/-! ## Operands -/

theorem reads_of_leaf {operand name : Phrase} {text : List Char}
    {children : List (Tree Phrase)} (is_operand : operand ∈ operands)
    (names : name.unaryOperator? = none ∧ name.binaryOperator? = none)
    (blanks : grammar.Blanks free start place)
    (derives : grammar.Derivable (.phrase operand) free place
      ⟨[.node name place.offset text children], stop⟩)
    (read : Expr.ofTree (.node name place.offset text children) = .ok expr) :
    Reads .primary start stop expr := by
  obtain ⟨index, listed⟩ := List.getElem?_of_mem is_operand
  exact ⟨place, _, blanks, derives_primary.mpr ⟨index, operand, listed, derives⟩, read, names⟩

/-- An expression is written as the tokens: they stand for it wherever a name would end behind
them. -/
def Means (tokens : List (List Char)) (expr : Expr) : Prop :=
  ∀ start stop, Lays tokens start stop → stop.Lacks isIdentChar → Reads .expression start stop expr

theorem reads_inParentheses {tokens : List (List Char)} (means : Means tokens expr)
    (lays : Lays (inParentheses tokens) start stop) : Reads .primary start stop expr := by
  obtain ⟨opening, after, middle, closing, to_opening, opens, inner, to_closing, closes⟩ :=
    lays.parts
  obtain ⟨place, tree, to_place, derives, read, -⟩ :=
    means after middle inner (names_end_of_text to_closing closes.1 rfl)
  have form : grammar.Derivable (Phrase.form .grouped) free opening ⟨[tree], stop⟩ :=
    .seq (spelled_text opens) to_place (.seq derives to_closing (spelled_text closes))
  exact reads_of_leaf (by decide) ⟨rfl, rfl⟩ to_opening (derives_node (by decide) rfl form) read

theorem means_unary (op : UnaryOperator) {tokens : List (List Char)} (means : Means tokens expr) :
    Means (op.symbol.toList :: inParentheses tokens) (.applyUnary op expr) := by
  rintro start stop ⟨place, after, blanks, spells, lays⟩ -
  exact reads_unary op blanks spells (reads_inParentheses means lays)

theorem means_binary (op : BinaryOperator) {first second : List (List Char)} {left right : Expr}
    (means_left : Means first left) (means_right : Means second right) :
    Means (joinedBy op.symbol first second) (op.apply left right) := by
  intro start stop lays _
  obtain ⟨middle, lays_left, place, after, blanks, spells, lays_right⟩ := lays.split
  exact reads_binary op (reads_inParentheses means_left lays_left) blanks spells
    (reads_inParentheses means_right lays_right)

theorem reads_current (blanks : grammar.Blanks free start place) (spells : place.Spells ['$'] stop) :
    Reads .primary start stop .current := by
  have derives := @derives_node grammar.Ahead free place stop .current [] (by decide) rfl
    (spelled_text spells)
  exact reads_of_leaf (by decide) ⟨rfl, rfl⟩ blanks derives rfl

theorem means_current : Means [['$']] .current := by
  rintro start stop ⟨place, after, blanks, spells, rfl⟩ -
  exact reads_of_operand (reads_current blanks spells)

theorem reads_sibling {path : List PathStep} {chars : List Char} (printable : PathPrintable path)
    (written : PathWritten path chars)
    (lays : Lays (inParentheses [chars] ++ [['$']]) start stop) :
    Reads .primary start stop (.sibling path) := by
  obtain ⟨middle, in_parentheses, place, last, to_place, dollar, rfl⟩ := lays.split
  obtain ⟨opening, after, between, closing, to_opening, opens,
    ⟨path_start, path_stop, to_path, spells, rfl⟩, to_closing, closes⟩ := in_parentheses.parts
  obtain ⟨tree, derives, read⟩ := spelled_path printable written spells
  have form : grammar.Derivable (Phrase.form .sibling) free opening ⟨[tree], stop⟩ :=
    .seq (spelled_text opens) to_path (.seq derives to_closing
      (.seq (spelled_text closes) to_place (spelled_text dollar)))
  refine reads_of_leaf (by decide) ⟨rfl, rfl⟩ to_opening (derives_node (by decide) rfl form) ?_
  show (tree.children.mapM readStep >>= fun steps => pure (Expr.sibling steps)) = _
  rw [read]
  rfl

theorem means_sibling {path : List PathStep} {chars : List Char} (printable : PathPrintable path)
    (written : PathWritten path chars) :
    Means (inParentheses [chars] ++ [['$']]) (.sibling path) :=
  fun _ _ lays _ => reads_of_operand (reads_sibling printable written lays)

/-! ## Literals -/

/-- Digits are an operand. -/
theorem spelled_number {value : Nat} {digits : List Char} (numeral : IsNumeral value digits)
    (spells : start.Spells digits stop) (ends : stop.Lacks isIdentChar) :
    grammar.Derivable (.phrase .primary) free start
      ⟨[.node .integer start.offset digits []], stop⟩ := by
  have number : grammar.Derivable (.phrase .number) free start
      ⟨[.node .integer start.offset digits []], stop⟩ :=
    (derives_silent rfl).mpr (.second (spelled_integer numeral spells ends))
  have is_operand : Phrase.number ∈ operands := by decide
  obtain ⟨index, listed⟩ := List.getElem?_of_mem is_operand
  exact derives_primary.mpr ⟨index, _, listed, number⟩

theorem reads_digits {value : Nat} {digits : List Char} (numeral : IsNumeral value digits)
    (blanks : grammar.Blanks free start place) (spells : place.Spells digits stop)
    (ends : stop.Lacks isIdentChar) :
    Reads .primary start stop (.literal (.ofDigits digits)) := by
  have read : Expr.ofLeaf .integer place.offset digits [] = .ok (.literal (.ofDigits digits)) := by
    rw [Expr.ofLeaf, Literal.ofNumeral?_digits numeral.1 numeral.2.1]
  exact ⟨place, _, blanks, spelled_number numeral spells ends, read, rfl, rfl⟩

theorem reads_natural {value : Nat} {digits : List Char} (numeral : IsNumeral value digits)
    (small : value < 0x8000000000000000) (blanks : grammar.Blanks free start place)
    (spells : place.Spells digits stop) (ends : stop.Lacks isIdentChar) :
    Reads .primary start stop (.literal (.int (.ofNat value))) := by
  have reads := reads_digits numeral blanks spells ends
  simpa only [Literal.ofDigits, numeral.2.2, small, if_true] using reads

/-- An integer is its digits, or a minus over them. -/
theorem means_int {value : Int64} {digits : List Char} (not_least : value ≠ Int64.minValue)
    (numeral : IsNumeral value.toInt.natAbs digits) :
    Means (if value.toInt < 0 then [['-'], digits] else [digits]) (.literal (.int value)) := by
  have least_lt : -2 ^ 63 < value.toInt := by
    have least_le := value.le_toInt
    have apart : value.toInt ≠ Int64.minValue.toInt :=
      fun same => not_least (Int64.toInt_inj.mp same)
    rw [Int64.toInt_minValue] at apart
    omega
  have lt_greatest := value.toInt_lt
  have small : value.toInt.natAbs < 0x8000000000000000 := by omega
  intro start stop lays ends
  split at lays
  · rename_i negative
    obtain ⟨place, after, blanks, minus, place', last, blanks', spells, rfl⟩ := lays
    have folded : -Int64.ofNat value.toInt.natAbs = value := by
      apply Int64.toInt_inj.mp
      rw [Int64.toInt_neg_ofNat_of_le (by omega)]
      omega
    have reads := reads_unary .neg blanks minus (reads_natural numeral small blanks' spells ends)
    rw [Expr.applyUnary, folded] at reads
    exact reads
  · rename_i natural
    obtain ⟨place, after, blanks, spells, rfl⟩ := lays
    have same : Int64.ofNat value.toInt.natAbs = value := by
      apply Int64.toInt_inj.mp
      rw [Int64.toInt_ofNat_of_lt (by omega)]
      omega
    have reads := reads_natural numeral small blanks spells ends
    rw [same] at reads
    exact reads_of_operand reads

theorem means_literal {value : Literal} {tokens : List (List Char)} (printable : value.Printable)
    (written : value.Written tokens) : Means tokens (.literal value) := by
  cases value with
  | nil =>
    subst written
    rintro start stop ⟨place, after, blanks, spells, rfl⟩ ends
    exact reads_of_operand
      (reads_of_leaf (by decide) ⟨rfl, rfl⟩ blanks (spelled_nil spells ends) rfl)
  | bool value =>
    subst written
    rintro start stop ⟨place, after, blanks, spells, rfl⟩ ends
    refine reads_of_operand (reads_of_leaf (by decide) ⟨rfl, rfl⟩ blanks
      (spelled_boolean value rfl spells ends) ?_)
    cases value <;> rfl
  | int value =>
    obtain ⟨digits, numeral, rfl⟩ := written
    exact means_int printable numeral
  | float value => exact absurd printable id
  | str value =>
    obtain ⟨quote, is_quote, rfl⟩ := written
    rintro start stop ⟨place, after, blanks, spells, rfl⟩ -
    obtain ⟨body, text, derives⟩ := spelled_string is_quote spells
    refine reads_of_operand (reads_of_leaf (by decide) ⟨rfl, rfl⟩ blanks derives ?_)
    show Except.ok (Expr.literal (.str (String.ofList (unescape body.text)))) = _
    rw [text, unescape_textInQuotes is_quote, String.ofList_toList]

/-! ## Calls -/

def ArgsMean (tokens : List (List Char)) (args : List Expr) : Prop :=
  ∀ start stop, Lays tokens start stop → stop.Lacks isIdentChar →
    ∃ place trees, grammar.Blanks free start place ∧
      grammar.Derivable argumentsForm free place ⟨trees, stop⟩ ∧ Expr.ofTrees trees = .ok args

/-- Further arguments of a call are written as the tokens, if there are any. -/
def MoreArgsMean (tokens : List (List Char)) (args : List Expr) : Prop :=
  ∀ start stop, Lays tokens start stop → stop.Lacks isIdentChar → start.Lacks isIdentChar ∧
    ∃ trees, Expr.ofTrees trees = .ok args ∧ (trees = [] ∧ stop = start ∨
      ∃ place, grammar.Blanks free start place ∧
        Rounds grammar grammar.Ahead furtherArgument free place ⟨trees, stop⟩)

theorem means_call {name : String} {args : List Expr} {tokens : List (List Char)}
    (is_identifier : isIdentifier name.toList = true) (mean : ArgsMean tokens args) :
    Means (name.toList :: inParentheses tokens) (.call name args) := by
  rintro start stop ⟨place, after, blanks, spells, in_parentheses⟩ -
  obtain ⟨opening, first, last, closing, to_opening, opens, inner, to_closing, closes⟩ :=
    in_parentheses.parts
  obtain ⟨args_start, trees, to_args, derives, read⟩ :=
    mean first last inner (names_end_of_text to_closing closes.1 rfl)
  have form : grammar.Derivable (Phrase.form .call) free place
      ⟨.node .ident place.offset name.toList [] :: (trees ++ []), stop⟩ :=
    .seq (spelled_ident is_identifier rfl spells) to_opening
      (.seq (spelled_text opens) to_args (.seq derives to_closing (spelled_text closes)))
  rw [List.append_nil] at form
  refine reads_of_operand (reads_of_leaf (by decide) ⟨rfl, rfl⟩ blanks
    (derives_node (by decide) rfl form) ?_)
  rw [Expr.ofTree, read]
  show Except.ok (Expr.call (String.ofList name.toList) args) = _
  rw [String.ofList_toList]

theorem argsMean_nil : ArgsMean [] [] := by
  intro start stop lays _
  cases lays
  exact ⟨start, [], blanks_refl free start, .omitted, rfl⟩

theorem argsMean_cons {arg : Expr} {rest : List Expr} {first others : List (List Char)}
    (means : Means first arg) (mean : MoreArgsMean others rest) :
    ArgsMean (first ++ others) (arg :: rest) := by
  intro start stop lays ends
  obtain ⟨middle, lays_first, lays_others⟩ := lays.split
  obtain ⟨middle_ends, trees, read_more, more⟩ := mean middle stop lays_others ends
  obtain ⟨place, tree, blanks, derives, read, -⟩ := means start middle lays_first middle_ends
  refine ⟨place, tree :: trees, blanks, .given ?_, ?_⟩
  · rcases more with ⟨rfl, rfl⟩ | ⟨more_start, to_more, rounds⟩
    · exact derives_seq_adjacent derives .noRound
    · exact .seq derives to_more (.rounds rounds)
  · rw [Expr.ofTrees, read, read_more]
    rfl

theorem moreArgsMean_nil : MoreArgsMean [] [] := by
  intro start stop lays ends
  cases lays
  exact ⟨ends, [], rfl, .inl ⟨rfl, rfl⟩⟩

theorem moreArgsMean_cons {arg : Expr} {rest : List Expr} {first others : List (List Char)}
    (means : Means first arg) (mean : MoreArgsMean others rest) :
    MoreArgsMean ([','] :: (first ++ others)) (arg :: rest) := by
  intro start stop lays ends
  refine ⟨lays.lacks rfl, ?_⟩
  obtain ⟨comma, after, to_comma, spells, lays_rest⟩ := lays
  obtain ⟨middle, lays_first, lays_others⟩ := lays_rest.split
  obtain ⟨middle_ends, trees, read_more, more⟩ := mean middle stop lays_others ends
  obtain ⟨place, tree, blanks, derives, read, -⟩ := means after middle lays_first middle_ends
  have argument : grammar.Derivable furtherArgument free comma ⟨[tree], middle⟩ :=
    .seq (spelled_text spells) blanks derives
  refine ⟨tree :: trees, ?_, .inr ⟨comma, to_comma, ?_⟩⟩
  · rw [Expr.ofTrees, read, read_more]
    rfl
  · rcases more with ⟨rfl, rfl⟩ | ⟨more_start, to_more, rounds⟩
    · exact .last argument
    · exact .more argument to_more rounds

/-! ## Every way of writing -/

/-- A prefix operator stays as it is written, save a minus over a number. -/
theorem applyUnary_eq {op : UnaryOperator} {operand : Expr}
    (no_number : op = .neg → ∀ value, operand = .literal value → value.isNumber = false) :
    Expr.applyUnary op operand = .unary op operand := by
  cases op with
  | not => cases operand <;> rfl
  | neg =>
    cases operand with
    | literal value =>
      have other := no_number rfl value rfl
      cases value <;> first | rfl | cases other
    | _ => rfl

mutual

/-- What is written as the tokens of a printable expression stands for it. -/
theorem means_of_written : ∀ {expr : Expr} {tokens : List (List Char)}, expr.Printable →
    expr.Written tokens → Means tokens expr
  | .literal _, _, printable, written => means_literal printable written
  | .current, _, _, written => by
    cases written
    exact means_current
  | .sibling _, _, printable, ⟨chars, path_written, same⟩ => by
    rw [same]
    exact means_sibling printable path_written
  | .unary op operand, _, ⟨operand_printable, no_number⟩, ⟨inner, operand_written, same⟩ => by
    rw [same, ← applyUnary_eq no_number]
    exact means_unary op (means_of_written operand_printable operand_written)
  | .arithmetic op _ _, _, ⟨left, right⟩, ⟨_, _, left_written, right_written, same⟩ => by
    rw [same]
    exact means_binary (.arithmetic op) (means_of_written left left_written)
      (means_of_written right right_written)
  | .comparison op _ _, _, ⟨left, right⟩, ⟨_, _, left_written, right_written, same⟩ => by
    rw [same]
    exact means_binary (.comparison op) (means_of_written left left_written)
      (means_of_written right right_written)
  | .connective op _ _, _, ⟨left, right⟩, ⟨_, _, left_written, right_written, same⟩ => by
    rw [same]
    exact means_binary (.connective op) (means_of_written left left_written)
      (means_of_written right right_written)
  | .call _ _, _, ⟨is_identifier, args_printable⟩, ⟨inner, args_written, same⟩ => by
    rw [same]
    exact means_call is_identifier (argsMean_of_written args_printable args_written)

theorem argsMean_of_written : ∀ {args : List Expr} {tokens : List (List Char)},
    AllPrintable args → ArgsWritten args tokens → ArgsMean tokens args
  | [], _, _, written => by
    cases written
    exact argsMean_nil
  | _ :: _, _, ⟨arg_printable, printable⟩, ⟨_, _, arg_written, written, same⟩ => by
    rw [same]
    exact argsMean_cons (means_of_written arg_printable arg_written)
      (moreArgsMean_of_written printable written)

theorem moreArgsMean_of_written : ∀ {args : List Expr} {tokens : List (List Char)},
    AllPrintable args → MoreArgsWritten args tokens → MoreArgsMean tokens args
  | [], _, _, written => by
    cases written
    exact moreArgsMean_nil
  | _ :: _, _, ⟨arg_printable, printable⟩, ⟨_, _, arg_written, written, same⟩ => by
    rw [same]
    exact moreArgsMean_cons (means_of_written arg_printable arg_written)
      (moreArgsMean_of_written printable written)

end

end Phrase

end Proviso
