/- # Proviso.Proofs.Clause.ArithmeticExact -- no other text amounts to an integer

Every text that is parsed as an expression of whole numbers, `$`, sums, products and minuses is
written as one: the texts of `Arithmetic` are all of them (`arithmetic_iff_parse`).  A text is taken
apart where the parser takes it apart, at the last of its loosest operators or behind a minus, until
a number, `$` or a text in parentheses is left (`WholeText`). -/
import Proviso.Proofs.Clause.Arithmetic

namespace Proviso

set_option autoImplicit false

/-! ## One operand -/

/-- The text is a number or `$`, or one that stands for the expression is in parentheses. -/
inductive WholeText (expr : Expr) : List Char → Prop where
  | number {digits : List Char} {number : Nat} (numeral : IsNumeral number digits)
      (fits : number < 0x8000000000000000) : WholeText expr digits
  | current : WholeText expr ['$']
  | group {inside : List Char} (layered : Layered 0 inside expr) :
      WholeText expr ('(' :: (inside ++ [')']))

namespace Phrase

open Grammar

variable {start stop last : Cursor} {found : Found Phrase} {tree : Tree Phrase} {expr : Expr}
  {value : Int → Int} {chars : List Char}

/-- The text of an expression that is found somewhere stands for it alone. -/
theorem layered_of_derives
    (derives : grammar.Derivable (.phrase .expression) free start ⟨[tree], stop⟩)
    (read : Expr.ofTree tree = .ok expr) :
    ∃ text, start.Spells text stop ∧ Layered 0 text expr := by
  obtain ⟨text, ⟨trees, last⟩, spells, own_derives, is_last, alike⟩ := derives_alone derives rfl
  match trees, own_derives, alike with
  | [own_tree], own_derives, ⟨same, _⟩ =>
    have named : own_tree.name ≠ .extended := by
      obtain ⟨parts, trees_eq⟩ := tree_of_derives (by decide) rfl own_derives
      rw [(List.cons.inj trees_eq).1]
      simp [Tree.name]
    have parsed := parse_expression (blanks_refl free _) own_derives named (blanks_refl free last)
      is_last
    rw [ofTree_alike (legible_of_derives derives).1 same, read] at parsed
    have layered := Layered.of_parse (eq_ok_of_toOption_eq_some parsed)
    rw [String.toList_ofList] at layered
    exact ⟨text, spells, layered⟩

/-- Of the operands without expressions in them, only numbers and `$` amount to integers. -/
theorem leaf_of_amounts {name : Phrase} {offset : Nat} {parts : List (Tree Phrase)}
    (read : Expr.ofLeaf name offset chars parts = .ok expr) (amounts : expr.Amounts value) :
    name = .current ∨ name = .integer := by
  unfold Expr.ofLeaf at read
  split at read
  · exact .inl rfl
  · cases read
    cases amounts
  · split at read
    · cases read
      cases amounts
    · split at read <;> cases read
      cases amounts
  · exact .inr rfl
  · split at read <;> cases read
    cases amounts
  · split at read <;> cases read
    cases amounts
  · split at read
    · obtain ⟨path, -, read⟩ := exists_of_bind_eq_ok read
      cases read
      cases amounts
    · cases read
  · cases read

/-- Digits that amount to an integer are those of a number that fits. -/
theorem wholeText_of_digits {parts : List (Tree Phrase)} (some_digit : chars ≠ [])
    (are_digits : ∀ c ∈ chars, c.isDigit = true)
    (read : Expr.ofLeaf .integer 0 chars parts = .ok expr) (amounts : expr.Amounts value) :
    WholeText expr chars := by
  simp only [Expr.ofLeaf, Literal.ofNumeral?_digits some_digit are_digits] at read
  cases read
  have fits : Nat.ofDigitChars 10 chars 0 < 0x8000000000000000 := by
    by_cases small : Nat.ofDigitChars 10 chars 0 < 0x8000000000000000
    · exact small
    · have too_large : Literal.ofDigits chars = .float (.ofInt (Nat.ofDigitChars 10 chars 0)) :=
        if_neg small
      rw [too_large] at amounts
      cases amounts
  exact .number ⟨some_digit, are_digits, rfl⟩ fits

theorem wholeText_of_group
    (derives : grammar.Derivable (.phrase .grouped) free ⟨chars, 0⟩ ⟨[tree], last⟩)
    (is_last : last.rest = []) (read : Expr.ofTree tree = .ok expr) : WholeText expr chars := by
  obtain ⟨place, ⟨trees, behind⟩, closing, rest, tail, opens, ⟨front, front_blank, here, -⟩,
    in_inner, ⟨back, back_blank, behind_here, -⟩, closes, found_eq⟩ := grouped_parts derives
  obtain ⟨parts, trees_eq⟩ := tree_of_derives (by decide) rfl in_inner
  obtain ⟨inner, rfl⟩ : ∃ inner, trees = [inner] := ⟨_, trees_eq⟩
  have tail_eq : tail = [] := by
    have cursors := congrArg Found.cursor found_eq
    rw [present_cursor] at cursors
    rw [← is_last, show last = _ from cursors]
  have tree_eq : [tree] = [_] := congrArg Found.trees found_eq
  cases tree_eq
  obtain ⟨text, ⟨text_here, -⟩, layered⟩ := layered_of_derives in_inner read
  have chars_eq : chars = '(' :: ((front ++ (text ++ back)) ++ [')']) := by
    rw [tail_eq] at closes
    rw [show chars = '(' :: rest from opens, show rest = _ from here, text_here, behind_here,
      closes]
    simp only [List.append_assoc]
  exact chars_eq ▸ .group (layered.blanks front_blank back_blank)

/-- What is found as an operand and amounts to an integer is a number, `$` or in parentheses. -/
theorem wholeText_of_node {name : Phrase} (listed : name ∈ operandNodes)
    (derives : grammar.Derivable (.phrase name) free ⟨chars, 0⟩ ⟨[tree], last⟩)
    (is_last : last.rest = []) (read : Expr.ofTree tree = .ok expr)
    (amounts : expr.Amounts value) : WholeText expr chars := by
  by_cases group : name = .grouped
  · subst group
    exact wholeText_of_group derives is_last read
  obtain ⟨parts, trees_eq⟩ := tree_of_derives (operandNodes_named name listed) rfl derives
  have tree_eq : tree = .node name 0 (Cursor.textTo ⟨chars, 0⟩ last) parts :=
    (List.cons.inj trees_eq).1
  have text_eq : chars = Cursor.textTo ⟨chars, 0⟩ last := by
    have rest_eq := Cursor.Reaches.rest_eq (derives.advances ranking).1
    rwa [is_last, List.append_nil] at rest_eq
  rw [tree_eq, ← text_eq] at read
  by_cases call : name = .call
  · subst call
    cases parts with
    | nil => cases read
    | cons function args =>
      obtain ⟨exprs, -, read⟩ := exists_of_bind_eq_ok read
      cases read
      cases amounts
  have leaf : name ≠ .expression ∧ name ≠ .grouped ∧ name ≠ .call :=
    ⟨fun same => absurd (same ▸ listed) (by decide), group, call⟩
  rw [ofTree_leaf _ _ _ leaf] at read
  rcases leaf_of_amounts read amounts with rfl | rfl
  · obtain ⟨inner, in_form, found_eq⟩ := derives_phrase.mp derives
    obtain ⟨rest, here, rfl⟩ := derives_text.mp in_form
    have rest_eq : rest = [] := by
      have cursors := congrArg Found.cursor found_eq
      rw [present_cursor] at cursors
      rw [← is_last, show last = _ from cursors]
    have chars_eq : chars = ['$'] := by
      rw [rest_eq] at here
      exact here
    exact chars_eq ▸ .current
  · have digits := integer_digits derives
    rw [← text_eq] at digits
    exact wholeText_of_digits digits.1 digits.2 read amounts

end Phrase

namespace Operand

/-- An operand that amounts to an integer, operators aside, is a number, `$` or in parentheses. -/
theorem wholeText {operand : Operand} {expr : Expr} {value : Int → Int}
    (read : operand.value? = some expr) (amounts : expr.Amounts value) :
    WholeText expr operand.primary.toList := by
  obtain ⟨tree, last, derives, is_last, -, same⟩ := Phrase.exists_primary_tree operand
  obtain ⟨name, listed, in_node⟩ := Phrase.primary_cases derives
  exact Phrase.wholeText_of_node listed in_node is_last
    (eq_ok_of_toOption_eq_some (same.trans read)) amounts

end Operand

namespace Expr.Amounts

/-- Of the prefix operators only the minus amounts to an integer. -/
theorem of_applyUnary {op : UnaryOperator} {expr : Expr} {value : Int → Int}
    (amounts : (Expr.applyUnary op expr).Amounts value) :
    op = .neg ∧ ∃ value', expr.Amounts value' := by
  cases op with
  | not =>
    have as_written : Expr.applyUnary .not expr = .unary .not expr :=
      Phrase.applyUnary_eq nofun
    rw [as_written] at amounts
    cases amounts
  | neg =>
    refine ⟨rfl, ?_⟩
    unfold Expr.applyUnary at amounts
    split at amounts
    · exact ⟨_, .literal _⟩
    · cases amounts
    · cases amounts with
      | neg amounts => exact ⟨_, amounts⟩

/-- Of the operators between operands only three amount to an integer. -/
theorem of_apply {op : BinaryOperator} {left right : Expr} {value : Int → Int}
    (amounts : (op.apply left right).Amounts value) :
    (op = .arithmetic .add ∨ op = .arithmetic .sub ∨ op = .arithmetic .mul) ∧
      (∃ value', left.Amounts value') ∧ ∃ value', right.Amounts value' := by
  cases op with
  | arithmetic op =>
    change (Expr.arithmetic op left right).Amounts value at amounts
    cases amounts with
    | arithmetic on_integers amounts amounts' =>
      refine ⟨?_, ⟨_, amounts⟩, _, amounts'⟩
      cases op with
      | add => exact .inl rfl
      | sub => exact .inr (.inl rfl)
      | mul => exact .inr (.inr rfl)
      | div => cases on_integers
      | rem => cases on_integers
  | comparison op => cases amounts
  | connective op => cases amounts

end Expr.Amounts

theorem Binding.sum_le (binding : Binding) : Binding.sum.level ≤ binding.level := by
  cases binding <;> decide

namespace Arithmetic

variable {binding binding' : Binding} {text : List Char} {value : Int → Int}

/-- A text that is written as one part is also one with operators between its parts. -/
theorem loosen (arithmetic : Arithmetic binding text value)
    (le : binding'.level ≤ binding.level) : Arithmetic binding' text value := by
  cases binding with
  | sum =>
    cases binding' with
    | sum => exact arithmetic
    | product => exact absurd le (by decide)
    | factor => exact absurd le (by decide)
  | product =>
    cases binding' with
    | sum => exact .sum arithmetic
    | product => exact arithmetic
    | factor => exact absurd le (by decide)
  | factor =>
    cases binding' with
    | sum => exact .sum (.product arithmetic)
    | product => exact .product arithmetic
    | factor => exact arithmetic

/-- Minuses before a text of one operand. -/
theorem of_prefixes {prefixes : List UnaryOperator} {primary : List Char} {expr : Expr}
    (laid : LaidOut (prefixes.map (·.symbol.toList) ++ [primary]) text)
    (amounts : (prefixes.foldr Expr.applyUnary expr).Amounts value)
    (inner : ∀ value', expr.Amounts value' → ∃ value'', Arithmetic .factor primary value'') :
    ∃ value', Arithmetic .factor text value' := by
  induction prefixes generalizing text value with
  | nil =>
    obtain ⟨front, back, front_blank, rfl, back_blank⟩ := laid
    obtain ⟨value', arithmetic⟩ := inner value amounts
    exact ⟨value', .blanks front_blank back_blank arithmetic⟩
  | cons op rest ih =>
    obtain ⟨front, after, front_blank, rfl, laid⟩ := laid
    obtain ⟨rfl, value', rest_amounts⟩ := amounts.of_applyUnary
    obtain ⟨value'', arithmetic⟩ := ih laid rest_amounts
    have no_blanks : ∀ c ∈ ([] : List Char), Phrase.isBlank c = true := nofun
    have with_blanks := Arithmetic.blanks front_blank no_blanks arithmetic.minus
    rw [List.append_nil] at with_blanks
    exact ⟨_, with_blanks⟩

/-- A text at a level that amounts to an integer is written so, at the level or a tighter one. -/
theorem of_layered {level : Nat} {expr : Expr} (layered : Layered level text expr)
    (amounts : expr.Amounts value) (tight : level ≤ operandLevel) :
    ∃ binding value', level ≤ binding.level ∧ Arithmetic binding text value' := by
  -- The parts of the text are shorter than it.
  induction length : text.length using Nat.strongRecOn generalizing text level expr value with
  | ind length ih =>
  subst length
  rcases layered.split with ⟨operand, laid, read⟩ |
    ⟨op, front, back, left, right, loose, rfl, rfl, left_layered, right_layered⟩
  · obtain ⟨expr, value_read, rfl⟩ := Option.map_eq_some_iff.mp read
    obtain ⟨value', arithmetic⟩ := of_prefixes laid amounts fun value' inner_amounts => by
      have shorter := laid.length_le (List.mem_append_right _ (List.mem_singleton_self _))
      have whole := operand.wholeText value_read inner_amounts
      generalize operand.primary.toList = primary at shorter whole
      cases whole with
      | number numeral fits => exact ⟨_, .number numeral fits⟩
      | current => exact ⟨_, .current⟩
      | @group inside inside_layered =>
        have inside_shorter : inside.length < text.length := by
          rw [List.length_cons, List.length_append] at shorter
          omega
        obtain ⟨binding, value'', -, arithmetic⟩ := ih _ inside_shorter inside_layered
          inner_amounts (Nat.zero_le _) rfl
        exact ⟨_, .group (arithmetic.loosen binding.sum_le)⟩
    exact ⟨.factor, value', tight, arithmetic⟩
  · obtain ⟨is_op, ⟨left_value, left_amounts⟩, right_value, right_amounts⟩ := amounts.of_apply
    have shorter : front.length < (front ++ (op.symbol.toList ++ back)).length ∧
        back.length < (front ++ (op.symbol.toList ++ back)).length := by
      obtain ⟨c, rest, symbol_eq, -⟩ := Phrase.symbol_start op
      simp only [symbol_eq, List.length_append, List.length_cons]
      omega
    obtain ⟨left_binding, _, left_tight, left_arithmetic⟩ :=
      ih _ shorter.1 left_layered left_amounts (Nat.le_of_lt op.level_lt) rfl
    obtain ⟨right_binding, _, right_tight, right_arithmetic⟩ :=
      ih _ shorter.2 right_layered right_amounts op.level_lt rfl
    rcases is_op with rfl | rfl | rfl
    · exact ⟨.sum, _, loose, .plus (left_arithmetic.loosen left_tight)
        (right_arithmetic.loosen right_tight)⟩
    · exact ⟨.sum, _, loose, .less (left_arithmetic.loosen left_tight)
        (right_arithmetic.loosen right_tight)⟩
    · exact ⟨.product, _, loose, .times (left_arithmetic.loosen left_tight)
        (right_arithmetic.loosen right_tight)⟩

end Arithmetic

/-- **The texts of sums and products are all that are parsed as such.** -/
theorem arithmetic_iff_parse {source : String} : (∃ value, Arithmetic .sum source.toList value) ↔
    ∃ expr value, Clause.parse source = .ok ⟨expr, none⟩ ∧ expr.Amounts value := by
  constructor
  · rintro ⟨value, arithmetic⟩
    obtain ⟨expr, word, parsed, amounts, -⟩ := arithmetic.parse
    exact ⟨expr, word, parsed, amounts⟩
  · rintro ⟨expr, value, parsed, amounts⟩
    obtain ⟨binding, value', -, arithmetic⟩ :=
      Arithmetic.of_layered (Layered.of_parse parsed) amounts (Nat.zero_le _)
    exact ⟨value', arithmetic.loosen binding.sum_le⟩

end Proviso
