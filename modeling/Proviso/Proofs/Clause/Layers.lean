/- # Proviso.Proofs.Clause.Layers -- texts joined by an operator

A text stands at a level if it is written as operands, with operators between them that all bind as
tightly as the level or tighter (`Layered`).  Two texts can be joined by an operator as they are, if
the text on the left stands at the level of the operator and the text on the right above it: the
operator is at the root, and the texts are the two sides (`Layered.join`).  What is in parentheses
stands at any level, and so does one operand with operators before it. -/
import Proviso.Proofs.Clause.Precedence

namespace Proviso

set_option autoImplicit false

/-- Above the levels of all operators. -/
def operandLevel : Nat := 6

theorem BinaryOperator.level_lt (op : BinaryOperator) : op.level < operandLevel := by
  rcases op with op | op | op <;> cases op <;> decide

/-- The last of the loosest operators joins what stands before it and what stands behind it. -/
theorem chainExpr?_split {first operand : Operand} {before after : List (BinaryOperator × Operand)}
    {op : BinaryOperator} (no_looser : ∀ link ∈ before, op.level ≤ link.1.level)
    (tighter : ∀ link ∈ after, op.level < link.1.level) :
    chainExpr? first (before ++ (op, operand) :: after) = (chainExpr? first before).bind fun left =>
      (chainExpr? operand after).map fun right => op.apply left right := by
  simp only [chainExpr?, linkExprs?_append, linkExprs?]
  cases first.expr? with
  | none => rfl
  | some expr =>
    cases before_read : linkExprs? before with
    | none => rfl
    | some exprs =>
      cases operand.expr? with
      | none => rfl
      | some expr' =>
        cases after_read : linkExprs? after with
        | none => rfl
        | some exprs' =>
          have no_looser' := forall_of_linkExprs? (op.level ≤ ·.level) before_read no_looser
          have tighter' := forall_of_linkExprs? (op.level < ·.level) after_read tighter
          simp only [Option.bind_some, Option.map_some,
            Chain.grow_split expr expr' no_looser' tighter']
          rfl

/-- The tokens of a chain are cut at an operator. -/
theorem chainTokens_split (first operand : Operand) (before after : List (BinaryOperator × Operand))
    (op : BinaryOperator) : chainTokens first (before ++ (op, operand) :: after) =
      chainTokens first before ++ op.symbol.toList :: chainTokens operand after := by
  simp [chainTokens, linkTokens]

/-- The text is written as operands, with operators between them that bind as tightly as the level
or tighter, and stands for the expression. -/
def Layered (level : Nat) (text : List Char) (expr : Expr) : Prop :=
  ∃ first links, LaidOut (chainTokens first links) text ∧ chainExpr? first links = some expr ∧
    ∀ link ∈ links, level ≤ link.1.level

namespace Layered

variable {level level' : Nat} {text text' : List Char} {expr left right : Expr}

theorem parse (layered : Layered level text expr) :
    Clause.parse (String.ofList text) = .ok ⟨expr, none⟩ := by
  obtain ⟨first, links, laid, read, -⟩ := layered
  refine eq_ok_of_toOption_eq_some ?_
  rw [Phrase.parse_chain (by rwa [String.toList_ofList]), read]
  rfl

/-- Every text that is parsed as a condition alone stands at the lowest level. -/
theorem of_parse {source : String} (parsed : Clause.parse source = .ok ⟨expr, none⟩) :
    Layered 0 source.toList expr := by
  obtain ⟨first, links, laid⟩ := Phrase.exists_operands parsed
  have read := Phrase.parse_chain laid
  rw [parsed] at read
  obtain ⟨expr', chain_read, same⟩ := Option.map_eq_some_iff.mp read.symm
  cases same
  exact ⟨first, links, laid, chain_read, fun _ _ => Nat.zero_le _⟩

theorem loosen (layered : Layered level text expr) (le : level' ≤ level) :
    Layered level' text expr := by
  obtain ⟨first, links, laid, read, tight⟩ := layered
  exact ⟨first, links, laid, read, fun link listed => Nat.le_trans le (tight link listed)⟩

theorem blanks (layered : Layered level text expr) {front back : List Char}
    (front_blank : ∀ c ∈ front, Phrase.isBlank c = true)
    (back_blank : ∀ c ∈ back, Phrase.isBlank c = true) :
    Layered level (front ++ (text ++ back)) expr := by
  obtain ⟨first, links, laid, read, tight⟩ := layered
  have behind : LaidOut [] back := back_blank
  refine ⟨first, links, ?_, read, tight⟩
  rw [← List.append_nil (chainTokens first links)]
  exact (laid.append behind).blanks_append front_blank

/-- **Texts are joined by an operator** that binds no tighter than those on its left, and looser
than those on its right. -/
theorem join (layered : Layered level text left) (layered' : Layered level' text' right)
    {op : BinaryOperator} (no_looser : op.level ≤ level) (tighter : op.level < level') :
    Layered op.level (text ++ (op.symbol.toList ++ text')) (op.apply left right) := by
  obtain ⟨first, before, laid, read, tight⟩ := layered
  obtain ⟨operand, after, laid', read', tight'⟩ := layered'
  have at_level : ∀ link ∈ before, op.level ≤ link.1.level := fun link listed =>
    Nat.le_trans no_looser (tight link listed)
  have above_level : ∀ link ∈ after, op.level < link.1.level := fun link listed =>
    Nat.lt_of_lt_of_le tighter (tight' link listed)
  refine ⟨first, before ++ (op, operand) :: after, ?_, ?_, ?_⟩
  · rw [chainTokens_split]
    exact laid.append ((laidOut_token _).append laid')
  · rw [chainExpr?_split at_level above_level, read, read']
    rfl
  · rw [List.forall_mem_append, List.forall_mem_cons]
    exact ⟨at_level, Nat.le_refl _, fun link listed => Nat.le_of_lt (above_level link listed)⟩

/-- **A text is joined by an operator** or written as one operand. -/
theorem split (layered : Layered level text expr) :
    (∃ operand : Operand, LaidOut operand.tokens text ∧ operand.expr? = some expr) ∨
      ∃ (op : BinaryOperator) (front back : List Char) (left right : Expr), level ≤ op.level ∧
        text = front ++ (op.symbol.toList ++ back) ∧ expr = op.apply left right ∧
        Layered op.level front left ∧ Layered (op.level + 1) back right := by
  obtain ⟨first, links, laid, read, tight⟩ := layered
  cases links with
  | nil =>
    obtain ⟨expr', first_read, read⟩ := Option.bind_eq_some_iff.mp read
    cases read
    rw [chainTokens, linkTokens, List.flatMap_nil, List.append_nil] at laid
    exact .inl ⟨first, laid, first_read⟩
  | cons link rest =>
    obtain ⟨before, op, operand, after, links_eq, no_looser, tighter⟩ :=
      Chain.exists_loosest link rest
    rw [links_eq] at laid read tight
    rw [chainExpr?_split no_looser tighter] at read
    obtain ⟨left, left_read, read⟩ := Option.bind_eq_some_iff.mp read
    obtain ⟨right, right_read, rfl⟩ := Option.map_eq_some_iff.mp read
    rw [chainTokens_split] at laid
    obtain ⟨front, back, rfl, laid_front, blanks, after_text, all_blank, rfl, laid_back⟩ :=
      laid.split
    have left_layered : Layered op.level front left :=
      ⟨first, before, laid_front, left_read, no_looser⟩
    have op_tight := tight (op, operand) (List.mem_append_right _ List.mem_cons_self)
    refine .inr ⟨op, front ++ blanks, after_text, left, right, op_tight,
      (List.append_assoc ..).symm, rfl, ?_, operand, after, laid_back, right_read, tighter⟩
    have with_blanks : Layered op.level ([] ++ (front ++ blanks)) left :=
      left_layered.blanks (List.forall_mem_nil _) all_blank
    exact with_blanks

/-- An operator is put before a text without operators between operands. -/
theorem unary (layered : Layered operandLevel text expr) (op : UnaryOperator) :
    Layered operandLevel (op.symbol.toList ++ text) (.applyUnary op expr) := by
  obtain ⟨first, links, laid, read, tight⟩ := layered
  obtain rfl : links = [] := by
    cases links with
    | nil => rfl
    | cons link rest =>
      have above := tight link List.mem_cons_self
      have below := link.1.level_lt
      omega
  obtain ⟨expr', first_read, read⟩ := Option.bind_eq_some_iff.mp read
  obtain rfl : expr' = expr := by
    cases read
    rfl
  obtain ⟨value, value_read, rfl⟩ := Option.map_eq_some_iff.mp first_read
  refine ⟨⟨op :: first.prefixes, first.primary, first.is_primary⟩, [], ?_, ?_, tight⟩
  · have tokens_eq : chainTokens ⟨op :: first.prefixes, first.primary, first.is_primary⟩ [] =
        [op.symbol.toList] ++ chainTokens first [] := rfl
    rw [tokens_eq]
    exact (laidOut_token _).append laid
  · rw [chainExpr?, Operand.expr?]
    show ((first.value?.map _).bind _) = _
    rw [value_read]
    rfl

end Layered

namespace Phrase

open Grammar

/-- A text is that of an operand if it is laid out as tokens that are read as an operand wherever a
name would end behind them. -/
theorem layered_of_laidOut {tokens : List (List Char)} {text : List Char} {expr : Expr}
    (reads : ∀ start stop, Lays tokens start stop → stop.Lacks isIdentChar →
      Reads .primary start stop expr) (laid : LaidOut tokens text) :
    Layered operandLevel text expr := by
  obtain ⟨stop, lays, all_blank⟩ := lays_of_laidOut laid 0
  have read := reads _ stop lays (lacks_of_blanks all_blank)
  obtain ⟨place, tree, blanks, derives, -⟩ := id read
  obtain ⟨operand, lays_operand⟩ :=
    exists_operand blanks .noRound (blanks_refl free place) derives
  have laid_operand : LaidOut (chainTokens operand []) text := by
    rw [chainTokens, linkTokens, List.flatMap_nil, List.append_nil]
    exact laidOut_of_lays lays_operand all_blank
  refine ⟨operand, [], laid_operand, ?_, by simp⟩
  -- The whole text is parsed as the expression, and so the one operand stands for it.
  have means : Means tokens expr := fun start stop lays ends =>
    reads_of_operand (reads start stop lays ends)
  rw [← String.toList_ofList (l := text)] at laid laid_operand
  have parsed := parse_chain laid_operand
  rw [parse_of_means means laid] at parsed
  obtain ⟨expr', chain_read, same⟩ := Option.map_eq_some_iff.mp parsed.symm
  cases same
  exact chain_read

end Phrase

namespace Layered

open Phrase

/-! ## Texts of one operand -/

theorem digits {value : Nat} {digits : List Char} (numeral : IsNumeral value digits) :
    Layered operandLevel digits (.literal (.ofDigits digits)) := by
  refine layered_of_laidOut ?_ (laidOut_token digits)
  rintro start stop ⟨place, after, blanks, spells, rfl⟩ ends
  exact reads_digits numeral blanks spells ends

theorem current : Layered operandLevel ['$'] .current := by
  refine layered_of_laidOut ?_ (laidOut_token ['$'])
  rintro start stop ⟨place, after, blanks, spells, rfl⟩ -
  exact reads_current blanks spells

theorem sibling {path : List PathStep} {chars : List Char} (printable : PathPrintable path)
    (written : PathWritten path chars) :
    Layered operandLevel ('(' :: (chars ++ [')', '$'])) (.sibling path) := by
  have laid : LaidOut (inParentheses [chars] ++ [['$']]) ('(' :: (chars ++ [')', '$'])) :=
    (laidOut_token ['(']).append
      ((laidOut_token chars).append ((laidOut_token [')']).append (laidOut_token ['$'])))
  exact layered_of_laidOut (fun _ _ lays _ => reads_sibling printable written lays) laid

/-- In parentheses a text of any level is one operand. -/
theorem inParentheses {level : Nat} {text : List Char} {expr : Expr}
    (layered : Layered level text expr) :
    Layered operandLevel ('(' :: (text ++ [')'])) expr := by
  obtain ⟨token, laid, means⟩ := means_of_parse layered.parse
  rw [String.toList_ofList] at laid
  have laid_group : LaidOut (Proviso.inParentheses [token]) ('(' :: (text ++ [')'])) :=
    (laidOut_token ['(']).append (laid.append (laidOut_token [')']))
  exact layered_of_laidOut (fun _ _ lays _ => reads_inParentheses means lays) laid_group

end Layered

end Proviso
