/- # Proviso.Proofs.Clause.Precedence -- how the texts of operands and operators are grouped

A text that is written as operands with operators before and between them is read operand by operand:
it is accepted exactly when the text of each operand is, and what it stands for is the chain of what
the operands stand for (`Phrase.parse_chain`).  So the text before the last of the loosest operators,
and the text behind it, are the texts of the two sides of the root (`Clause.parse_splits`).  Every
accepted text is written in this way (`Phrase.exists_operands`). -/
import Proviso.Proofs.Clause.Composition
import Proviso.Proofs.Clause.Shapes
import Proviso.Proofs.Expr.Grouping

namespace Proviso

set_option autoImplicit false

/-! ## Texts of operands and operators -/

/-- An operand as it is written: operators, and a text that is one operand without them. -/
structure Operand where
  prefixes : List UnaryOperator
  primary : String
  is_primary : ∃ found, Phrase.primary.Derivable primary found ∧ found.cursor.rest = []

namespace Operand

def tokens (operand : Operand) : List (List Char) :=
  operand.prefixes.map (·.symbol.toList) ++ [operand.primary.toList]

/-- What the text of the operand stands for, operators aside, if it stands for something. -/
def value? (operand : Operand) : Option Expr :=
  (Clause.parse operand.primary).toOption.map Clause.condition

/-- What the operand stands for: the operators are applied from the innermost outwards. -/
def expr? (operand : Operand) : Option Expr :=
  operand.value?.map (operand.prefixes.foldr Expr.applyUnary)

end Operand

/-- What the operands behind operators stand for, operators before them aside, if all of them stand
for something. -/
def linkValues? : List (BinaryOperator × Operand) →
    Option (List (BinaryOperator × List UnaryOperator × Expr))
  | [] => some []
  | (op, operand) :: rest => operand.value?.bind fun expr =>
    (linkValues? rest).map ((op, operand.prefixes, expr) :: ·)

/-- What the operands behind operators stand for, if all of them stand for something. -/
def linkExprs? : List (BinaryOperator × Operand) → Option (List (BinaryOperator × Expr))
  | [] => some []
  | (op, operand) :: rest => operand.expr?.bind fun expr =>
    (linkExprs? rest).map ((op, expr) :: ·)

/-- What an operand and further operators and operands stand for, if all operands stand for
something. -/
def chainExpr? (first : Operand) (links : List (BinaryOperator × Operand)) : Option Expr :=
  first.expr?.bind fun expr =>
    (linkExprs? links).map fun others => ((Chain.operand expr).grow others).toExpr

theorem linkExprs?_eq (links : List (BinaryOperator × Operand)) :
    linkExprs? links = (linkValues? links).map
      (·.map fun link => (link.1, link.2.1.foldr Expr.applyUnary link.2.2)) := by
  induction links with
  | nil => rfl
  | cons link rest ih =>
    obtain ⟨op, operand⟩ := link
    rw [linkExprs?, linkValues?, Operand.expr?, ih]
    cases operand.value? with
    | none => rfl
    | some expr => cases linkValues? rest <;> rfl

theorem linkExprs?_append (front back : List (BinaryOperator × Operand)) :
    linkExprs? (front ++ back) = (linkExprs? front).bind fun first =>
      (linkExprs? back).map (first ++ ·) := by
  induction front with
  | nil => exact (Option.map_id' ..).symm
  | cons link rest ih =>
    obtain ⟨op, operand⟩ := link
    rw [List.cons_append, linkExprs?, linkExprs?, ih]
    cases operand.expr? with
    | none => rfl
    | some expr =>
      cases linkExprs? rest with
      | none => rfl
      | some first => cases linkExprs? back <;> rfl

/-- The operators are those that are written. -/
theorem forall_of_linkExprs? (holds : BinaryOperator → Prop)
    {links : List (BinaryOperator × Operand)} {exprs : List (BinaryOperator × Expr)}
    (read : linkExprs? links = some exprs) (all : ∀ link ∈ links, holds link.1) :
    ∀ link ∈ exprs, holds link.1 := by
  induction links generalizing exprs with
  | nil =>
    cases read
    simp
  | cons link rest ih =>
    obtain ⟨op, operand⟩ := link
    rw [linkExprs?, Option.bind_eq_some_iff] at read
    obtain ⟨expr, -, read_rest⟩ := read
    obtain ⟨others, read_others, rfl⟩ := Option.map_eq_some_iff.mp read_rest
    obtain ⟨first, more⟩ := List.forall_mem_cons.mp all
    exact List.forall_mem_cons.mpr ⟨first, ih read_others more⟩

/-- The tokens of operators, each with the operand behind it. -/
def linkTokens (links : List (BinaryOperator × Operand)) : List (List Char) :=
  links.flatMap fun link => link.1.symbol.toList :: link.2.tokens

/-- What is written as an operand and further operators and operands. -/
def chainTokens (first : Operand) (links : List (BinaryOperator × Operand)) : List (List Char) :=
  first.tokens ++ linkTokens links

namespace Phrase

open Grammar

variable {ahead : Form Phrase → Context → Cursor → Prop} {start stop place : Cursor}

/-! ## The tree of an operand -/

/-- An operand is one tree, and not that of an operator. -/
theorem primary_tree {found : Found Phrase}
    (derives : Derives grammar ahead (.phrase .primary) free start found) :
    ∃ tree, found.trees = [tree] ∧ tree.name.unaryOperator? = none ∧
      tree.name.binaryOperator? = none := by
  obtain ⟨tree, trees, is_operand⟩ := operand_tree rfl derives
  exact ⟨tree, trees, operandNodes_apart tree.name is_operand⟩

/-! ## Expressions of one operand -/

/-- An expression of one operand stands for what the operand does. -/
theorem ofTree_expression_single {tree : Tree Phrase} (offset : Nat) (text : List Char)
    (names : tree.name.unaryOperator? = none ∧ tree.name.binaryOperator? = none) :
    (Expr.ofTree (.node .expression offset text [tree])).toOption = (Expr.ofTree tree).toOption := by
  rw [Expr.ofTree, toOption_bind, items_operand names]
  cases (Expr.ofTree tree).toOption <;> rfl

theorem clause_toOption {tree : Tree Phrase} (other : tree.name ≠ .extended) (offset : Nat)
    (text : List Char) (rest : List (Tree Phrase)) :
    (Clause.ofTree (.node .clause offset text (tree :: rest))).toOption =
      (Expr.ofTree tree).toOption.map (⟨·, none⟩) := by
  obtain ⟨name, tree_offset, tree_text, children⟩ := tree
  simp only [Tree.name] at other
  rw [Clause.ofTree]
  · cases Expr.ofTree (.node name tree_offset tree_text children) <;> rfl
  all_goals simp [other]

/-- What an accepted expression stands for is what its text is parsed as. -/
theorem parse_expression {text : List Char} {tree : Tree Phrase} {last : Cursor}
    (blanks : grammar.Blanks free ⟨text, 0⟩ place)
    (derives : grammar.Derivable (.phrase .expression) free place ⟨[tree], stop⟩)
    (named : tree.name ≠ .extended) (to_last : grammar.Blanks free stop last)
    (is_last : last.rest = []) :
    (Clause.parse (String.ofList text)).toOption =
      (Expr.ofTree tree).toOption.map (⟨·, none⟩) := by
  obtain ⟨offset, span, ending, whole⟩ :=
    derives_clause rfl blanks (.second derives) to_last is_last
  rw [parse_toOption_of_derivation whole, clause_toOption named]

/-- The text of an operand, operators aside, is parsed as what its tree stands for. -/
theorem exists_primary_tree (operand : Operand) :
    ∃ tree last, grammar.Derivable (.phrase .primary) free ⟨operand.primary.toList, 0⟩
        ⟨[tree], last⟩ ∧ last.rest = [] ∧
      (tree.name.unaryOperator? = none ∧ tree.name.binaryOperator? = none) ∧
      (Expr.ofTree tree).toOption = operand.value? := by
  obtain ⟨⟨trees, last⟩, derives, is_last⟩ := operand.is_primary
  obtain ⟨tree, trees_eq, names⟩ := primary_tree derives
  cases trees_eq
  have form : grammar.Derivable (Phrase.form .expression) free ⟨operand.primary.toList, 0⟩
      ⟨[tree], last⟩ :=
    derives_seq_adjacent .noRound (derives_seq_adjacent derives .noRound)
  have expression := derives_node (by decide) rfl form
  have parsed := parse_expression (blanks_refl free _) expression (by simp [Tree.name])
    (blanks_refl free last) is_last
  refine ⟨tree, last, derives, is_last, names, ?_⟩
  rw [String.ofList_toList, ofTree_expression_single _ _ names] at parsed
  rw [Operand.value?, parsed, Option.map_map]
  exact (Option.map_id' ..).symm

/-! ## Operands in place -/

/-- Operators are read where they are laid out before a text. -/
theorem prefixes_derive {prefixes : List UnaryOperator} {text : List Char}
    (lays : Lays (prefixes.map (·.symbol.toList) ++ [text]) start stop) :
    ∃ place trees after next, grammar.Blanks free start place ∧
      grammar.Derivable (.many (.phrase .unaryOperator)) free place ⟨trees, after⟩ ∧
      grammar.Blanks free after next ∧ next.Spells text stop ∧
      ∀ rest, (Expr.itemsOfTrees (trees ++ rest)).toOption =
        (Expr.itemsOfTrees rest).toOption.map (prefixes.map Chain.Item.unary ++ ·) := by
  induction prefixes generalizing start with
  | nil =>
    obtain ⟨place, after, blanks, spells, rfl⟩ := lays
    exact ⟨place, [], place, place, blanks, .noRound, blanks_refl free place, spells,
      fun rest => (Option.map_id' ..).symm⟩
  | cons op prefixes ih =>
    obtain ⟨place, after, blanks, spells, lays⟩ := lays
    obtain ⟨middle, trees, last, next, to_middle, derives, to_next, spells_text, items⟩ := ih lays
    have first := spelled_unaryOperator op spells
    have items_eq (rest : List (Tree Phrase)) :
        (Expr.itemsOfTrees (.node op.phrase place.offset (place.textTo after) [] ::
          (trees ++ rest))).toOption =
          (Expr.itemsOfTrees rest).toOption.map ((op :: prefixes).map Chain.Item.unary ++ ·) := by
      rw [items_unary, items, Option.map_map]
      rfl
    rcases derives_many.mp derives with stops | rounds
    · cases stops
      exact ⟨place, _, after, next, blanks, .rounds (.last first), to_middle.trans to_next,
        spells_text, items_eq⟩
    · exact ⟨place, _, last, next, blanks, .rounds (.more first to_middle rounds), to_next,
        spells_text, items_eq⟩

/-- An operand is read where it is laid out, if a name would end behind it. -/
theorem operand_derives (operand : Operand) (lays : Lays operand.tokens start stop)
    (ends : stop.Lacks isIdentChar) :
    ∃ place trees after next tree, grammar.Blanks free start place ∧
      grammar.Derivable (.many (.phrase .unaryOperator)) free place ⟨trees, after⟩ ∧
      grammar.Blanks free after next ∧
      grammar.Derivable (.phrase .primary) free next ⟨[tree], stop⟩ ∧
      ∀ rest, (Expr.itemsOfTrees (trees ++ tree :: rest)).toOption =
        operand.value?.bind fun expr => (Expr.itemsOfTrees rest).toOption.map
          (Chain.operandItems operand.prefixes expr ++ ·) := by
  obtain ⟨place, trees, after, next, to_place, prefixes, to_next, spells, items⟩ :=
    prefixes_derive lays
  obtain ⟨own, last, derives, is_last, names, value⟩ := exists_primary_tree operand
  obtain ⟨whole, own_spells⟩ : ∃ chars, Cursor.Spells ⟨operand.primary.toList, 0⟩ chars last :=
    (derives.advances ranking).1
  have all_taken : whole = operand.primary.toList := by
    have here := own_spells.1
    rw [is_last, List.append_nil] at here
    exact here.symm
  subst all_taken
  obtain ⟨⟨others, _⟩, moved, rfl, alike⟩ :=
    moves_of_derives id derives rfl _ next _ own_spells spells fun _ => ends
  match others, moved, alike with
  | [tree], moved, ⟨same, _⟩ =>
    refine ⟨place, trees, after, next, tree, to_place, prefixes, to_next, moved, fun rest => ?_⟩
    rw [← same.name_eq] at names
    rw [items, items_operand names, ofTree_alike (legible_of_derives derives).1 same, value]
    cases operand.value? with
    | none => rfl
    | some expr => cases (Expr.itemsOfTrees rest).toOption <;> simp [Chain.operandItems]

/-! ## Operators and operands in place -/

theorem symbol_start (op : BinaryOperator) :
    ∃ c rest, op.symbol.toList = c :: rest ∧ isIdentChar c = false := by
  rcases op with op | op | op <;> cases op <;> exact ⟨_, _, rfl, rfl⟩

/-- Operators and operands are read where they are laid out, if a name would end behind them. -/
theorem links_derive {links : List (BinaryOperator × Operand)}
    (lays : Lays (linkTokens links) start stop) (ends : stop.Lacks isIdentChar) :
    start.Lacks isIdentChar ∧ ∃ trees,
      (Expr.itemsOfTrees trees).toOption = (linkValues? links).map Chain.linkItems ∧
      (trees = [] ∧ stop = start ∨ ∃ place, grammar.Blanks free start place ∧
        Rounds grammar grammar.Ahead linkForm free place ⟨trees, stop⟩) := by
  induction links generalizing start with
  | nil =>
    cases lays
    exact ⟨ends, [], rfl, .inl ⟨rfl, rfl⟩⟩
  | cons link rest ih =>
    obtain ⟨op, operand⟩ := link
    have operator_first : Lays (op.symbol.toList :: (operand.tokens ++ linkTokens rest)) start stop :=
      lays
    obtain ⟨c, more, symbol_eq, apart⟩ := symbol_start op
    refine ⟨(symbol_eq ▸ operator_first).lacks apart, ?_⟩
    obtain ⟨place, after, blanks, spells, lays⟩ := operator_first
    obtain ⟨middle, lays_operand, lays_rest⟩ := lays.split
    obtain ⟨middle_ends, trees, items_rest, onward⟩ := ih lays_rest
    obtain ⟨operand_place, prefixes, last, next, tree, to_operand, in_prefixes, to_next, in_primary,
      items⟩ := operand_derives operand lays_operand middle_ends
    have link : grammar.Derivable linkForm free place
        ⟨.node op.phrase place.offset (place.textTo after) [] :: (prefixes ++ [tree]), middle⟩ :=
      .seq (spelled_binaryOperator op spells) to_operand (.seq in_prefixes to_next in_primary)
    refine ⟨.node op.phrase place.offset (place.textTo after) [] :: (prefixes ++ tree :: trees), ?_,
      .inr ⟨place, blanks, ?_⟩⟩
    · rw [items_binary, items, items_rest, linkValues?]
      cases operand.value? with
      | none => rfl
      | some expr => cases linkValues? rest <;> rfl
    · rcases onward with ⟨rfl, rfl⟩ | ⟨rest_place, to_rest, rounds⟩
      · exact .last link
      · have both := Rounds.more link to_rest rounds
        simpa using both

/-- Operands and operators are an expression where they are laid out, and it stands for the chain of
what the operands stand for. -/
theorem chain_derives {first : Operand} {links : List (BinaryOperator × Operand)}
    (lays : Lays (chainTokens first links) start stop) (ends : stop.Lacks isIdentChar) :
    ∃ place tree, grammar.Blanks free start place ∧
      grammar.Derivable (.phrase .expression) free place ⟨[tree], stop⟩ ∧
      tree.name = .expression ∧ (Expr.ofTree tree).toOption = chainExpr? first links := by
  obtain ⟨middle, lays_first, lays_links⟩ := lays.split
  obtain ⟨middle_ends, trees, items_links, links_read⟩ := links_derive lays_links ends
  obtain ⟨place, prefixes, last, next, tree, to_place, in_prefixes, to_next, in_primary, items⟩ :=
    operand_derives first lays_first middle_ends
  have operand_first : grammar.Derivable (.seq (.phrase .primary) (.many linkForm)) free next
      ⟨[tree] ++ trees, stop⟩ := by
    rcases links_read with ⟨rfl, rfl⟩ | ⟨links_place, to_links, rounds⟩
    · exact derives_seq_adjacent in_primary .noRound
    · exact .seq in_primary to_links (.rounds rounds)
  have form : grammar.Derivable (Phrase.form .expression) free place
      ⟨prefixes ++ ([tree] ++ trees), stop⟩ := .seq in_prefixes to_next operand_first
  refine ⟨place, _, to_place, derives_node (by decide) rfl form, rfl, ?_⟩
  rw [Expr.ofTree, toOption_bind, List.singleton_append, items, items_links, chainExpr?,
    linkExprs?_eq, Operand.expr?]
  cases first.value? with
  | none => rfl
  | some expr =>
    cases linkValues? links with
    | none => rfl
    | some values =>
      simp only [Option.map_some, Option.bind_some, Chain.ofItems?_eq]
      rfl

/-- **A text of operands and operators is read operand by operand.**  It is accepted exactly when the
text of each operand is, and then stands for the chain of what they stand for. -/
theorem parse_chain {first : Operand} {links : List (BinaryOperator × Operand)} {source : String}
    (laid : LaidOut (chainTokens first links) source.toList) :
    (Clause.parse source).toOption = (chainExpr? first links).map (⟨·, none⟩) := by
  obtain ⟨stop, lays, all_blank⟩ := lays_of_laidOut laid 0
  obtain ⟨last, is_last, to_last⟩ := exists_end all_blank
  obtain ⟨place, tree, to_place, derives, named, read⟩ :=
    chain_derives lays (lacks_of_blanks all_blank)
  have parsed := parse_expression to_place derives (by rw [named]; decide) to_last is_last
  rwa [String.ofList_toList, read] at parsed

/-! ## Every condition is written so -/

theorem Lays.append {front back : List (List Char)} (lays : Lays front start place)
    (lays_back : Lays back place stop) : Lays (front ++ back) start stop := by
  induction front generalizing start with
  | nil =>
    cases lays
    exact lays_back
  | cons token rest ih =>
    obtain ⟨token_place, after, blanks, spells, lays⟩ := lays
    exact ⟨token_place, after, blanks, spells, ih lays⟩

/-- Tokens that stand up to the blanks at the end of a text are laid out in it. -/
theorem laidOut_of_lays {tokens : List (List Char)} (lays : Lays tokens start stop)
    (all_blank : ∀ c ∈ stop.rest, isBlank c = true) : LaidOut tokens start.rest := by
  induction tokens generalizing start with
  | nil =>
    cases lays
    exact all_blank
  | cons token rest ih =>
    obtain ⟨place, after, ⟨blanks, blank, here, -⟩, spells, lays⟩ := lays
    exact ⟨blanks, after.rest, blank, by rw [here, spells.1], ih lays⟩

theorem exists_unaryOperator {found : Found Phrase}
    (derives : Derives grammar ahead (.phrase .unaryOperator) free start found) :
    ∃ op : UnaryOperator, start.Spells op.symbol.toList found.cursor := by
  rcases derives_choice.mp ((derives_silent rfl).mp derives) with not | neg
  · obtain ⟨inner, in_text, rfl⟩ := derives_phrase.mp not
    obtain ⟨rest, here, rfl⟩ := derives_text.mp in_text
    exact ⟨.not, here, rfl⟩
  · obtain ⟨inner, in_text, rfl⟩ := derives_phrase.mp neg
    obtain ⟨rest, here, rfl⟩ := derives_text.mp in_text
    exact ⟨.neg, here, rfl⟩

/-- Every phrase of an infix operator is that of an operator. -/
theorem exists_phrase_eq : ∀ name ∈ binaryOperators, ∃ op : BinaryOperator, op.phrase = name := by
  simp only [binaryOperators, List.forall_mem_cons]
  exact ⟨⟨.connective .or, rfl⟩, ⟨.connective .and, rfl⟩, ⟨.comparison .eq, rfl⟩,
    ⟨.comparison .ne, rfl⟩, ⟨.comparison .le, rfl⟩, ⟨.comparison .ge, rfl⟩, ⟨.comparison .lt, rfl⟩,
    ⟨.comparison .gt, rfl⟩, ⟨.arithmetic .add, rfl⟩, ⟨.arithmetic .sub, rfl⟩,
    ⟨.arithmetic .mul, rfl⟩, ⟨.arithmetic .div, rfl⟩, ⟨.arithmetic .rem, rfl⟩, by simp⟩

theorem exists_binaryOperator {found : Found Phrase}
    (derives : Derives grammar ahead (.phrase .binaryOperator) free start found) :
    ∃ op : BinaryOperator, start.Spells op.symbol.toList found.cursor := by
  obtain ⟨index, name, name_listed, in_op⟩ := derives_binaryOperator.mp derives
  obtain ⟨op, rfl⟩ := exists_phrase_eq name (List.mem_of_getElem? name_listed)
  obtain ⟨inner, in_text, rfl⟩ := derives_phrase.mp in_op
  change Derives grammar ahead op.phrase.form (grammar.inside op.phrase free) start inner at in_text
  rw [op.phrase_form.2] at in_text
  obtain ⟨rest, here, rfl⟩ := derives_text.mp in_text
  refine ⟨op, ?_⟩
  rw [present_cursor]
  exact ⟨here, rfl⟩

/-- Rounds are laid out one after another, if each is laid out as the tokens of an item. -/
theorem exists_items_of_rounds {α : Type} (tokens : α → List (List Char)) {form : Form Phrase}
    {context : Context}
    (each : ∀ {start place : Cursor} {found : Found Phrase}, grammar.Blanks context start place →
      grammar.Derivable form context place found →
      ∃ item, Lays (tokens item) start found.cursor) :
    ∀ {start place : Cursor} {found : Found Phrase},
      Rounds grammar grammar.Ahead form context place found →
      grammar.Blanks context start place →
      ∃ items : List α, Lays (items.flatMap tokens) start found.cursor
  | _, _, _, .last inner, blanks => by
    obtain ⟨item, lays⟩ := each blanks inner
    exact ⟨[item], by rwa [List.flatMap_singleton]⟩
  | _, _, _, .more front to_back back, blanks => by
    obtain ⟨item, lays⟩ := each blanks front
    obtain ⟨items, lays_items⟩ := exists_items_of_rounds tokens each back to_back
    exact ⟨item :: items, lays.append lays_items⟩

theorem exists_prefixes {found : Found Phrase}
    (rounds : Rounds grammar grammar.Ahead (.phrase .unaryOperator) free place found)
    (blanks : grammar.Blanks free start place) :
    ∃ prefixes : List UnaryOperator, Lays (prefixes.map (·.symbol.toList)) start found.cursor := by
  simp only [List.map_eq_flatMap]
  refine exists_items_of_rounds _ (fun blanks derives => ?_) rounds blanks
  obtain ⟨op, spells⟩ := exists_unaryOperator derives
  exact ⟨op, _, _, blanks, spells, rfl⟩

/-- A phrase that is found somewhere is found in its text alone. -/
theorem derives_alone {name : Phrase} {found : Found Phrase}
    (derives : grammar.Derivable (.phrase name) free start found)
    (can_move : movable (.phrase name) = true) :
    ∃ text own, start.Spells text found.cursor ∧
      grammar.Derivable (.phrase name) free ⟨text, 0⟩ own ∧ own.cursor.rest = [] ∧
      AllAlike found.trees own.trees := by
  obtain ⟨text, spells⟩ : ∃ chars, start.Spells chars found.cursor := (derives.advances ranking).1
  have own_spells : Cursor.Spells ⟨text, 0⟩ text ⟨[], 0 + text.length⟩ :=
    ⟨(List.append_nil text).symm, rfl⟩
  have nothing_behind : Cursor.Lacks ⟨[], 0 + text.length⟩ isIdentChar := fun c here => nomatch here
  obtain ⟨own, own_derives, own_stop, alike⟩ :=
    moves_of_derives id derives can_move text _ _ spells own_spells fun _ => nothing_behind
  exact ⟨text, own, spells, own_derives, by rw [own_stop], alike⟩

/-- What is read as operators and an operand without them is laid out as an operand: its text alone
is one too. -/
theorem exists_operand {next : Cursor} {prefixes found : Found Phrase}
    (blanks : grammar.Blanks free start place)
    (in_prefixes : grammar.Derivable (.many (.phrase .unaryOperator)) free place prefixes)
    (to_next : grammar.Blanks free prefixes.cursor next)
    (derives : grammar.Derivable (.phrase .primary) free next found) :
    ∃ operand : Operand, Lays operand.tokens start found.cursor := by
  obtain ⟨text, own, spells, own_derives, own_stop, -⟩ := derives_alone derives rfl
  have is_primary : ∃ found, Phrase.primary.Derivable (String.ofList text) found ∧
      found.cursor.rest = [] := by
    refine ⟨own, ?_, own_stop⟩
    rw [Phrase.Derivable, String.toList_ofList]
    exact own_derives
  obtain ⟨operators, lays⟩ : ∃ operators : List UnaryOperator,
      Lays (operators.map (·.symbol.toList) ++ [text]) start found.cursor := by
    rcases derives_many.mp in_prefixes with rfl | rounds
    · exact ⟨[], next, found.cursor, blanks.trans to_next, spells, rfl⟩
    · obtain ⟨operators, lays⟩ := exists_prefixes rounds blanks
      exact ⟨operators, lays.append ⟨next, found.cursor, to_next, spells, rfl⟩⟩
  refine ⟨⟨operators, String.ofList text, is_primary⟩, ?_⟩
  rw [Operand.tokens, String.toList_ofList]
  exact lays

theorem exists_link {found : Found Phrase} (blanks : grammar.Blanks free start place)
    (derives : grammar.Derivable linkForm free place found) :
    ∃ link : BinaryOperator × Operand,
      Lays (link.1.symbol.toList :: link.2.tokens) start found.cursor := by
  obtain ⟨operator, after, _, in_operator, to_after, in_operand, rfl⟩ := derives_seq.mp derives
  obtain ⟨prefixes, next, primary, in_prefixes, to_next, in_primary, rfl⟩ :=
    derives_seq.mp in_operand
  obtain ⟨op, spells⟩ := exists_binaryOperator in_operator
  obtain ⟨operand, lays⟩ := exists_operand to_after in_prefixes to_next in_primary
  exact ⟨(op, operand), place, operator.cursor, blanks, spells, lays⟩

/-- A text is one operand, operators aside, if the matcher reads it so to the end. -/
theorem is_primary_of_read {text : String}
    (read : (grammar.read .primary text.toList).1.any (·.cursor.rest.isEmpty) = true) :
    ∃ found, Phrase.primary.Derivable text found ∧ found.cursor.rest = [] := by
  rw [show (grammar.read .primary text.toList).1 = grammar.take .primary free ⟨text.toList, 0⟩ from
    read_fst Phrase.primary text.toList] at read
  cases taken : grammar.take .primary free ⟨text.toList, 0⟩ with
  | none => simp [taken] at read
  | some found =>
    rw [taken] at read
    exact ⟨found, derivable_of_take_phrase taken, List.isEmpty_iff.mp read⟩

/-- **Every condition is written as operands and operators.** -/
theorem exists_operands {source : String} {expr : Expr}
    (parsed : Clause.parse source = .ok ⟨expr, none⟩) :
    ∃ first links, LaidOut (chainTokens first links) source.toList := by
  obtain ⟨start, tree, stop, last, to_start, derives, -, -, to_last, is_last⟩ :=
    expression_of_parse parsed
  obtain ⟨prefixes, next, operand, after, found, in_prefixes, to_next, in_operand, to_after,
    in_links, found_eq⟩ := expression_parts derives
  have stop_eq : stop = found.cursor := by
    have cursors := congrArg Found.cursor found_eq
    rwa [present_cursor] at cursors
  subst stop_eq
  obtain ⟨first, lays_first⟩ := exists_operand to_start in_prefixes to_next in_operand
  have ends_blank {cursor : Cursor} (to_last : grammar.Blanks free cursor last) :
      ∀ c ∈ cursor.rest, isBlank c = true := by
    obtain ⟨back, back_blank, here, -⟩ := to_last
    rw [is_last, List.append_nil] at here
    exact here ▸ back_blank
  rcases derives_many.mp in_links with rfl | rounds
  · refine ⟨first, [], ?_⟩
    rw [chainTokens, linkTokens, List.flatMap_nil, List.append_nil]
    exact laidOut_of_lays lays_first (ends_blank (to_after.trans to_last))
  · obtain ⟨links, lays_links⟩ := exists_items_of_rounds _ exists_link rounds to_after
    exact ⟨first, links,
      laidOut_of_lays (lays_first.append lays_links) (ends_blank to_last)⟩

end Phrase

namespace Clause

end Clause

end Proviso
