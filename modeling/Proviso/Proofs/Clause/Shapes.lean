/- # Proviso.Proofs.Clause.Shapes -- the parts of each phrase

Which parts a phrase has in a tree is fixed by the grammar: an expression is operands with operators
before and between them, a call a name and expressions, a path steps, a word nothing (`Phrase.Shape`).
Every node of a derivation has the shape of its phrase (`shape_of_derived`), so whatever is read off
the tree of a text may rely on it. -/
import Proviso.Expr.OfTree
import Proviso.Proofs.Clause.Complete
import Proviso.Proofs.Clause.Numerals
import Proviso.Proofs.Grammar.Nodes

namespace Proviso

set_option autoImplicit false

namespace Phrase

open Grammar

/-! ## What phrases are found as -/

/-- The operands as nodes of the tree. -/
def operandNodes : List Phrase :=
  [.sibling, .grouped, .call, .nil, .boolean, .float, .integer, .string, .current]

/-- The nodes that a phrase may be found as. -/
def foundAs : Phrase → List Phrase
  | .whitespace | .exponent | .identChar => []
  | .binaryOperator => binaryOperators
  | .unaryOperator => [.not, .neg]
  | .primary => operandNodes
  | .number => [.float, .integer]
  | name => [name]

def parts (name : Phrase) : List Phrase := name.form.partNames foundAs

def partNames : grammar.PartNames where
  found := foundAs
  of_named name named := by
    cases name <;> first | exact absurd rfl named | exact List.mem_singleton_self _
  of_silent name silent := by
    cases name <;> first | decide | cases silent
  of_atomic name atomic := by
    cases name <;> first | rfl | cases atomic

/-! ## Expressions -/

/-- Operands in turn with operators between them and prefix operators before them.  The flag tells
whether an operand is still to come. -/
inductive Alternates : Bool → List (Tree Phrase) → Prop where
  | done : Alternates false []
  | unary {tree : Tree Phrase} {rest : List (Tree Phrase)} {op : UnaryOperator}
      (is_operator : tree.name.unaryOperator? = some op) (more : Alternates true rest) :
      Alternates true (tree :: rest)
  | operand {tree : Tree Phrase} {rest : List (Tree Phrase)} (is_operand : tree.name ∈ operandNodes)
      (more : Alternates false rest) : Alternates true (tree :: rest)
  | binary {tree : Tree Phrase} {rest : List (Tree Phrase)} {op : BinaryOperator}
      (not_unary : tree.name.unaryOperator? = none)
      (is_operator : tree.name.binaryOperator? = some op) (more : Alternates true rest) :
      Alternates false (tree :: rest)

theorem operandNodes_apart : ∀ name ∈ operandNodes,
    name.unaryOperator? = none ∧ name.binaryOperator? = none := by
  decide

theorem binaryOperators_read : ∀ name ∈ binaryOperators,
    name.unaryOperator? = none ∧ name.binaryOperator?.isSome = true := by
  decide

theorem Alternates.prefixed {operators rest : List (Tree Phrase)}
    (are_operators : ∀ tree ∈ operators, tree.name ∈ [.not, .neg]) (more : Alternates true rest) :
    Alternates true (operators ++ rest) := by
  induction operators with
  | nil => exact more
  | cons tree others ih =>
    obtain ⟨first, later⟩ := List.forall_mem_cons.mp are_operators
    have is_operator : tree.name.unaryOperator?.isSome = true := by
      simp only [List.mem_cons, List.not_mem_nil, or_false] at first
      rcases first with is_not | is_neg
      · rw [is_not]
        rfl
      · rw [is_neg]
        rfl
    obtain ⟨op, reads⟩ := Option.isSome_iff_exists.mp is_operator
    exact .unary reads (ih later)

variable {ahead : Form Phrase → Context → Cursor → Prop} {context : Context}
  {cursor start : Cursor} {found : Found Phrase}

/-- An operand is found as one of the nodes. -/
theorem primary_cases (derives : Derives grammar ahead (.phrase .primary) context cursor found) :
    ∃ name ∈ operandNodes, Derives grammar ahead (.phrase name) context cursor found := by
  obtain ⟨place, operand, listed, in_operand⟩ := derives_primary.mp derives
  by_cases number : operand = .number
  · subst number
    rcases derives_choice.mp ((derives_silent rfl).mp in_operand) with float | integer
    · exact ⟨.float, by decide, float⟩
    · exact ⟨.integer, by decide, integer⟩
  · have others : ∀ name ∈ operands, name ≠ .number → name ∈ operandNodes := by decide
    exact ⟨operand, others operand (List.mem_of_getElem? listed) number, in_operand⟩

theorem operandNodes_named : ∀ name ∈ operandNodes, name.mode ≠ .silent := by
  decide

/-- An operand is one node. -/
theorem operand_tree (node : isNode context = true)
    (derives : Derives grammar ahead (.phrase .primary) context cursor found) :
    ∃ tree, found.trees = [tree] ∧ tree.name ∈ operandNodes := by
  obtain ⟨name, listed, in_node⟩ := primary_cases derives
  obtain ⟨parts, trees⟩ := tree_of_derives (operandNodes_named name listed) node in_node
  exact ⟨_, trees, listed⟩

/-- Prefix operators and an operand, with what follows the operand. -/
theorem operand_alternates {middle : Cursor} {prefixes : Found Phrase} {rest : List (Tree Phrase)}
    (node : isNode context = true)
    (in_prefixes : Derives grammar ahead (.many (.phrase .unaryOperator)) context cursor prefixes)
    (in_operand : Derives grammar ahead (.phrase .primary) context middle found)
    (more : Alternates false rest) : Alternates true (prefixes.trees ++ (found.trees ++ rest)) := by
  obtain ⟨tree, trees, is_operand⟩ := operand_tree node in_operand
  rw [trees]
  exact .prefixed (in_prefixes.partNames partNames (.inl node)) (.operand is_operand more)

theorem link_alternates {rest : List (Tree Phrase)} (node : isNode context = true)
    (derives : Derives grammar ahead linkForm context cursor found)
    (more : Alternates false rest) : Alternates false (found.trees ++ rest) := by
  obtain ⟨operator, _, _, in_operator, -, in_rest, rfl⟩ := derives_seq.mp derives
  obtain ⟨prefixes, _, operand, in_prefixes, -, in_operand, rfl⟩ := derives_seq.mp in_rest
  have tail := operand_alternates node in_prefixes in_operand more
  rw [← List.append_assoc] at tail
  obtain ⟨place, name, listed, in_op⟩ := derives_binaryOperator.mp in_operator
  have is_operator := List.mem_of_getElem? listed
  have named : name.mode ≠ .silent := by
    rw [(form_operator is_operator).2]
    decide
  obtain ⟨parts, trees⟩ := tree_of_derives named node in_op
  obtain ⟨not_unary, reads⟩ := binaryOperators_read name is_operator
  obtain ⟨op, reads⟩ := Option.isSome_iff_exists.mp reads
  rw [trees]
  exact .binary not_unary reads tail

theorem rounds_alternate {form : Form Phrase}
    (round : ∀ cursor found rest, Derives grammar ahead form context cursor found →
      Alternates false rest → Alternates false (found.trees ++ rest)) :
    ∀ {cursor found}, Rounds grammar ahead form context cursor found →
      Alternates false found.trees
  | _, _, .last inner => by
    have alone := round _ _ [] inner .done
    rwa [List.append_nil] at alone
  | _, _, .more front _ back => round _ _ _ front (rounds_alternate round back)

/-! ## Shapes -/

/-- The parts of a phrase, and what is known of the texts of truth values and of numbers. -/
def Shape (name : Phrase) (text : List Char) (parts : List (Tree Phrase)) : Prop :=
  match name with
  | .clause => ∃ whole ending, parts = [whole, ending] ∧
      (whole.name = .extended ∨ whole.name = .expression) ∧ ending.name = .endOfInput
  | .extended => ∃ condition message, parts = [condition, message] ∧
      condition.name = .expression ∧ message.name = .expression
  | .expression => Alternates true parts
  | .grouped => ∃ inner, parts = [inner] ∧ inner.name = .expression
  | .sibling => ∃ path, parts = [path] ∧ path.name = .fieldPath
  | .fieldPath => ∀ step ∈ parts, step.name ∈ [.ident, .fieldAccess, .indexAccess]
  | .fieldAccess => ∃ name, parts = [name] ∧ name.name = .ident
  | .indexAccess => ∃ index, parts = [index] ∧ index.name = .index
  | .call => ∃ name args, parts = name :: args ∧ name.name = .ident ∧
      ∀ arg ∈ args, arg.name = .expression
  | .string => ∃ body, parts = [body] ∧ body.name ∈ [.singleQuoted, .doubleQuoted]
  | .boolean => parts = [] ∧ (text = "true".toList ∨ text = "false".toList)
  | .integer => parts = [] ∧ text ≠ [] ∧ ∀ c ∈ text, c.isDigit = true
  | .float => parts = [] ∧ (Binary64.readDigits? .double false text).isSome = true
  | _ => parts = []

/-- Text adds no parts to what stands behind it. -/
theorem derives_after_text {chars : List Char} {form : Form Phrase}
    (derives : Derives grammar ahead (.seq (.text chars) form) context cursor found) :
    ∃ place, Derives grammar ahead form context place found := by
  obtain ⟨_, place, back, in_text, -, in_form, rfl⟩ := derives_seq.mp derives
  obtain ⟨_, -, rfl⟩ := derives_text.mp in_text
  exact ⟨place, in_form⟩

/-- Text adds no parts to what stands before it. -/
theorem derives_before_text {chars : List Char} {form : Form Phrase}
    (derives : Derives grammar ahead (.seq form (.text chars)) context cursor found) :
    ∃ inner, Derives grammar ahead form context cursor inner ∧ found.trees = inner.trees := by
  obtain ⟨inner, _, _, in_form, -, in_text, rfl⟩ := derives_seq.mp derives
  obtain ⟨_, -, rfl⟩ := derives_text.mp in_text
  exact ⟨inner, in_form, List.append_nil _⟩

theorem derives_between_texts {opening closing : List Char} {form : Form Phrase}
    (derives : Derives grammar ahead (.seqs [.text opening, form, .text closing]) context cursor
      found) :
    ∃ place inner, Derives grammar ahead form context place inner ∧ found.trees = inner.trees := by
  obtain ⟨place, in_rest⟩ := derives_after_text derives
  exact ⟨place, derives_before_text in_rest⟩

/-- What a phrase with parts has as parts, where they are nodes. -/
theorem shape_of_derives {name : Phrase} (text : List Char) (named : name.mode ≠ .silent)
    (compound : name.parts ≠ []) (node : isNode context = true)
    (derives : Derives grammar ahead name.form context cursor found) :
    name.Shape text found.trees := by
  have names := derives.partNames partNames (.inl node)
  have single {part : Phrase} {inner : Found Phrase} {start : Cursor} (named : part.mode ≠ .silent)
      (in_part : Derives grammar ahead (.phrase part) context start inner) :
      ∃ tree, inner.trees = [tree] ∧ tree.name = part := by
    obtain ⟨parts, trees⟩ := tree_of_derives named node in_part
    exact ⟨_, trees, rfl⟩
  cases name
  case clause =>
    obtain ⟨_, _, _, in_start, -, in_body, rfl⟩ := derives_seq.mp derives
    obtain ⟨inner, _, ending, in_inner, -, in_ending, rfl⟩ := derives_seq.mp in_body
    obtain ⟨last, ending_trees, ending_name⟩ := single (by decide) in_ending
    cases in_start with
    | startOfInput =>
      rcases derives_choice.mp in_inner with extended | expression
      · obtain ⟨whole, trees, whole_name⟩ := single (by decide) extended
        exact ⟨whole, last, by rw [trees, ending_trees]; rfl, .inl whole_name, ending_name⟩
      · obtain ⟨whole, trees, whole_name⟩ := single (by decide) expression
        exact ⟨whole, last, by rw [trees, ending_trees]; rfl, .inr whole_name, ending_name⟩
  case extended =>
    obtain ⟨_, in_body⟩ := derives_after_text derives
    obtain ⟨rule, _, tail, in_rule, -, in_tail, rfl⟩ := derives_seq.mp in_body
    obtain ⟨_, in_message⟩ := derives_after_text in_tail
    obtain ⟨_, in_text⟩ := derives_after_text in_message
    obtain ⟨final, _, last, in_expression, -, in_last, rfl⟩ := derives_seq.mp in_text
    have no_parts : last.trees = [] := by
      rcases derives_optional.mp in_last with semicolon | rfl
      · obtain ⟨_, -, rfl⟩ := derives_text.mp semicolon
        rfl
      · rfl
    obtain ⟨condition, rule_trees, condition_name⟩ := single (by decide) in_rule
    obtain ⟨message, final_trees, message_name⟩ := single (by decide) in_expression
    exact ⟨condition, message, by rw [rule_trees, final_trees, no_parts]; rfl, condition_name,
      message_name⟩
  case expression =>
    obtain ⟨prefixes, _, _, in_prefixes, -, in_body, rfl⟩ := derives_seq.mp derives
    obtain ⟨operand, _, links, in_operand, -, in_links, rfl⟩ := derives_seq.mp in_body
    refine operand_alternates node in_prefixes in_operand ?_
    rcases derives_many.mp in_links with rfl | rounds
    · exact .done
    · exact rounds_alternate (fun _ _ _ => link_alternates node) rounds
  case grouped =>
    obtain ⟨_, inner, in_inner, trees⟩ := derives_between_texts derives
    rw [trees]
    exact single (by decide) in_inner
  case sibling =>
    obtain ⟨_, in_body⟩ := derives_after_text derives
    obtain ⟨path, _, _, in_path, -, in_end, rfl⟩ := derives_seq.mp in_body
    obtain ⟨_, in_dollar⟩ := derives_after_text in_end
    obtain ⟨_, -, rfl⟩ := derives_text.mp in_dollar
    obtain ⟨tree, trees, tree_name⟩ := single (by decide) in_path
    exact ⟨tree, by rw [trees]; rfl, tree_name⟩
  case fieldPath => exact names
  case fieldAccess =>
    obtain ⟨_, in_name⟩ := derives_after_text derives
    exact single (by decide) in_name
  case indexAccess =>
    obtain ⟨_, inner, in_inner, trees⟩ := derives_between_texts derives
    rw [trees]
    exact single (by decide) in_inner
  case call =>
    obtain ⟨name, _, tail, in_name, -, in_tail, rfl⟩ := derives_seq.mp derives
    obtain ⟨_, in_body⟩ := derives_after_text in_tail
    obtain ⟨args, in_args, args_trees⟩ := derives_before_text in_body
    obtain ⟨tree, trees, tree_name⟩ := single (by decide) in_name
    have args_names := in_args.partNames partNames (.inl node)
    refine ⟨tree, args.trees, by rw [trees, args_trees]; rfl, tree_name, fun arg listed => ?_⟩
    simpa [Form.partNames, partNames, foundAs, literally] using args_names arg listed
  case string =>
    rcases derives_choice.mp derives with quoted | quoted
    · obtain ⟨_, inner, in_inner, trees⟩ := derives_between_texts quoted
      obtain ⟨body, body_trees, body_name⟩ := single (by decide) in_inner
      exact ⟨body, by rw [trees, body_trees], by rw [body_name]; decide⟩
    · obtain ⟨_, inner, in_inner, trees⟩ := derives_between_texts quoted
      obtain ⟨body, body_trees, body_name⟩ := single (by decide) in_inner
      exact ⟨body, by rw [trees, body_trees], by rw [body_name]; decide⟩
  all_goals first | exact absurd rfl compound | exact absurd rfl named

theorem boolean_text (derives : Derives grammar ahead (.phrase .boolean) context cursor found) :
    cursor.textTo found.cursor = "true".toList ∨ cursor.textTo found.cursor = "false".toList := by
  obtain ⟨inner, in_form, rfl⟩ := derives_phrase.mp derives
  obtain ⟨word, ending, in_word, in_ending, rfl⟩ :=
    derives_seq_bound (boolean_bound context) in_form
  obtain ⟨-, rfl⟩ := derives_notAhead.mp in_ending
  rw [present_cursor]
  rcases derives_choice.mp in_word with in_true | in_false
  · obtain ⟨rest, here, rfl⟩ := derives_text.mp in_true
    exact .inl (Cursor.textTo_of_rest here rfl)
  · obtain ⟨rest, here, rfl⟩ := derives_text.mp in_false
    exact .inr (Cursor.textTo_of_rest here rfl)

/-- **Every node has the shape of its phrase.** -/
theorem shape_of_derived {node : Tree Phrase} (derived : Derived grammar ahead start node) :
    node.name.Shape node.text node.children := by
  cases derived with
  | @of name context cursor inner derives named visible _ =>
    by_cases word : name.parts = []
    · have no_parts := derives.no_parts partNames word
      have whole : Derives grammar ahead (.phrase name) context cursor _ := .phrase derives
      cases name
      case boolean =>
        have text := boolean_text whole
        rw [present_cursor] at text
        exact ⟨no_parts, text⟩
      case integer =>
        have digits := integer_digits whole
        rw [present_cursor] at digits
        exact ⟨no_parts, digits⟩
      case float =>
        have readable := float_readable whole
        rw [present_cursor] at readable
        exact ⟨no_parts, readable⟩
      all_goals first | exact no_parts | cases word
    · have not_atomic : name.mode ≠ .atomic := fun atomic => word (partNames.of_atomic name atomic)
      exact shape_of_derives _ named word (visible.resolve_left not_atomic) derives

end Phrase

end Proviso
