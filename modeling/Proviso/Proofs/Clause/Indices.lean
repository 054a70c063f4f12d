/- # Proviso.Proofs.Clause.Indices -- what can be wrong with a text that matches

A text that the grammar matches is a clause unless an index in it is too large.  Its tree has the
shapes of the grammar (`Phrase.Shape`), and for such trees reading reports on the indices and on
nothing else, in the order in which they stand in the text (`Phrase.ofTree_reports`).

Each index stands between brackets in the path of a field, and later ones stand further on in the
text; so the first error is that of the leftmost index that does not fit. -/
import Proviso.Clause.Parse
import Proviso.Proofs.Clause.Meaning
import Proviso.Proofs.Clause.Shapes
import Proviso.Proofs.Clause.Written
import Proviso.Proofs.Expr.Grouping
import Proviso.Proofs.FirstFault

namespace Proviso

set_option autoImplicit false

open Proviso.Tree

namespace Phrase

def indicesOf (trees : List (Tree Phrase)) : List (Tree Phrase) :=
  (nodesOf trees).filter fun node => node.name == .index

def indexValue (index : Tree Phrase) : Nat := Nat.ofDigitChars 10 index.text 0

/-- An index does not fit in 64 bits, and this is its error. -/
def Oversized (index : Tree Phrase) (error : TreeError) : Prop :=
  UInt64.size ≤ indexValue index ∧ error = ⟨.invalidIndex, index.offset⟩

/-- Every node in the trees has the shape of its phrase. -/
def Shaped (trees : List (Tree Phrase)) : Prop :=
  ∀ node ∈ nodesOf trees, node.name.Shape node.text node.children

section

variable {name : Phrase} {offset : Nat} {text : List Char} {parts rest : List (Tree Phrase)}
  {tree : Tree Phrase}

theorem indicesOf_cons : indicesOf (tree :: rest) = indicesOf [tree] ++ indicesOf rest := by
  rw [indicesOf, ← List.singleton_append, nodesOf_append, List.filter_append]
  rfl

theorem indicesOf_node (other : name ≠ .index) :
    indicesOf [.node name offset text parts] = indicesOf parts := by
  rw [indicesOf, nodesOf_singleton, List.filter_cons_of_neg (by simpa [Tree.name] using other)]
  rfl

theorem shaped_node : Shaped [.node name offset text parts] ↔
    name.Shape text parts ∧ Shaped parts := by
  unfold Shaped
  rw [nodesOf_singleton, List.forall_mem_cons]
  rfl

theorem shaped_cons : Shaped (tree :: rest) ↔ Shaped [tree] ∧ Shaped rest := by
  unfold Shaped
  rw [← List.singleton_append, nodesOf_append, List.forall_mem_append]

/-- A word has no parts. -/
theorem no_parts_of_shape (word : name.parts = []) (shape : name.Shape text parts) :
    parts = [] := by
  cases name
  case boolean | integer | float => exact shape.1
  all_goals first | exact shape | cases word

/-- There is no index in another word. -/
theorem no_indices_of_word (shaped : Shaped [tree])
    (word : tree.name.parts = [] ∧ tree.name ≠ .index) : indicesOf [tree] = [] := by
  obtain ⟨name, offset, text, parts⟩ := tree
  obtain ⟨no_parts, other⟩ : name.parts = [] ∧ name ≠ .index := word
  rw [indicesOf_node other, no_parts_of_shape no_parts (shaped_node.mp shaped).1]
  rfl

theorem indices_of_index (shaped : Shaped [tree]) (is_index : tree.name = .index) :
    indicesOf [tree] = [tree] := by
  obtain ⟨name, offset, text, parts⟩ := tree
  cases is_index
  cases no_parts_of_shape rfl (shaped_node.mp shaped).1
  rfl

end

/-! ## Reading reports on indices -/

/-- The first index that does not fit is the error, or there is a good result and all fit. -/
abbrev ReportsOn {α : Type} (good : α → Prop) (trees : List (Tree Phrase))
    (result : Except TreeError α) : Prop :=
  Reports Oversized good (indicesOf trees) result

theorem readIndex_reports (index : Tree Phrase) :
    Reports Oversized (fun _ => True) [index] (readIndex index) := by
  show Reports Oversized (fun _ => True) [index] (if indexValue index < UInt64.size then
    .ok (indexValue index) else .error ⟨.invalidIndex, index.offset⟩)
  split
  · rename_i fits
    exact .one (fun error oversized => Nat.not_le.mpr fits oversized.1) trivial
  · rename_i too_large
    exact .stop ⟨Nat.not_lt.mp too_large, rfl⟩

theorem readStep_reports {step : Tree Phrase} (shaped : Shaped [step])
    (is_step : step.name ∈ [.ident, .fieldAccess, .indexAccess]) :
    ReportsOn (fun _ => True) [step] (readStep step) := by
  obtain ⟨name, offset, text, parts⟩ := step
  obtain ⟨shape, within⟩ := shaped_node.mp shaped
  simp only [Tree.name, List.mem_cons, List.not_mem_nil, or_false] at is_step
  rcases is_step with rfl | rfl | rfl
  · have word : Phrase.ident.parts = [] ∧ Phrase.ident ≠ .index := by decide
    rw [ReportsOn, no_indices_of_word shaped word]
    exact .nothing trivial
  · obtain ⟨ident, rfl, is_ident⟩ := shape
    have no_indices := no_indices_of_word within (by rw [is_ident]; decide)
    rw [ReportsOn, indicesOf_node (by decide), no_indices]
    exact .nothing trivial
  · obtain ⟨index, rfl, is_index⟩ := shape
    rw [ReportsOn, indicesOf_node (by decide), indices_of_index within is_index]
    exact (readIndex_reports index).andReturn fun _ _ => trivial

theorem readSteps_reports : ∀ {steps : List (Tree Phrase)}, Shaped steps →
    (∀ step ∈ steps, step.name ∈ [.ident, .fieldAccess, .indexAccess]) →
      ReportsOn (fun _ => True) steps (steps.mapM readStep)
  | [], _, _ => .nothing trivial
  | step :: rest, shaped, are_steps => by
    obtain ⟨first, later⟩ := shaped_cons.mp shaped
    obtain ⟨is_step, others⟩ := List.forall_mem_cons.mp are_steps
    rw [ReportsOn, indicesOf_cons, List.mapM_cons]
    exact (readStep_reports first is_step).bind fun _ _ =>
      (readSteps_reports later others).andReturn fun _ _ => trivial

theorem ofLeaf_reports {name : Phrase} {offset : Nat} {text : List Char}
    {parts : List (Tree Phrase)} (shaped : Shaped [.node name offset text parts])
    (is_leaf : name ∈ operandNodes ∧ name ≠ .grouped ∧ name ≠ .call) :
    ReportsOn (fun _ => True) [.node name offset text parts]
      (Expr.ofLeaf name offset text parts) := by
  obtain ⟨shape, within⟩ := shaped_node.mp shaped
  rw [ReportsOn]
  cases name
  case sibling =>
    obtain ⟨⟨_, path_offset, path_text, steps⟩, rfl, rfl⟩ := shape
    obtain ⟨are_steps, steps_shaped⟩ := shaped_node.mp within
    rw [indicesOf_node (by decide), indicesOf_node (by decide)]
    exact (readSteps_reports steps_shaped are_steps).andReturn fun _ _ => trivial
  case string =>
    obtain ⟨body, rfl, is_body⟩ := shape
    have words : ∀ name ∈ [Phrase.singleQuoted, .doubleQuoted],
        name.parts = [] ∧ name ≠ .index := by decide
    rw [indicesOf_node (by decide), no_indices_of_word within (words body.name is_body)]
    exact .nothing trivial
  case boolean =>
    obtain ⟨rfl, is_true | is_false⟩ := shape
    · rw [is_true]
      exact .nothing trivial
    · rw [is_false]
      exact .nothing trivial
  case integer =>
    obtain ⟨rfl, some_digit, are_digits⟩ := shape
    simp only [Expr.ofLeaf, Literal.ofNumeral?_digits some_digit are_digits]
    exact .nothing trivial
  case float =>
    obtain ⟨rfl, readable⟩ := shape
    obtain ⟨value, read⟩ := Option.isSome_iff_exists.mp readable
    simp only [Expr.ofLeaf, read]
    exact .nothing trivial
  case current | nil =>
    cases shape
    exact .nothing trivial
  all_goals exact absurd is_leaf (by decide)

/-! ## Expressions -/

theorem ofTrees_reports : ∀ {trees : List (Tree Phrase)},
    (∀ tree ∈ trees, ReportsOn (fun _ => True) [tree] (Expr.ofTree tree)) →
      ReportsOn (fun _ => True) trees (Expr.ofTrees trees)
  | [], _ => .nothing trivial
  | tree :: rest, each => by
    obtain ⟨first, later⟩ := List.forall_mem_cons.mp each
    rw [ReportsOn, indicesOf_cons, Expr.ofTrees]
    exact first.bind fun _ _ => (ofTrees_reports later).andReturn fun _ _ => trivial

/-- Items that can be grouped: operands with operators between them and before them, or what goes on
behind an operand. -/
def Groupable : Bool → List Chain.Item → Prop
  | true, items => ∃ prefixes expr links,
      items = Chain.operandItems prefixes expr ++ Chain.linkItems links
  | false, items => ∃ links, items = Chain.linkItems links

/-- An operator has no parts. -/
theorem word_of_operator {name : Phrase}
    (reads : name.unaryOperator?.isSome = true ∨ name.binaryOperator?.isSome = true) :
    name.parts = [] ∧ name ≠ .index := by
  revert reads
  cases name <;> decide

theorem items_report {wanted : Bool} {trees : List (Tree Phrase)}
    (alternates : Alternates wanted trees) (shaped : Shaped trees)
    (each : ∀ tree ∈ trees, tree.name ∈ operandNodes →
      ReportsOn (fun _ => True) [tree] (Expr.ofTree tree)) :
    ReportsOn (Groupable wanted) trees (Expr.itemsOfTrees trees) := by
  induction alternates with
  | done => exact .nothing ⟨[], rfl⟩
  | @unary tree rest op is_operator more ih =>
    obtain ⟨first, later⟩ := shaped_cons.mp shaped
    have word := word_of_operator (.inl (Option.isSome_iff_exists.mpr ⟨op, is_operator⟩))
    have rest_reports := ih later fun other listed => each other (List.mem_cons_of_mem _ listed)
    obtain ⟨name, offset, text, parts⟩ := tree
    rw [ReportsOn, indicesOf_cons, no_indices_of_word first word, List.nil_append,
      Expr.itemsOfTrees, show name.unaryOperator? = some op from is_operator]
    refine rest_reports.andReturn fun items groupable => ?_
    obtain ⟨prefixes, expr, links, rfl⟩ := groupable
    exact ⟨op :: prefixes, expr, links, rfl⟩
  | @operand tree rest is_operand more ih =>
    obtain ⟨first, later⟩ := shaped_cons.mp shaped
    have rest_reports := ih later fun other listed => each other (List.mem_cons_of_mem _ listed)
    have operand_reports := each tree List.mem_cons_self is_operand
    obtain ⟨name, offset, text, parts⟩ := tree
    obtain ⟨not_unary, not_binary⟩ := operandNodes_apart name is_operand
    rw [ReportsOn, indicesOf_cons, Expr.itemsOfTrees, not_unary, not_binary]
    refine operand_reports.bind fun expr _ => rest_reports.andReturn fun items groupable => ?_
    obtain ⟨links, rfl⟩ := groupable
    exact ⟨[], expr, links, rfl⟩
  | @binary tree rest op not_unary is_operator more ih =>
    obtain ⟨first, later⟩ := shaped_cons.mp shaped
    have word := word_of_operator (.inr (Option.isSome_iff_exists.mpr ⟨op, is_operator⟩))
    have rest_reports := ih later fun other listed => each other (List.mem_cons_of_mem _ listed)
    obtain ⟨name, offset, text, parts⟩ := tree
    rw [ReportsOn, indicesOf_cons, no_indices_of_word first word, List.nil_append,
      Expr.itemsOfTrees, show name.unaryOperator? = none from not_unary,
      show name.binaryOperator? = some op from is_operator]
    refine rest_reports.andReturn fun items groupable => ?_
    obtain ⟨prefixes, expr, links, rfl⟩ := groupable
    exact ⟨(op, prefixes, expr) :: links, rfl⟩

mutual

/-- **Reading an expression reports on its indices.** -/
theorem ofTree_reports : ∀ {tree : Tree Phrase}, Shaped [tree] →
    tree.name = .expression ∨ tree.name ∈ operandNodes →
      ReportsOn (fun _ => True) [tree] (Expr.ofTree tree)
  | .node name offset text parts, shaped, is_operand => by
    obtain ⟨shape, within⟩ := shaped_node.mp shaped
    have each := each_reports within
    by_cases inner : name ≠ .expression ∧ name ≠ .grouped ∧ name ≠ .call
    · rw [ofTree_leaf _ _ _ inner]
      exact ofLeaf_reports shaped ⟨is_operand.resolve_left inner.1, inner.2⟩
    · rw [ReportsOn]
      cases name
      case expression =>
        have items := items_report shape within fun tree listed operand =>
          each tree listed (.inr operand)
        rw [indicesOf_node (by decide), Expr.ofTree, ← List.append_nil (indicesOf parts)]
        refine items.bind fun items groupable => ?_
        obtain ⟨prefixes, expr, links, rfl⟩ := groupable
        rw [Chain.ofItems?_eq]
        exact .nothing trivial
      case grouped =>
        obtain ⟨inner, rfl, is_expression⟩ := shape
        rw [indicesOf_node (by decide)]
        exact each inner List.mem_cons_self (.inl is_expression)
      case call =>
        obtain ⟨ident, args, rfl, is_ident, are_expressions⟩ := shape
        have word : ident.name.parts = [] ∧ ident.name ≠ .index := by
          rw [is_ident]
          decide
        have args_report := ofTrees_reports fun arg listed =>
          each arg (List.mem_cons_of_mem _ listed) (.inl (are_expressions arg listed))
        rw [indicesOf_node (by decide), indicesOf_cons,
          no_indices_of_word (shaped_cons.mp within).1 word, List.nil_append]
        exact args_report.andReturn fun _ _ => trivial
      all_goals exact absurd (by decide) inner

theorem each_reports : ∀ {trees : List (Tree Phrase)}, Shaped trees → ∀ tree ∈ trees,
    tree.name = .expression ∨ tree.name ∈ operandNodes →
      ReportsOn (fun _ => True) [tree] (Expr.ofTree tree)
  | first :: rest, shaped, tree, listed, is_operand => by
    obtain ⟨first_shaped, rest_shaped⟩ := shaped_cons.mp shaped
    rcases List.mem_cons.mp listed with same | later
    · rw [same] at is_operand ⊢
      exact ofTree_reports first_shaped is_operand
    · exact each_reports rest_shaped tree later is_operand

end

/-- Reading a clause reports on the indices of the condition, and then on those of the message. -/
theorem clause_reports {tree : Tree Phrase} (shaped : Shaped [tree]) (is_clause : tree.name = .clause) :
    ReportsOn (fun _ => True) [tree] (Clause.ofTree tree) := by
  obtain ⟨name, offset, text, parts⟩ := tree
  cases is_clause
  obtain ⟨⟨whole, ending, rfl, is_whole, is_ending⟩, within⟩ := shaped_node.mp shaped
  obtain ⟨whole_shaped, ending_shaped⟩ := shaped_cons.mp within
  have word : ending.name.parts = [] ∧ ending.name ≠ .index := by
    rw [is_ending]
    decide
  rw [ReportsOn, indicesOf_node (by decide), indicesOf_cons, no_indices_of_word ending_shaped word,
    List.append_nil]
  obtain ⟨name, whole_offset, whole_text, whole_parts⟩ := whole
  rcases is_whole with is_extended | is_expression
  · cases is_extended
    obtain ⟨⟨condition, message, rfl, of_condition, of_message⟩, parts_shaped⟩ :=
      shaped_node.mp whole_shaped
    obtain ⟨condition_shaped, message_shaped⟩ := shaped_cons.mp parts_shaped
    rw [indicesOf_node (by decide), indicesOf_cons]
    exact (ofTree_reports condition_shaped (.inl of_condition)).bind fun _ _ =>
      (ofTree_reports message_shaped (.inl of_message)).andReturn fun _ _ => trivial
  · cases is_expression
    exact (ofTree_reports whole_shaped (.inl rfl)).andReturn fun _ _ => trivial

/-! ## Where indices stand -/

open Grammar

section

variable {ahead : Form Phrase → Context → Cursor → Prop} {start : Cursor}
  {trees : List (Tree Phrase)}

/-- Where only one phrase has parts of a name, a part of that name is a part of it. -/
theorem exists_holder {part : Tree Phrase} {holder : Phrase}
    (derived : ∀ node ∈ nodesOf trees, Derived grammar ahead start node)
    (listed : part ∈ nodesOf trees) (within : ∀ tree ∈ trees, tree.name ≠ part.name)
    (only : ∀ name : Phrase, part.name ∈ name.parts → name = holder) :
    ∃ parent ∈ nodesOf trees, parent.name = holder ∧ part ∈ parent.children := by
  rcases parent_of_mem_nodesOf listed with outermost | ⟨parent, inner, is_part⟩
  · exact absurd rfl (within part outermost)
  · have named := (derived parent inner).partNames partNames part is_part
    exact ⟨parent, inner, only parent.name named, is_part⟩

/-- An index is digits. -/
theorem index_text {context : Context} {cursor : Cursor} {found : Found Phrase}
    (derives : Derives grammar ahead (.phrase .index) context cursor found) :
    ∃ digits, digits ≠ [] ∧ (∀ c ∈ digits, c.isDigit = true) ∧
      cursor.textTo found.cursor = digits ∧ cursor.rest = digits ++ found.cursor.rest := by
  have reaches := (derives.advances ranking).1
  obtain ⟨inner, in_form, rfl⟩ := derives_phrase.mp derives
  obtain ⟨first, run, are_digits, here⟩ := digits_shape (index_bound context) in_form
  rw [present_cursor] at reaches ⊢
  have text_eq : cursor.textTo inner.cursor = first :: run :=
    List.append_cancel_right (reaches.rest_eq.symm.trans here)
  exact ⟨first :: run, List.cons_ne_nil _ _, are_digits, text_eq, here⟩

/-- The brackets of an index, and its digits between them. -/
theorem brackets_of_access {source : List Char} {access index : Tree Phrase}
    (derived : Derived grammar ahead ⟨source, 0⟩ access) (is_access : access.name = .indexAccess)
    (parts : access.children = [index]) :
    IsNumeral (indexValue index) index.text ∧ ∃ before after,
      source = before ++ '[' :: (index.text ++ ']' :: after) ∧
        index.offset = before.length + 1 := by
  cases derived with
  | @of name context cursor inner derives named visible reaches =>
    cases is_access
    have node : isNode (grammar.inside .indexAccess context) = true :=
      visible.resolve_left (by decide)
    have bound := indexAccess_bound context
    obtain ⟨opening, rest, in_opening, in_rest, rfl⟩ := derives_seq_bound bound derives
    obtain ⟨found, closing, in_index, in_closing, rfl⟩ := derives_seq_bound bound in_rest
    obtain ⟨inside, opens, rfl⟩ := derives_text.mp in_opening
    obtain ⟨after, closes, rfl⟩ := derives_text.mp in_closing
    obtain ⟨words, trees⟩ := tree_of_derives (by decide) node in_index
    obtain ⟨digits, some_digit, are_digits, text_eq, here⟩ := index_text in_index
    have is_index : .node .index (cursor.offset + 1) digits words = index := by
      rw [← text_eq]
      simpa [Tree.children, trees] using parts
    obtain ⟨before, source_eq, offset_eq⟩ := reaches
    subst is_index
    refine ⟨⟨some_digit, are_digits, rfl⟩, before, after, ?_, ?_⟩
    · have whole : source = before ++ cursor.rest := source_eq
      have inside_eq : inside = digits ++ found.cursor.rest := here
      rw [whole, opens, inside_eq, closes]
      rfl
    · show cursor.offset + 1 = before.length + 1
      rw [offset_eq, Nat.zero_add]

end

/-- An index is a step in the path of a field of the record: digits between brackets of the text. -/
structure InPath (source : List Char) (trees : List (Tree Phrase)) (index : Tree Phrase) : Prop where
  of_sibling : ∃ sibling ∈ nodesOf trees, sibling.name = .sibling ∧
    ∃ path ∈ sibling.children, ∃ access ∈ path.children, access.children = [index]
  is_numeral : IsNumeral (indexValue index) index.text
  in_brackets : ∃ before after, source = before ++ '[' :: (index.text ++ ']' :: after) ∧
    index.offset = before.length + 1

theorem holder_of_index : ∀ name : Phrase, .index ∈ name.parts → name = .indexAccess := by
  intro name
  cases name <;> decide

theorem holder_of_indexAccess : ∀ name : Phrase, .indexAccess ∈ name.parts → name = .fieldPath := by
  intro name
  cases name <;> decide

theorem holder_of_fieldPath : ∀ name : Phrase, .fieldPath ∈ name.parts → name = .sibling := by
  intro name
  cases name <;> decide

/-- Every index of a clause is in a path. -/
theorem inPath_of_derived {ahead : Form Phrase → Context → Cursor → Prop} {source : List Char}
    {trees : List (Tree Phrase)}
    (derived : ∀ node ∈ nodesOf trees, Derived grammar ahead ⟨source, 0⟩ node)
    (clause : ∀ tree ∈ trees, tree.name = .clause) {index : Tree Phrase}
    (listed : index ∈ indicesOf trees) : InPath source trees index := by
  have within (part : Tree Phrase) (other : part.name ≠ .clause) :
      ∀ tree ∈ trees, tree.name ≠ part.name := by
    intro tree outermost
    rw [clause tree outermost]
    exact other.symm
  obtain ⟨is_node, named⟩ := List.mem_filter.mp listed
  have is_index : index.name = .index := beq_iff_eq.mp named
  obtain ⟨access, in_access, is_access, part⟩ := exists_holder derived is_node
    (within index (by rw [is_index]; decide)) (by rw [is_index]; exact holder_of_index)
  obtain ⟨path, in_path, is_path, access_part⟩ := exists_holder derived in_access
    (within access (by rw [is_access]; decide)) (by rw [is_access]; exact holder_of_indexAccess)
  obtain ⟨sibling, in_sibling, is_sibling, path_part⟩ := exists_holder derived in_path
    (within path (by rw [is_path]; decide)) (by rw [is_path]; exact holder_of_fieldPath)
  have parts : access.children = [index] := by
    have shape := shape_of_derived (derived access in_access)
    rw [is_access] at shape
    obtain ⟨only, parts, -⟩ := shape
    rw [parts] at part ⊢
    rw [List.mem_singleton.mp part]
  obtain ⟨is_numeral, in_brackets⟩ := brackets_of_access (derived access in_access) is_access parts
  exact ⟨⟨sibling, in_sibling, is_sibling, path, path_part, access, access_part, parts⟩, is_numeral,
    in_brackets⟩

end Phrase

/-! ## Texts -/

namespace Clause

open Phrase Grammar

/-- The trees of a text that matches: one of a clause, whose nodes are derived, with its indices in
the order of the text. -/
theorem tree_of_match {source : String} {trees : List (Tree Phrase)}
    (matched : Phrase.clause.parse source = .ok trees) :
    (∀ node ∈ nodesOf trees, Derived grammar (fun _ _ _ => False) ⟨source.toList, 0⟩ node) ∧
      (∃ tree, trees = [tree] ∧ tree.name = .clause) ∧
      (indicesOf trees).Pairwise fun earlier later => earlier.offset < later.offset := by
  obtain ⟨last, taken⟩ := parse_eq_ok_iff.mp matched
  have derives := derives_of_take taken
  obtain ⟨parts, tree⟩ := tree_of_derives (by decide) rfl derives
  have words : Words partNames ranking (· == .index) := by
    intro name is_index
    cases beq_iff_eq.mp is_index
    exact ⟨rfl, rfl⟩
  exact ⟨derives.nodes_derived ranking (.refl _), ⟨_, tree, rfl⟩,
    (derives.ascends partNames ranking words).sorted⟩

/-- The error of an oversized index points to its first digit. -/
theorem toSyntaxError_invalidIndex (source : String) (offset : Nat) :
    TreeError.toSyntaxError ⟨.invalidIndex, offset⟩ source =
      ⟨.other "invalid index", source, .after (source.toList.take offset)⟩ := by
  have remark : SyntaxError.Cause.ofRemark "invalid index" = .other "invalid index" := by decide
  rw [TreeError.toSyntaxError, SyntaxError.ofRemark, TreeError.remark, remark]

/-- An index does not fit in 64 bits, and this is its error in the text. -/
def OversizedAt (source : String) (index : Tree Phrase) (error : SyntaxError) : Prop :=
  UInt64.size ≤ indexValue index ∧
    error = ⟨.other "invalid index", source, .after (source.toList.take index.offset)⟩

/-- Parsing a text that matches reports on its indices. -/
theorem parse_reports {source : String} {trees : List (Tree Phrase)}
    (matched : Phrase.clause.parse source = .ok trees) :
    Reports (OversizedAt source) (fun _ => True) (indicesOf trees) (parse source) := by
  obtain ⟨derived, ⟨tree, rfl, is_clause⟩, -⟩ := tree_of_match matched
  have shaped : Shaped [tree] := fun node listed => shape_of_derived (derived node listed)
  have parse_eq : parse source = (Clause.ofTree tree).mapError (·.toSyntaxError source) := by
    rw [parse, matched]
    rfl
  rw [parse_eq]
  refine (clause_reports shaped is_clause).mapError fun index error => ?_
  constructor
  · rintro ⟨too_large, rfl⟩
    exact ⟨_, ⟨too_large, rfl⟩, (toSyntaxError_invalidIndex source index.offset).symm⟩
  · rintro ⟨inner, ⟨too_large, rfl⟩, rfl⟩
    exact ⟨too_large, toSyntaxError_invalidIndex source index.offset⟩

/-- **A text that matches fails for an oversized index only, and reports the leftmost one.**  The
error is that of an index which no oversized one stands before; it says that the index is invalid and
points to its first digit.  Every index is digits between brackets, in the path of a field, and those
of a condition stand before those of its message. -/
theorem parse_reports_leftmost_oversized_index {source : String} {trees : List (Tree Phrase)}
    (matched : Phrase.clause.parse source = .ok trees) :
    ((∃ error, parse source = .error error) ↔
        ∃ index ∈ indicesOf trees, UInt64.size ≤ indexValue index) ∧
      (∀ error, parse source = .error error ↔ ∃ index ∈ indicesOf trees,
        (UInt64.size ≤ indexValue index ∧
          error = ⟨.other "invalid index", source, .after (source.toList.take index.offset)⟩) ∧
        ∀ other ∈ indicesOf trees, UInt64.size ≤ indexValue other → index.offset ≤ other.offset) ∧
      (∀ index ∈ indicesOf trees, InPath source.toList trees index) ∧
      ∀ extended ∈ nodesOf trees, extended.name = .extended →
        ∃ condition message, extended.children = [condition, message] ∧
          ∀ first ∈ indicesOf [condition], ∀ second ∈ indicesOf [message],
            first.offset < second.offset := by
  obtain ⟨derived, ⟨tree, rfl, is_clause⟩, sorted⟩ := tree_of_match matched
  have reports := parse_reports matched
  have determined (index : Tree Phrase) (error another : SyntaxError)
      (oversized : OversizedAt source index error) (also : OversizedAt source index another) :
      error = another := oversized.2.trans also.2.symm
  refine ⟨?_, fun error => ?_, fun index listed => ?_, fun extended listed is_extended => ?_⟩
  · rw [reports.exists_error_iff]
    simp only [OversizedAt, exists_and_left, exists_eq, and_true]
  · rw [reports.eq_error_iff_least determined sorted]
    simp only [OversizedAt, and_imp, forall_eq_apply_imp_iff]
  · exact inPath_of_derived derived (by simpa using is_clause) listed
  · have shape := shape_of_derived (derived extended listed)
    rw [is_extended] at shape
    obtain ⟨condition, message, parts, -⟩ := shape
    have parts_sorted := sorted.sublist ((sublist_of_mem_nodesOf listed).filter _)
    change (indicesOf extended.children).Pairwise _ at parts_sorted
    rw [parts, indicesOf_cons, List.pairwise_append] at parts_sorted
    exact ⟨condition, message, parts, parts_sorted.2.2⟩

/-- A rule with an index too large in the condition, and another one in the message. -/
def twoOversized : String := "@:(a[0].b[18446744073709551616])$ > 1;msg:(c[99999999999999999999])$"

theorem parse_reports_index_of_condition :
    ∃ trees, Phrase.clause.parse twoOversized = .ok trees ∧
      (indicesOf trees).map (·.offset) = [5, 10, 45] ∧
      parse twoOversized = .error ⟨.other "invalid index", twoOversized, ⟨1, 11⟩⟩ := by
  have found : ((Phrase.clause.parse twoOversized).toOption.map fun trees =>
      (indicesOf trees).map fun index => (index.offset, indexValue index)) =
        some [(5, 0), (10, 18446744073709551616), (45, 99999999999999999999)] := by
    decide +kernel
  obtain ⟨trees, matched, indices⟩ := Option.map_eq_some_iff.mp found
  have matched := eq_ok_of_toOption_eq_some matched
  obtain ⟨first, rest, all, of_first, indices⟩ := List.map_eq_cons_iff.mp indices
  obtain ⟨second, rest, rfl, of_second, indices⟩ := List.map_eq_cons_iff.mp indices
  obtain ⟨third, rest, rfl, of_third, indices⟩ := List.map_eq_cons_iff.mp indices
  cases List.map_eq_nil_iff.mp indices
  simp only [Prod.mk.injEq] at of_first of_second of_third
  refine ⟨trees, matched, by simp [all, of_first, of_second, of_third], ?_⟩
  obtain ⟨-, errors, -⟩ := parse_reports_leftmost_oversized_index matched
  have position : Position.after (twoOversized.toList.take 10) = ⟨1, 11⟩ := by decide +kernel
  refine (errors _).mpr ⟨second, by simp [all], ⟨?_, ?_⟩, ?_⟩
  · rw [of_second.2]
  · rw [of_second.1, position]
  · rw [all]
    simp [of_first, of_second, of_third]

end Clause

end Proviso
