/- # Proviso.Proofs.Clause.Meaning -- what a tree means does not depend on blanks

An expression is read off the names in a tree and off the texts of words, numbers and quoted texts.
Where a phrase stands does not matter, and neither does the text of a phrase that blanks may stand
in.  So trees that are alike in the rest (`Alike`) stand for the same expression, or for none, if
they are legible, as derivable trees are.  A tree is alike to what is known of it up to blanks. -/
import Proviso.Clause.Parse
import Proviso.Proofs.FirstFault
import Proviso.Proofs.Grammar.Nodes

namespace Proviso

set_option autoImplicit false

theorem toOption_bind {ε α β : Type} (answer : Except ε α) (next : α → Except ε β) :
    (answer >>= next).toOption = answer.toOption.bind fun value => (next value).toOption := by
  cases answer <;> rfl

theorem eq_ok_of_toOption_eq_some {ε α : Type} {answer : Except ε α} {value : α}
    (came : answer.toOption = some value) : answer = .ok value := by
  cases answer with
  | error error => cases came
  | ok other =>
    cases came
    rfl

namespace Phrase

open Grammar

/-! ## Trees whose texts are read as they are -/

/-- The phrases whose first part is read as text. -/
def quotesPart : Phrase → Bool
  | .call | .string | .fieldAccess | .indexAccess => true
  | _ => false

theorem quotesPart_bound (name : Phrase) : name.quotesPart = true → name.mode ≠ .atomic := by
  cases name <;> decide

mutual

/-- Blanks may not stand in the parts that are read as text. -/
def Legible : Tree Phrase → Prop
  | .node name _ _ children =>
    (name.quotesPart = true → ∀ part ∈ children.head?, part.name.mode ≠ .plain) ∧
      AllLegible children

def AllLegible : List (Tree Phrase) → Prop
  | [] => True
  | tree :: rest => Legible tree ∧ AllLegible rest

end

/-! ## Trees that are alike -/

mutual

/-- The names in two trees are the same, and so are the texts that no blanks may stand in. -/
def Alike : Tree Phrase → Tree Phrase → Prop
  | .node name _ text children, .node name' _ text' children' =>
    name' = name ∧ (name.mode ≠ .plain → text' = text) ∧ AllAlike children children'

def AllAlike : List (Tree Phrase) → List (Tree Phrase) → Prop
  | [], [] => True
  | tree :: rest, tree' :: rest' => Alike tree tree' ∧ AllAlike rest rest'
  | [], _ :: _ | _ :: _, [] => False

end

theorem AllAlike.append : ∀ {first first' second second' : List (Tree Phrase)},
    AllAlike first first' → AllAlike second second' → AllAlike (first ++ second) (first' ++ second')
  | [], [], _, _, _, alike => alike
  | _ :: _, _ :: _, _, _, ⟨head, tail⟩, alike => ⟨head, tail.append alike⟩

theorem Alike.text_eq {tree tree' : Tree Phrase} (alike : Alike tree tree')
    (bound : tree.name.mode ≠ .plain) : tree'.text = tree.text := by
  obtain ⟨name, offset, text, children⟩ := tree
  obtain ⟨name', offset', text', children'⟩ := tree'
  exact alike.2.1 bound

theorem Alike.name_eq {tree tree' : Tree Phrase} (alike : Alike tree tree') :
    tree'.name = tree.name := by
  obtain ⟨name, offset, text, children⟩ := tree
  obtain ⟨name', offset', text', children'⟩ := tree'
  exact alike.1

theorem Alike.children {tree tree' : Tree Phrase} (alike : Alike tree tree') :
    AllAlike tree.children tree'.children := by
  obtain ⟨name, offset, text, children⟩ := tree
  obtain ⟨name', offset', text', children'⟩ := tree'
  exact alike.2.2

mutual

/-- A tree is alike to the one without the blanks at the ends of its texts. -/
theorem alike_trimTree : ∀ tree : Tree Phrase, Alike tree (grammar.trimTree tree)
  | .node name offset text children => by
    unfold trimTree
    split
    · rename_i plain
      exact ⟨rfl, fun bound => absurd plain bound, alike_trimTrees children⟩
    · exact ⟨rfl, fun _ => rfl, alike_trimTrees children⟩

theorem alike_trimTrees : ∀ trees : List (Tree Phrase), AllAlike trees (grammar.trimTrees trees)
  | [] => trivial
  | tree :: rest => ⟨alike_trimTree tree, alike_trimTrees rest⟩

end

/-! ## Paths -/

theorem readIndex_alike {tree tree' : Tree Phrase} (alike : Alike tree tree')
    (bound : tree.name.mode ≠ .plain) :
    (readIndex tree').toOption = (readIndex tree).toOption := by
  simp only [readIndex, alike.text_eq bound]
  split <;> rfl

theorem readStep_alike {tree tree' : Tree Phrase} (legible : Legible tree)
    (alike : Alike tree tree') : (readStep tree').toOption = (readStep tree).toOption := by
  obtain ⟨name, offset, text, children⟩ := tree
  obtain ⟨name', offset', text', children'⟩ := tree'
  obtain ⟨rfl, same_text, same_parts⟩ := alike
  match children, children', same_parts with
  | [], [], _ =>
    cases name'
    case ident => rw [same_text (by decide)]; rfl
    all_goals rfl
  | part :: rest, part' :: rest', ⟨same_part, _⟩ =>
    have bound (quotes : name'.quotesPart = true) : part.name.mode ≠ .plain :=
      legible.1 quotes part rfl
    cases name'
    case fieldAccess => simp only [readStep, same_part.text_eq (bound rfl)]
    case indexAccess => simp only [readStep, toOption_bind, readIndex_alike same_part (bound rfl)]
    case ident => rw [same_text (by decide)]; rfl
    all_goals rfl

theorem readSteps_alike : ∀ {trees trees' : List (Tree Phrase)}, AllLegible trees →
    AllAlike trees trees' → (trees'.mapM readStep).toOption = (trees.mapM readStep).toOption
  | [], [], _, _ => rfl
  | tree :: rest, tree' :: rest', legible, alike => by
    rw [List.mapM_cons, List.mapM_cons]
    simp only [toOption_bind, readStep_alike legible.1 alike.1,
      readSteps_alike legible.2 alike.2]

/-! ## Expressions -/

theorem ofLeaf_alike {phrase : Phrase} {offset offset' : Nat} {text text' : List Char}
    {children children' : List (Tree Phrase)}
    (legible : Legible (.node phrase offset text children))
    (alike : Alike (.node phrase offset text children) (.node phrase offset' text' children')) :
    (Expr.ofLeaf phrase offset' text' children').toOption =
      (Expr.ofLeaf phrase offset text children).toOption := by
  obtain ⟨-, same_text, same_parts⟩ := alike
  cases phrase
  case boolean =>
    rw [same_text (by decide)]
    simp only [Expr.ofLeaf]
    split
    · rfl
    · split <;> rfl
  case integer | float =>
    rw [same_text (by decide)]
    simp only [Expr.ofLeaf]
    split <;> rfl
  case string =>
    match children, children', same_parts with
    | [], [], _ => rfl
    | body :: rest, body' :: rest', ⟨same_body, _⟩ =>
      have bound : body.name.mode ≠ .plain := legible.1 rfl body rfl
      simp only [Expr.ofLeaf, same_body.text_eq bound]
  case sibling =>
    match children, children', same_parts with
    | [], [], _ => rfl
    | path :: rest, path' :: rest', ⟨same_path, _⟩ =>
      have legible_steps : AllLegible path.children := by
        obtain ⟨-, legible_path, -⟩ := legible
        obtain ⟨name, path_offset, path_text, steps⟩ := path
        exact legible_path.2
      simp only [Expr.ofLeaf, toOption_bind, readSteps_alike legible_steps same_path.children]
  all_goals rfl

theorem ofTree_leaf {name : Phrase} (offset : Nat) (text : List Char)
    (children : List (Tree Phrase)) (inner : name ≠ .expression ∧ name ≠ .grouped ∧ name ≠ .call) :
    Expr.ofTree (.node name offset text children) = Expr.ofLeaf name offset text children := by
  obtain ⟨no_expression, no_group, no_call⟩ := inner
  cases name
  case expression => exact absurd rfl no_expression
  case grouped => exact absurd rfl no_group
  case call => exact absurd rfl no_call
  all_goals rfl

mutual

/-- Trees that are alike stand for the same expression, if for any. -/
theorem ofTree_alike : ∀ {tree tree' : Tree Phrase}, Legible tree → Alike tree tree' →
    (Expr.ofTree tree').toOption = (Expr.ofTree tree).toOption
  | .node name offset text children, .node _ offset' text' children', legible,
      ⟨rfl, same_text, same_parts⟩ => by
    by_cases inner : name ≠ .expression ∧ name ≠ .grouped ∧ name ≠ .call
    · rw [ofTree_leaf _ _ _ inner, ofTree_leaf _ _ _ inner]
      exact ofLeaf_alike legible ⟨rfl, same_text, same_parts⟩
    · cases name
      case expression =>
        rw [Expr.ofTree, Expr.ofTree, toOption_bind, toOption_bind,
          itemsOfTrees_alike legible.2 same_parts]
        congr 1
        funext items
        split <;> rfl
      case grouped =>
        match children, children', same_parts with
        | [], [], _ => rfl
        | tree :: rest, tree' :: rest', ⟨same_tree, _⟩ =>
          show (Expr.ofTree tree').toOption = (Expr.ofTree tree).toOption
          exact ofTree_alike legible.2.1 same_tree
      case call =>
        match children, children', same_parts with
        | [], [], _ => rfl
        | part :: args, part' :: args', ⟨same_part, same_args⟩ =>
          rw [Expr.ofTree, Expr.ofTree, toOption_bind, toOption_bind,
            ofTrees_alike legible.2.2 same_args, same_part.text_eq (legible.1 rfl part rfl)]
      all_goals exact absurd (by decide) inner

theorem ofTrees_alike : ∀ {trees trees' : List (Tree Phrase)}, AllLegible trees →
    AllAlike trees trees' → (Expr.ofTrees trees').toOption = (Expr.ofTrees trees).toOption
  | [], [], _, _ => rfl
  | tree :: rest, tree' :: rest', legible, alike => by
    rw [Expr.ofTrees, Expr.ofTrees]
    simp only [toOption_bind, ofTree_alike legible.1 alike.1, ofTrees_alike legible.2 alike.2]

theorem itemsOfTrees_alike : ∀ {trees trees' : List (Tree Phrase)}, AllLegible trees →
    AllAlike trees trees' →
      (Expr.itemsOfTrees trees').toOption = (Expr.itemsOfTrees trees).toOption
  | [], [], _, _ => rfl
  | .node name offset text children :: rest, .node _ offset' text' children' :: rest', legible,
      ⟨⟨rfl, same_text, same_parts⟩, same_rest⟩ => by
    have same_tree := @ofTree_alike (.node name offset text children)
      (.node name offset' text' children') legible.1 ⟨rfl, same_text, same_parts⟩
    rw [Expr.itemsOfTrees, Expr.itemsOfTrees]
    split
    · simp only [toOption_bind, itemsOfTrees_alike legible.2 same_rest]
    · simp only [toOption_bind, itemsOfTrees_alike legible.2 same_rest]
    · simp only [toOption_bind, same_tree, itemsOfTrees_alike legible.2 same_rest]

end

/-- What a legible tree stands for, every tree that is alike stands for. -/
theorem ofTree_eq_ok_of_alike {tree tree' : Tree Phrase} {expr : Expr} (legible : Legible tree)
    (alike : Alike tree tree') (read : Expr.ofTree tree = .ok expr) :
    Expr.ofTree tree' = .ok expr := by
  refine eq_ok_of_toOption_eq_some ?_
  rw [ofTree_alike legible alike, read]
  rfl

/-- The same holds for clauses. -/
theorem clause_alike : ∀ {tree tree' : Tree Phrase}, Legible tree → Alike tree tree' →
    (Clause.ofTree tree').toOption = (Clause.ofTree tree).toOption
  | .node _ _ _ [], .node _ _ _ [], _, _ => rfl
  | .node _ _ _ (.node inner inner_offset inner_text parts :: _),
      .node _ _ _ (.node _ inner_offset' inner_text' parts' :: _), legible,
      ⟨_, _, ⟨⟨rfl, same_text, same_parts⟩, _⟩⟩ => by
    by_cases extended : inner = .extended
    · subst extended
      obtain ⟨-, ⟨-, legible_parts⟩, -⟩ := legible
      match parts, parts', same_parts with
      | [], [], _ => rfl
      | [_], [_], _ => rfl
      | condition :: message :: rest, condition' :: message' :: rest',
          ⟨same_condition, same_message, _⟩ =>
        simp only [Clause.ofTree, toOption_bind, ofTree_alike legible_parts.1 same_condition,
          ofTree_alike legible_parts.2.1 same_message]
    · have same_tree := @ofTree_alike (.node inner inner_offset inner_text parts)
        (.node inner inner_offset' inner_text' parts') legible.2.1 ⟨rfl, same_text, same_parts⟩
      rw [Clause.ofTree, Clause.ofTree]
      · simp only [toOption_bind, same_tree]
      all_goals simp [extended]

/-- A clause is known by its tree up to blanks. -/
theorem clause_trimTree {tree : Tree Phrase} (legible : Legible tree) :
    (Clause.ofTree (grammar.trimTree tree)).toOption = (Clause.ofTree tree).toOption :=
  clause_alike legible (alike_trimTree tree)

/-! ## Derivable trees are legible -/

theorem allLegible_append {first second : List (Tree Phrase)} (legible : AllLegible first)
    (legible' : AllLegible second) : AllLegible (first ++ second) := by
  induction first with
  | nil => exact legible'
  | cons tree rest ih => exact ⟨legible.1, ih legible.2⟩

section Derivations

variable {ahead : Form Phrase → Context → Cursor → Prop} {context : Context} {cursor : Cursor}
  {found : Found Phrase}

/-- A phrase whose first part is read as text has a word, a number or a quoted text as that part. -/
theorem quoted_part {name : Phrase} (quotes : name.quotesPart = true)
    (node : isNode context = true)
    (derives : Derives grammar ahead name.form context cursor found) :
    ∀ part ∈ found.trees.head?, part.name.mode ≠ .plain := by
  have of_first {part : Phrase} {next : Found Phrase} {more : List (Tree Phrase)}
      {start : Cursor} (atomic : part.mode = .atomic)
      (in_part : Derives grammar ahead (.phrase part) context start next)
      (trees : found.trees = next.trees ++ more) :
      ∀ part ∈ found.trees.head?, part.name.mode ≠ .plain := by
    have named : grammar.mode part ≠ .silent := by
      rw [show grammar.mode part = .atomic from atomic]
      decide
    obtain ⟨children, nodes⟩ := tree_of_derives named node in_part
    intro other first
    rw [trees, nodes] at first
    cases first
    show part.mode ≠ .plain
    rw [atomic]
    decide
  cases name <;> try cases quotes
  case call =>
    obtain ⟨part, _, next, in_part, -, -, rfl⟩ := derives_seq.mp derives
    exact of_first rfl in_part rfl
  case fieldAccess =>
    obtain ⟨_, _, part, in_dot, -, in_part, rfl⟩ := derives_seq.mp derives
    obtain ⟨rest, -, rfl⟩ := derives_text.mp in_dot
    exact of_first rfl in_part (List.append_nil part.trees).symm
  case indexAccess =>
    obtain ⟨_, _, _, in_opening, -, in_rest, rfl⟩ := derives_seq.mp derives
    obtain ⟨rest, -, rfl⟩ := derives_text.mp in_opening
    obtain ⟨part, _, next, in_part, -, -, rfl⟩ := derives_seq.mp in_rest
    exact of_first rfl in_part rfl
  case string =>
    rcases derives_choice.mp derives with single | double
    · obtain ⟨_, _, _, in_opening, -, in_rest, rfl⟩ := derives_seq.mp single
      obtain ⟨rest, -, rfl⟩ := derives_text.mp in_opening
      obtain ⟨part, _, next, in_part, -, -, rfl⟩ := derives_seq.mp in_rest
      exact of_first rfl in_part rfl
    · obtain ⟨_, _, _, in_opening, -, in_rest, rfl⟩ := derives_seq.mp double
      obtain ⟨rest, -, rfl⟩ := derives_text.mp in_opening
      obtain ⟨part, _, next, in_part, -, -, rfl⟩ := derives_seq.mp in_rest
      exact of_first rfl in_part rfl

mutual

theorem legible_of_derives {form : Form Phrase} {context : Context} {cursor : Cursor}
    {found : Found Phrase} : Derives grammar ahead form context cursor found →
      AllLegible found.trees
  | .text _ | .textAnyCase _ _ | .char _ _ | .startOfInput _ | .endOfInput _ | .omitted | .noRound
  | .notAhead _ => trivial
  | @Derives.phrase _ _ _ name context cursor found inner => by
    have legible := legible_of_derives inner
    rcases present_cases name context cursor found with ⟨same, -⟩ | ⟨node, -, visible⟩
    · rwa [same]
    · have quoted (quotes : name.quotesPart = true) :=
        quoted_part quotes (visible.resolve_left (quotesPart_bound name quotes)) inner
      rw [node]
      exact ⟨⟨quoted, legible⟩, trivial⟩
  | .seq front _ back => allLegible_append (legible_of_derives front) (legible_of_derives back)
  | .first inner | .second inner | .given inner => legible_of_derives inner
  | .rounds inner => legible_of_rounds inner

theorem legible_of_rounds {form : Form Phrase} {context : Context} {cursor : Cursor}
    {found : Found Phrase} : Rounds grammar ahead form context cursor found →
      AllLegible found.trees
  | .last inner => legible_of_derives inner
  | .more front _ back => allLegible_append (legible_of_derives front) (legible_of_rounds back)

end

end Derivations

end Phrase

end Proviso
