/- # Proviso.Proofs.Clause.Operators -- operators before and between operands

Where one operator is the start of another, the matcher tries the longer one first.  An operand
follows each operator, and none starts with the character that would make the operator longer. -/
import Proviso.Proofs.Clause.Constants

namespace Proviso

set_option autoImplicit false

namespace Phrase

open Grammar

variable {ahead : Form Phrase → Context → Cursor → Prop} {context : Context} {cursor : Cursor}
  {found : Found Phrase}

/-- The context in which blanks may stand and parts are reported. -/
abbrev free : Context := ⟨.free, .none⟩

/-! ## Between operands -/

/-- The operators in the order in which they are tried. -/
def binaryOperators : List Phrase :=
  [.or, .and, .eq, .ne, .le, .ge, .lt, .gt, .add, .sub, .mul, .div, .rem]

/-- The text of a phrase that is written in one way only. -/
def symbol (phrase : Phrase) : List Char :=
  match phrase.form with
  | .text chars => chars
  | _ => []

theorem form_binaryOperator :
    grammar.form .binaryOperator = .choices (binaryOperators.map .phrase) := rfl

theorem derives_binaryOperator :
    Derives grammar ahead (.phrase .binaryOperator) context cursor found ↔
      ∃ (place : Nat) (op : Phrase), binaryOperators[place]? = some op ∧
        Derives grammar ahead (.phrase op) context cursor found := by
  rw [derives_silent rfl, form_binaryOperator]
  exact derives_phrases (by decide)

theorem form_operator {op : Phrase} (is_operator : op ∈ binaryOperators) :
    op.form = .text op.symbol ∧ op.mode = .plain := by
  revert op
  simp only [binaryOperators, List.forall_mem_cons]
  exact ⟨⟨rfl, rfl⟩, ⟨rfl, rfl⟩, ⟨rfl, rfl⟩, ⟨rfl, rfl⟩, ⟨rfl, rfl⟩, ⟨rfl, rfl⟩, ⟨rfl, rfl⟩,
    ⟨rfl, rfl⟩, ⟨rfl, rfl⟩, ⟨rfl, rfl⟩, ⟨rfl, rfl⟩, ⟨rfl, rfl⟩, ⟨rfl, rfl⟩, by simp⟩

theorem symbol_ne_nil : ∀ op ∈ binaryOperators, op.symbol ≠ [] := by
  decide

/-- An operator that is tried before another one starts with another character, or is the other one
made longer. -/
theorem symbols_apart : ∀ place < 13, ∀ earlier < place, ∀ op ∈ binaryOperators[place]?,
    ∀ other ∈ binaryOperators[earlier]?,
      op.symbol.head? ≠ other.symbol.head? ∨ other.symbol = op.symbol ++ ['='] := by
  decide

theorem operator_symbol {op : Phrase} (is_operator : op ∈ binaryOperators)
    (derives : Derives grammar ahead (.phrase op) context cursor found) :
    cursor.rest = op.symbol ++ found.cursor.rest := by
  obtain ⟨inner, in_form, rfl⟩ := derives_phrase.mp derives
  rw [present_cursor]
  change Derives grammar ahead op.form (grammar.inside op context) cursor inner at in_form
  rw [(form_operator is_operator).1] at in_form
  obtain ⟨rest, here, rfl⟩ := derives_text.mp in_form
  exact here

theorem taken_operator_eq_none {op : Phrase} (is_operator : op ∈ binaryOperators)
    (differs : op.symbol.isPrefixOf cursor.rest = false) :
    grammar.taken (.phrase op) context cursor = none := by
  have form_eq : grammar.form op = .text op.symbol := (form_operator is_operator).1
  show grammar.take op context cursor = none
  rw [take_phrase ranking, form_eq]
  simp only [taken, takeForm, differs, Bool.false_eq_true, if_false, Option.map_none]

theorem finds_operator {op : Phrase} (is_operator : op ∈ binaryOperators)
    (derives : grammar.Derivable (.phrase op) context cursor found) :
    grammar.Finds (.phrase op) context cursor found := by
  obtain ⟨inner, in_form, rfl⟩ := derives_phrase.mp derives
  have form_eq : grammar.form op = .text op.symbol := (form_operator is_operator).1
  refine .phrase ranking ?_
  rw [form_eq] at in_form ⊢
  exact .text ranking in_form

/-- An operator is found as it is derived when no character follows that would make it longer. -/
theorem finds_binaryOperator
    (derives : grammar.Derivable (.phrase .binaryOperator) context cursor found)
    (ends : found.cursor.Lacks (· == '=')) :
    grammar.Finds (.phrase .binaryOperator) context cursor found := by
  obtain ⟨place, op, op_listed, in_op⟩ := derives_binaryOperator.mp derives
  have listed : (binaryOperators.map Form.phrase)[place]? = some (.phrase op) := by
    rw [List.getElem?_map, op_listed]
    rfl
  have is_operator := List.mem_of_getElem? op_listed
  have inside_list : place < 13 := (List.getElem?_eq_some_iff.mp op_listed).1
  have here := operator_symbol is_operator in_op
  refine .silent ranking rfl (.choices listed ?_ (finds_operator is_operator in_op))
  intro earlier before other other_listed
  rw [List.getElem?_map, Option.map_eq_some_iff] at other_listed
  obtain ⟨other, other_listed, rfl⟩ := other_listed
  have also_operator := List.mem_of_getElem? other_listed
  apply taken_operator_eq_none also_operator
  rw [here, Bool.eq_false_iff, ne_eq, List.isPrefixOf_iff_prefix]
  intro starts
  rcases symbols_apart place inside_list earlier before op op_listed other other_listed with
    apart | longer
  · apply apart
    obtain ⟨first, more, symbol_eq⟩ :=
      List.exists_cons_of_ne_nil (symbol_ne_nil op is_operator)
    obtain ⟨other_first, other_more, other_eq⟩ :=
      List.exists_cons_of_ne_nil (symbol_ne_nil other also_operator)
    rw [symbol_eq, other_eq] at starts ⊢
    rw [(List.cons_prefix_cons.mp starts).1]
    rfl
  · rw [longer, List.prefix_append_right_inj] at starts
    obtain ⟨tail, tail_eq⟩ := starts
    have equals := ends '=' (by rw [← tail_eq]; rfl)
    cases equals

/-! ## Before operands -/

theorem finds_unaryOperator
    (derives : grammar.Derivable (.phrase .unaryOperator) context cursor found) :
    grammar.Finds (.phrase .unaryOperator) context cursor found := by
  refine .silent ranking rfl ?_
  rcases derives_choice.mp ((derives_silent rfl).mp derives) with not | neg
  · obtain ⟨inner, in_text, rfl⟩ := derives_phrase.mp not
    exact .choice_first (.phrase ranking (.text ranking in_text))
  · obtain ⟨c, here, starts⟩ := firsts.starts_of_derives rfl neg
    have is_minus : c = '-' := beq_iff_eq.mp starts
    subst is_minus
    have no_not : grammar.taken (.phrase .not) context cursor = none :=
      firsts.take_eq_none rfl (Cursor.lacks_of_head here rfl)
    obtain ⟨inner, in_text, rfl⟩ := derives_phrase.mp neg
    exact .choice_second no_not (.phrase ranking (.text ranking in_text))

/-- Prefix operators are found from the first character on that is no blank, up to their operand. -/
theorem finds_prefixes {start stop : Cursor} {c : Char}
    (to_cursor : grammar.Blanks free start cursor)
    (derives : grammar.Derivable (.many (.phrase .unaryOperator)) free cursor found)
    (blanks : grammar.Blanks free found.cursor stop) (here : stop.rest.head? = some c)
    (operand : isPrimaryStart c = true) :
    ∃ other, grammar.Finds (.many (.phrase .unaryOperator)) free (grammar.skipBlanks free start)
      other ∧ other.trees = found.trees ∧ grammar.skipBlanks free other.cursor = stop := by
  obtain ⟨not_blank, not_prefix, -⟩ := primaryStart_apart operand
  have arrives := blanks.eq_skipBlanks (Cursor.lacks_of_head here not_blank)
  have stops : grammar.taken (.phrase .unaryOperator) free stop = none :=
    firsts.take_eq_none rfl (Cursor.lacks_of_head here not_prefix)
  have again (cursor : Cursor) (found : Found Phrase)
      (derives : grammar.Derivable (.phrase .unaryOperator) free cursor found) :
      True ∧ grammar.skipBlanks free cursor = cursor := by
    obtain ⟨c, here, starts⟩ := firsts.starts_of_derives rfl derives
    exact ⟨trivial, skipBlanks_of_lacks free
      (Cursor.lacks_of_head here (prefixStart_apart starts).1)⟩
  rw [arrives] at stops ⊢
  exact (Finds.many_free ranking rfl (fun _ _ _ derives _ => finds_unaryOperator derives) again
    to_cursor (Nat.le_refl _) derives trivial stops).2

end Phrase

end Proviso
