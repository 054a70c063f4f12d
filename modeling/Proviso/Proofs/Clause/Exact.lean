/- # Proviso.Proofs.Clause.Exact -- the matcher reads exactly the grammar

The preferences of the matcher, the first alternative that works and the longest repetition, cost no
text and no reading.  What it takes is derivable (`derivable_of_take_phrase`): its looks ahead are for
single characters, and one that finds nothing has nothing to find.  What is derivable it finds
(`finds_clause`), so a text is accepted exactly when it is derivable, and all its derivations have
the tree that the matcher gives, up to blanks (`parse_clause_iff_derivable`). -/
import Proviso.Proofs.Clause.Complete

namespace Proviso

set_option autoImplicit false

namespace Phrase

open Grammar

variable {context : Context} {cursor : Cursor} {found : Found Phrase}

/-! ## Looks ahead -/

/-- The grammar looks ahead for a character that continues a name, or for one that a quoted text
does not hold as it is. -/
theorem look_cases {phrase : Phrase} {look : Form Phrase} (listed : look ∈ phrase.form.looks) :
    look = .phrase .identChar ∨
      ∃ quote, look = .choice (.text [quote]) (.text ['\\']) := by
  cases phrase <;>
    simp only [form, literally, digits, quotedBody, Form.atLeastOnce, Form.seqs, Form.choices,
      Form.looks, List.map_cons, List.map_nil, List.nil_append, List.append_nil, List.not_mem_nil,
      List.mem_singleton] at listed
  case nil | boolean | integer => exact .inl listed
  case singleQuoted => exact .inr ⟨'\'', listed⟩
  case doubleQuoted => exact .inr ⟨'"', listed⟩

/-- A look ahead that takes nothing has nothing to find. -/
theorem not_ahead_of_taken_eq_none {phrase : Phrase} {look : Form Phrase}
    (listed : look ∈ phrase.form.looks) (nothing : grammar.taken look context cursor = none) :
    ¬ grammar.Ahead look context cursor := by
  rintro ⟨found, derives⟩
  rcases look_cases listed with rfl | ⟨quote, rfl⟩
  · exact (finds_identChar derives).ne_none nothing
  · simp only [taken, takeForm, Option.or_eq_none_iff] at nothing
    rcases derives_choice.mp derives with is_quote | is_backslash
    · exact (Finds.text ranking is_quote).ne_none nothing.1
    · exact (Finds.text ranking is_backslash).ne_none nothing.2

/-! ## Accepted texts -/

theorem derivable_of_take_phrase {phrase : Phrase}
    (taken : grammar.take phrase context cursor = some found) :
    grammar.Derivable (.phrase phrase) context cursor found :=
  derivable_of_take ranking (fun _ _ listed _ _ => not_ahead_of_taken_eq_none listed) taken

/-- What is found is derivable as a phrase from the start of a text, by the grammar read without
preferences.  A clause ends where its text does. -/
def Derivable (phrase : Phrase) (source : String) (found : Found Phrase) : Prop :=
  grammar.Derivable (.phrase phrase) free ⟨source.toList, 0⟩ found

/-- **The matcher accepts exactly the derivable texts, and reads them as they are derived.**  A text
has trees exactly when it is derivable as a clause.  The trees that the matcher gives are those of a
derivation, and every derivation of the text has the same trees, up to the blanks at the ends of the
texts of phrases. -/
theorem parse_clause_iff_derivable (source : String) :
    ((∃ trees, Phrase.clause.parse source = .ok trees) ↔
        ∃ found, Phrase.clause.Derivable source found) ∧
      (∀ trees, Phrase.clause.parse source = .ok trees →
        ∃ last, Phrase.clause.Derivable source ⟨trees, last⟩) ∧
      ∀ found, Phrase.clause.Derivable source found →
        ∃ trees, Phrase.clause.parse source = .ok trees ∧
          grammar.trimTrees trees = grammar.trimTrees found.trees := by
  have sound (trees : List (Tree Phrase)) (parsed : Phrase.clause.parse source = .ok trees) :
      ∃ last, Phrase.clause.Derivable source ⟨trees, last⟩ := by
    obtain ⟨last, taken⟩ := parse_eq_ok_iff.mp parsed
    exact ⟨last, derivable_of_take_phrase taken⟩
  have complete (found : Found Phrase) (derives : Phrase.clause.Derivable source found) :
      ∃ trees, Phrase.clause.parse source = .ok trees ∧
        grammar.trimTrees trees = grammar.trimTrees found.trees := by
    obtain ⟨-, ⟨trees, last⟩, taken, -, same⟩ := finds_clause derives
    exact ⟨trees, parse_eq_ok_iff.mpr ⟨last, taken⟩, same⟩
  refine ⟨⟨?_, ?_⟩, sound, complete⟩
  · rintro ⟨trees, parsed⟩
    obtain ⟨last, derives⟩ := sound trees parsed
    exact ⟨_, derives⟩
  · rintro ⟨found, derives⟩
    obtain ⟨trees, parsed, -⟩ := complete found derives
    exact ⟨trees, parsed⟩

end Phrase

end Proviso
