/- # Proviso.Clause.Parse -- clauses from text

A text is a clause when the grammar matches all of it and every index in it fits in 64 bits.  The
first error is the answer: a failed match before anything else, then the leftmost index, those of
the condition before those of the message. -/
import Proviso.Clause.SyntaxError
import Proviso.Expr.OfTree

namespace Proviso

set_option autoImplicit false

namespace TreeError

/-- The error as an error of the text that the tree was read from. -/
def toSyntaxError (error : TreeError) (source : String) : SyntaxError :=
  .ofRemark source error.offset error.remark

end TreeError

namespace SyntaxError

/-- The error of a failed match: the phrases on record, in declaration order and each once. -/
def ofFailures (source : String) (failures : Failures Phrase) : SyntaxError :=
  let ordered (names : List Phrase) := Phrase.all.filter (· ∈ names)
  .ofFailure source failures.offset (ordered failures.expected) (ordered failures.unwanted)

end SyntaxError

/-- The trees of a phrase that starts a text; it need not take all of the text. -/
def Phrase.parse (phrase : Phrase) (source : String) :
    Except SyntaxError (List (Tree Phrase)) :=
  match Phrase.grammar.read phrase source.toList with
  | (some found, _) => .ok found.trees
  | (none, failures) => .error (.ofFailures source failures)

namespace Clause

def ofTree : Tree Phrase → Except TreeError Clause
  | .node _ _ _ (.node .extended _ _ (condition :: message :: _) :: _) =>
    return ⟨← Expr.ofTree condition, some (← Expr.ofTree message)⟩
  | .node _ _ _ (.node .extended offset _ _ :: _) => throw ⟨.incomplete, offset⟩
  | .node _ _ _ (condition :: _) => return ⟨← Expr.ofTree condition, none⟩
  | .node _ offset _ [] => throw ⟨.incomplete, offset⟩

def parse (source : String) : Except SyntaxError Clause := do
  match ← Phrase.clause.parse source with
  | tree :: _ => (ofTree tree).mapError (·.toSyntaxError source)
  | [] => throw (TreeError.toSyntaxError ⟨.incomplete, 0⟩ source)

end Clause

end Proviso
