/- # Proviso.Clause.SyntaxError -- why a text is no clause

A syntax error has a place in the text and a cause: something else was expected there, a number or
an index cannot be represented, or a phrase has no meaning on its own. -/
import Proviso.Grammar.Clause
import Proviso.Text.Position

namespace Proviso

set_option autoImplicit false

/-- What kind of text could have stood at a place. -/
inductive Expectation where
  | literal
  | selector
  | identifier
  | operator
  | endOfInput
  | expression
  deriving DecidableEq, Repr

def Expectation.label : Expectation → String
  | .literal => "literal"
  | .selector => "selector"
  | .identifier => "identifier"
  | .operator => "operator"
  | .endOfInput => "end of input"
  | .expression => "expression"

def Phrase.expectation : Phrase → Expectation
  | .integer | .float | .boolean | .string | .nil => .literal
  | .current | .sibling => .selector
  | .ident | .fieldPath => .identifier
  | .or | .and | .eq | .ne | .le | .ge | .lt | .gt | .add | .sub | .mul | .div | .rem => .operator
  | .endOfInput => .endOfInput
  | _ => .expression

inductive Finding where
  | unwanted (phrase : Phrase)
  | char (c : Char)
  | endOfInput
  deriving DecidableEq, Repr

def Finding.label : Finding → String
  | .unwanted phrase => phrase.label
  | .char c => String.ofList ['\'', c, '\'']
  | .endOfInput => "end of input"

/-- The words joined by commas, the last one by "or". -/
def alternatives : List String → String
  | [] => "something else"
  | [last] => last
  | words => ", ".intercalate words.dropLast ++ " or " ++ words.getLastD ""

inductive SyntaxError.Cause where
  | unexpected (expected : List Expectation) (found : Finding)
  | invalidNumber (text : String)
  | other (text : String)
  deriving DecidableEq, Repr

/-- Why and where a text is no clause. -/
structure SyntaxError where
  cause : SyntaxError.Cause
  /-- The whole text. -/
  source : String
  position : Position
  deriving DecidableEq, Repr

namespace SyntaxError

def Cause.message : Cause → String
  | .unexpected expected found =>
    "expected " ++ alternatives (expected.map Expectation.label) ++ ", found " ++ found.label
  | .invalidNumber text => "invalid number literal '" ++ text ++ "'"
  | .other text => text

def message (error : SyntaxError) : String :=
  "syntax error in `" ++ error.source ++ "` at " ++ toString error.position.line ++ ":" ++
    toString error.position.column ++ ": " ++ error.cause.message

/-- Each value at its first occurrence. -/
def distinct {α : Type} [DecidableEq α] (values : List α) : List α :=
  values.foldl (fun seen value => if value ∈ seen then seen else seen ++ [value]) []

/-- What stands at a place: an unwanted phrase if there is one, else a character or the end. -/
def findingAt (source : List Char) (offset : Nat) (unwanted : List Phrase) : Finding :=
  match unwanted, source[offset]? with
  | phrase :: _, _ => .unwanted phrase
  | [], some c => .char c
  | [], none => .endOfInput

def ofFailure (source : String) (offset : Nat) (expected unwanted : List Phrase) : SyntaxError :=
  let chars := source.toList
  ⟨.unexpected (distinct (expected.map Phrase.expectation)) (findingAt chars offset unwanted),
    source, .after (chars.take offset)⟩

/-- Drops a character from both ends as often as it stands there. -/
def strip (c : Char) (text : List Char) : List Char :=
  ((text.dropWhile (· == c)).reverse.dropWhile (· == c)).reverse

/-- The cause that a remark stands for: remarks on numbers name the number, quoted or not. -/
def Cause.ofRemark (remark : String) : Cause :=
  let lead := "invalid number literal ".toList
  if lead.isPrefixOf remark.toList then
    .invalidNumber (String.ofList (strip '\'' (remark.toList.drop lead.length)))
  else .other remark

def ofRemark (source : String) (offset : Nat) (remark : String) : SyntaxError :=
  ⟨.ofRemark remark, source, .after (source.toList.take offset)⟩

end SyntaxError

end Proviso
