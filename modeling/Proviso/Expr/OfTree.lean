/- # Proviso.Expr.OfTree -- expressions from phrases

The tree of phrases that the matcher finds becomes an expression.  Of what the grammar lets through,
only an index too large for 64 bits has no meaning; the other errors arise for trees that no match
of a clause produces. -/
import Proviso.Expr.Chain
import Proviso.Grammar.Clause

namespace Proviso

set_option autoImplicit false

inductive TreeError.Cause where
  | invalidIndex
  | invalidNumber (text : List Char)
  | invalidBoolean
  | unhandled (phrase : Phrase)
  | unexpectedStep
  | incomplete

/-- Why a tree of phrases is no expression, and where in the text. -/
structure TreeError where
  cause : TreeError.Cause
  offset : Nat

namespace TreeError

def remark (error : TreeError) : String :=
  match error.cause with
  | .invalidIndex => "invalid index"
  | .invalidNumber text => "invalid number literal '" ++ String.ofList text ++ "'"
  | .invalidBoolean => "invalid boolean literal"
  | .unhandled phrase => "Unhandled rule: " ++ phrase.label
  | .unexpectedStep => "unexpected token in field path"
  | .incomplete => "missing expected pair in rule"

end TreeError

/-- The text that stands between quotes with its escapes resolved.  An unknown escape stands for
itself, backslash included, so that patterns need not double their backslashes. -/
def unescape : List Char → List Char
  | '\\' :: 'n' :: rest => '\n' :: unescape rest
  | '\\' :: 't' :: rest => '\t' :: unescape rest
  | '\\' :: 'r' :: rest => '\r' :: unescape rest
  | '\\' :: '\'' :: rest => '\'' :: unescape rest
  | '\\' :: '"' :: rest => '"' :: unescape rest
  | '\\' :: '\\' :: rest => '\\' :: unescape rest
  | '\\' :: other :: rest => '\\' :: other :: unescape rest
  | c :: rest => c :: unescape rest
  | [] => []

namespace Phrase

def unaryOperator? : Phrase → Option UnaryOperator
  | .neg => some .neg
  | .not => some .not
  | _ => none

def binaryOperator? : Phrase → Option BinaryOperator
  | .or => some (.connective .or)
  | .and => some (.connective .and)
  | .eq => some (.comparison .eq)
  | .ne => some (.comparison .ne)
  | .le => some (.comparison .le)
  | .ge => some (.comparison .ge)
  | .lt => some (.comparison .lt)
  | .gt => some (.comparison .gt)
  | .add => some (.arithmetic .add)
  | .sub => some (.arithmetic .sub)
  | .mul => some (.arithmetic .mul)
  | .div => some (.arithmetic .div)
  | .rem => some (.arithmetic .rem)
  | _ => none

end Phrase

/-- The integer of 64 bits that digits write, if they write one.  No sign is read. -/
def readInt64? (text : List Char) : Option Int64 :=
  let value := Nat.ofDigitChars 10 text 0
  if !text.isEmpty && text.all Char.isDigit && value < 0x8000000000000000 then some (.ofNat value)
  else none

/-- What is no integer of 64 bits is read as a double. -/
def Literal.ofNumeral? (text : List Char) : Option Literal :=
  match readInt64? text with
  | some value => some (.int value)
  | none => (Binary64.readDigits? .double false text).map .float

/-- Indices fit in 64 bits. -/
def readIndex (tree : Tree Phrase) : Except TreeError Nat :=
  let value := Nat.ofDigitChars 10 tree.text 0
  if value < UInt64.size then .ok value else .error ⟨.invalidIndex, tree.offset⟩

def readStep : Tree Phrase → Except TreeError PathStep
  | .node .ident _ text _ => .ok (.field (String.ofList text))
  | .node .fieldAccess _ _ (ident :: _) => .ok (.field (String.ofList ident.text))
  | .node .indexAccess _ _ (index :: _) => return .index (← readIndex index)
  | .node .fieldAccess offset _ [] | .node .indexAccess offset _ [] => .error ⟨.incomplete, offset⟩
  | .node _ offset _ _ => .error ⟨.unexpectedStep, offset⟩

namespace Expr

/-- The expression of a phrase that has no expressions among its parts. -/
def ofLeaf (phrase : Phrase) (offset : Nat) (text : List Char) (children : List (Tree Phrase)) :
    Except TreeError Expr :=
  match phrase with
  | .current => .ok .current
  | .nil => .ok (.literal .nil)
  | .boolean =>
    if text = "true".toList then .ok (.literal (.bool true))
    else if text = "false".toList then .ok (.literal (.bool false))
    else .error ⟨.invalidBoolean, offset⟩
  | .integer =>
    match Literal.ofNumeral? text with
    | some value => .ok (.literal value)
    | none => .error ⟨.invalidNumber text, offset⟩
  | .float =>
    match Binary64.readDigits? .double false text with
    | some value => .ok (.literal (.float value))
    | none => .error ⟨.invalidNumber text, offset⟩
  | .string =>
    match children with
    | body :: _ => .ok (.literal (.str (String.ofList (unescape body.text))))
    | [] => .error ⟨.incomplete, offset⟩
  | .sibling =>
    match children with
    | path :: _ => return .sibling (← path.children.mapM readStep)
    | [] => .error ⟨.incomplete, offset⟩
  | phrase => .error ⟨.unhandled phrase, offset⟩

mutual

def ofTree : Tree Phrase → Except TreeError Expr
  | .node .expression offset _ children => do
    match Chain.ofItems? (← itemsOfTrees children) with
    | some chain => return chain.toExpr
    | none => throw ⟨.incomplete, offset⟩
  | .node .grouped _ _ (inner :: _) => ofTree inner
  | .node .grouped offset _ [] => throw ⟨.incomplete, offset⟩
  | .node .call _ _ (name :: args) => return .call (String.ofList name.text) (← ofTrees args)
  | .node .call offset _ [] => throw ⟨.incomplete, offset⟩
  | .node phrase offset text children => ofLeaf phrase offset text children

/-- The expressions of phrases in order; the first error wins. -/
def ofTrees : List (Tree Phrase) → Except TreeError (List Expr)
  | [] => return []
  | tree :: rest => return (← ofTree tree) :: (← ofTrees rest)

/-- The operators and operands of an expression in order; the first error wins. -/
def itemsOfTrees : List (Tree Phrase) → Except TreeError (List Chain.Item)
  | [] => return []
  | .node name offset text children :: rest =>
    match name.unaryOperator?, name.binaryOperator? with
    | some op, _ => return .unary op :: (← itemsOfTrees rest)
    | none, some op => return .binary op :: (← itemsOfTrees rest)
    | none, none =>
      return .operand (← ofTree (.node name offset text children)) :: (← itemsOfTrees rest)

end

end Expr

end Proviso
