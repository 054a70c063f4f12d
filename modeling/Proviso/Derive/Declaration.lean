/- # Proviso.Derive.Declaration -- declared types

A type as it is declared in Rust: its parameters, the bounds on them, and its fields with their
attributes. -/
import Proviso.Derive.Source

namespace Proviso.Derive

set_option autoImplicit false

inductive Delimiter where
  | parenthesis
  | bracket
  | brace
  deriving DecidableEq, Repr

inductive AttributeArgs where
  | none
  /-- An equals sign and a value. -/
  | value
  | list (delimiter : Delimiter) (tokens : List Token)
  deriving DecidableEq, Repr

structure Attribute where
  name : String
  args : AttributeArgs
  deriving DecidableEq, Repr

namespace AttributeArgs

/-- The arguments written in tokens that follow the name. -/
def ofTokens : List Token → AttributeArgs
  | [] => .none
  | token :: rest =>
    if token.isChar '=' then .value
    else if token.isChar '(' then .list .parenthesis rest.dropLast
    else if token.isChar '[' then .list .bracket rest.dropLast
    else .list .brace rest.dropLast

/-- The arguments that are entries in parentheses, separated by commas. -/
def ofEntries (entries : List (List Token)) : AttributeArgs :=
  .list .parenthesis ((entries.intersperse [.char ',' false]).flatten)

end AttributeArgs

/-- A declared field; those of a tuple have no name. -/
structure DeclaredField where
  name : Option String
  type : List Token
  attributes : List Attribute
  deriving DecidableEq, Repr

inductive ParamKind where
  | lifetime
  | type
  | const
  deriving DecidableEq, Repr

/-- A parameter of a declaration, with its attributes and bounds but without a default. -/
structure Param where
  kind : ParamKind
  name : String
  tokens : List Token
  deriving DecidableEq, Repr

namespace Param

/-- The attributes before a parameter, and what follows them. -/
def splitAttributes (rounds : Nat) (tokens : List Token) : List Token × List Token :=
  match rounds, tokens with
  | rounds + 1, .char '#' joined :: rest =>
    let (attr, rest) := Token.throughBracket 0 rest
    let (more, rest) := splitAttributes rounds rest
    (.char '#' joined :: (attr ++ more), rest)
  | _, tokens => ([], tokens)

theorem splitAttributes_append (rounds : Nat) (tokens : List Token) :
    (splitAttributes rounds tokens).1 ++ (splitAttributes rounds tokens).2 = tokens := by
  fun_induction splitAttributes rounds tokens with
  | case1 rounds joined rest attr tail split more rest' split' ih =>
    have whole := Token.throughBracket_append 0 rest
    rw [split] at whole
    rw [split'] at ih
    simp only [List.cons_append, List.append_assoc, ih, whole]
  | case2 => rfl

/-- The tokens before an equals sign outside of all brackets, of which `angles` angle brackets and
`depth` others are open.  Inside the others an angle is no bracket, and neither is one after a
hyphen, which makes an arrow. -/
def beforeDefault (angles depth : Nat) : List Token → List Token
  | [] => []
  | .char '-' joined :: .char '>' joined' :: rest =>
    .char '-' joined :: .char '>' joined' :: beforeDefault angles depth rest
  | token :: rest =>
    if token.opens then token :: beforeDefault angles (depth + 1) rest
    else if token.closes then token :: beforeDefault angles (depth - 1) rest
    else if depth ≠ 0 then token :: beforeDefault angles depth rest
    else if token.isChar '<' then token :: beforeDefault (angles + 1) depth rest
    else if token.isChar '>' then token :: beforeDefault (angles - 1) depth rest
    else if token.isChar '=' && angles == 0 then []
    else token :: beforeDefault angles depth rest

/-- The tokens without a colon that nothing follows. -/
def dropEmptyBounds (tokens : List Token) : List Token :=
  if tokens.getLast?.any (·.isChar ':') then tokens.dropLast else tokens

def ofTokens (tokens : List Token) : Param :=
  let (attributes, tokens) := splitAttributes tokens.length tokens
  let bounded := attributes ++ dropEmptyBounds (beforeDefault 0 0 tokens)
  match tokens with
  | .char '\'' _ :: _ => ⟨.lifetime, Token.writeAll (tokens.take 2), bounded⟩
  | .word "const" :: name :: _ => ⟨.const, name.written, bounded⟩
  | name :: _ => ⟨.type, name.written, bounded⟩
  | [] => ⟨.type, "", []⟩

end Param

inductive Keyword where
  | struct
  | enum
  | union
  deriving DecidableEq, Repr

structure Declaration where
  keyword : Keyword
  name : String
  params : List Param
  /-- The bounds after `where`. -/
  bounds : List Token
  fields : List DeclaredField
  deriving DecidableEq, Repr

end Proviso.Derive
