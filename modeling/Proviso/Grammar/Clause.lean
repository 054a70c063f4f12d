/- # Proviso.Grammar.Clause -- the grammar of clauses

A clause is written as a condition alone, or with a message as `@:condition;msg:message`.  A
condition is an expression over the value under test `$`, fields of the enclosing record
`(path)$`, literals, operators and calls. -/
import Proviso.Grammar.Matcher

namespace Proviso

set_option autoImplicit false

/-- The phrases of the grammar, in the order in which reports list them. -/
inductive Phrase where
  | endOfInput
  | whitespace
  | clause
  | extended
  | expression
  | binaryOperator
  | or
  | and
  | eq
  | ne
  | le
  | ge
  | lt
  | gt
  | add
  | sub
  | mul
  | div
  | rem
  | unaryOperator
  | not
  | neg
  | primary
  | grouped
  | sibling
  | fieldPath
  | fieldAccess
  | indexAccess
  | index
  | current
  | call
  | ident
  | identChar
  | nil
  | boolean
  | number
  | float
  | exponent
  | integer
  | string
  | singleQuoted
  | doubleQuoted
  deriving DecidableEq, Repr

namespace Phrase

def all : List Phrase :=
  [.endOfInput, .whitespace, .clause, .extended, .expression, .binaryOperator, .or, .and, .eq, .ne,
    .le, .ge, .lt, .gt, .add, .sub, .mul, .div, .rem, .unaryOperator, .not, .neg, .primary,
    .grouped, .sibling, .fieldPath, .fieldAccess, .indexAccess, .index, .current, .call, .ident,
    .identChar, .nil, .boolean, .number, .float, .exponent, .integer, .string, .singleQuoted,
    .doubleQuoted]

theorem mem_all (phrase : Phrase) : phrase ∈ all := by
  cases phrase <;> decide

def label : Phrase → String
  | .endOfInput => "EOI"
  | .whitespace => "WHITESPACE"
  | .clause => "main"
  | .extended => "extended"
  | .expression => "expression"
  | .binaryOperator => "infix"
  | .or => "or"
  | .and => "and"
  | .eq => "eq"
  | .ne => "ne"
  | .le => "le"
  | .ge => "ge"
  | .lt => "lt"
  | .gt => "gt"
  | .add => "add"
  | .sub => "sub"
  | .mul => "mul"
  | .div => "div"
  | .rem => "rem"
  | .unaryOperator => "prefix"
  | .not => "not"
  | .neg => "neg"
  | .primary => "primary"
  | .grouped => "grouped"
  | .sibling => "sibling"
  | .fieldPath => "field_path"
  | .fieldAccess => "field_access"
  | .indexAccess => "index_access"
  | .index => "index"
  | .current => "current"
  | .call => "call"
  | .ident => "ident"
  | .identChar => "ident_char"
  | .nil => "nil"
  | .boolean => "boolean"
  | .number => "number"
  | .float => "float"
  | .exponent => "exponent"
  | .integer => "integer"
  | .string => "string"
  | .singleQuoted => "single_quoted"
  | .doubleQuoted => "double_quoted"

def ofLabel? (label : String) : Option Phrase := all.find? (·.label == label)

/-! ## Forms -/

/-- Letters, digits and the underscore may continue an identifier. -/
def isIdentChar (c : Char) : Bool := c.isAlphanum || c == '_'

/-- An identifier starts with a letter or the underscore. -/
def isIdentStart (c : Char) : Bool := c.isAlpha || c == '_'

/-- Space, tab, carriage return and line feed. -/
def isBlank (c : Char) : Bool := c == ' ' || c == '\t' || c == '\r' || c == '\n'

def literally (text : String) : Form Phrase := .text text.toList

def digits : Form Phrase := .atLeastOnce (.char Char.isDigit)

/-- Any characters up to a bare `quote`; a backslash takes the character after it along. -/
def quotedBody (quote : Char) : Form Phrase :=
  .many (.choice
    (.seq (.notAhead (.choice (.text [quote]) (.text ['\\']))) (.char fun _ => true))
    (.seq (.text ['\\']) (.char fun _ => true)))

/-- What each phrase looks like.  Where one operator begins another, the longer one is tried
first. -/
def form : Phrase → Form Phrase
  | .endOfInput => .endOfInput
  | .whitespace => .char isBlank
  | .clause => .seqs [.startOfInput, .choice (.phrase .extended) (.phrase .expression),
      .phrase .endOfInput]
  | .extended => .seqs [literally "@:", .phrase .expression, literally ";", literally "msg:",
      .phrase .expression, .optional (literally ";")]
  | .expression => .seqs [.many (.phrase .unaryOperator), .phrase .primary,
      .many (.seqs [.phrase .binaryOperator, .many (.phrase .unaryOperator), .phrase .primary])]
  | .binaryOperator => .choices ([.or, .and, .eq, .ne, .le, .ge, .lt, .gt, .add, .sub, .mul, .div,
      .rem].map .phrase)
  | .or => literally "||"
  | .and => literally "&&"
  | .eq => literally "=="
  | .ne => literally "!="
  | .le => literally "<="
  | .ge => literally ">="
  | .lt => literally "<"
  | .gt => literally ">"
  | .add => literally "+"
  | .sub => literally "-"
  | .mul => literally "*"
  | .div => literally "/"
  | .rem => literally "%"
  | .unaryOperator => .choice (.phrase .not) (.phrase .neg)
  | .not => literally "!"
  | .neg => literally "-"
  | .primary => .choices ([.sibling, .grouped, .call, .nil, .boolean, .number, .string,
      .current].map .phrase)
  | .grouped => .seqs [literally "(", .phrase .expression, literally ")"]
  | .sibling => .seqs [literally "(", .phrase .fieldPath, literally ")", literally "$"]
  | .fieldPath => .seq (.phrase .ident)
      (.many (.choice (.phrase .fieldAccess) (.phrase .indexAccess)))
  | .fieldAccess => .seq (literally ".") (.phrase .ident)
  | .indexAccess => .seqs [literally "[", .phrase .index, literally "]"]
  | .index => digits
  | .current => literally "$"
  | .call => .seqs [.phrase .ident, literally "(",
      .optional (.seq (.phrase .expression) (.many (.seq (literally ",") (.phrase .expression)))),
      literally ")"]
  | .ident => .seq (.char isIdentStart) (.many (.phrase .identChar))
  | .identChar => .char isIdentChar
  | .nil => .seq (literally "nil") (.notAhead (.phrase .identChar))
  | .boolean => .seq (.choice (literally "true") (literally "false"))
      (.notAhead (.phrase .identChar))
  | .number => .choice (.phrase .float) (.phrase .integer)
  | .float => .seq digits (.choice
      (.seqs [literally ".", .many (.char Char.isDigit), .optional (.phrase .exponent)])
      (.phrase .exponent))
  | .exponent => .seqs [.textAnyCase ['e'], .optional (.choice (literally "+") (literally "-")),
      digits]
  | .integer => .seq digits (.notAhead (.phrase .identChar))
  | .string => .choice
      (.seqs [literally "'", .phrase .singleQuoted, literally "'"])
      (.seqs [literally "\"", .phrase .doubleQuoted, literally "\""])
  | .singleQuoted => quotedBody '\''
  | .doubleQuoted => quotedBody '"'

/-- How each phrase is read.  Words and numbers are atomic; paths and quoted texts have parts but no
blanks between them. -/
def mode : Phrase → Mode
  | .whitespace | .binaryOperator | .unaryOperator | .primary | .number | .exponent
  | .identChar => .silent
  | .index | .ident | .nil | .boolean | .float | .integer | .singleQuoted | .doubleQuoted => .atomic
  | .fieldPath | .fieldAccess | .indexAccess | .string => .compound
  | _ => .plain

def grammar : Grammar Phrase := ⟨all, form, mode, isBlank⟩

end Phrase

end Proviso
