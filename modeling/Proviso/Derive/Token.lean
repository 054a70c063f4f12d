/- # Proviso.Derive.Token -- tokens of Rust

The tokens that types, bounds and attributes are written in: words, literals and single characters.
Brackets are characters of their own.  A literal is kept as it is written; of a string literal the
text it stands for is known as well. -/
import Proviso.Text.Quoted

namespace Proviso.Derive

set_option autoImplicit false

inductive Token where
  | word (text : String)
  /-- A literal, and the text of a string literal. -/
  | literal (written : String) (text : Option String)
  /-- A character, and whether another one follows at once. -/
  | char (c : Char) (joined : Bool)
  deriving DecidableEq, Repr

/-- Token texts set off by spaces. -/
def spaced (parts : List String) : String :=
  " ".intercalate (parts.filter (!·.isEmpty))

namespace Token

def written : Token → String
  | .word text => text
  | .literal written _ => written
  | .char c _ => c.toString

def writeAll (tokens : List Token) : String := spaced (tokens.map written)

def isChar (c : Char) : Token → Bool
  | .char d _ => c == d
  | _ => false

def isCharOf (chars : List Char) : Token → Bool
  | .char c _ => chars.contains c
  | _ => false

/-! ## Brackets -/

def opens (token : Token) : Bool := token.isCharOf ['(', '[', '\x7b']

def closes (token : Token) : Bool := token.isCharOf [')', ']', '\x7d']

/-- Splits tokens after the bracket that closes the innermost of so many open ones. -/
def throughBracket (depth : Nat) : List Token → List Token × List Token
  | [] => ([], [])
  | token :: rest =>
    if token.closes && depth ≤ 1 then ([token], rest)
    else
      let depth := if token.opens then depth + 1 else if token.closes then depth - 1 else depth
      let (inside, rest) := throughBracket depth rest
      (token :: inside, rest)

theorem throughBracket_append (depth : Nat) (tokens : List Token) :
    (throughBracket depth tokens).1 ++ (throughBracket depth tokens).2 = tokens := by
  induction tokens generalizing depth with
  | nil => rfl
  | cons token rest ih =>
    rw [throughBracket]
    split
    · rfl
    · exact congrArg (token :: ·) (ih _)

/-! ## String literals of texts -/

/-- The escapes of a string literal; a null before a digit is written out in full. -/
def escapeText : List Char → List Char
  | [] => []
  | '\x00' :: rest =>
    let null := if rest.head?.any fun c => '0' ≤ c && c ≤ '7' then "\\x00" else "\\0"
    null.toList ++ escapeText rest
  | c :: rest => escapeChar c ++ escapeText rest

def ofText (text : String) : Token :=
  .literal (String.ofList ('"' :: (escapeText text.toList ++ ['"']))) (some text)

end Token

end Proviso.Derive
