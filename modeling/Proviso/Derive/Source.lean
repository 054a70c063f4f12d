/- # Proviso.Derive.Source -- tokens of a text

Between tokens stand blanks and comments.  A comment that documents something is no blank, but an
attribute in another form. -/
import Proviso.Derive.Literal

namespace Proviso.Derive

set_option autoImplicit false

namespace Token

/-! ## Comments -/

/-- Whether the character is blank; so are the marks that set the direction of text. -/
def isBlank (c : Char) : Bool := Unicode.blank.contains c.toNat || c == '\u200e' || c == '\u200f'

def splitLine : List Char → List Char × List Char
  | [] => ([], [])
  | '\n' :: rest => ([], '\n' :: rest)
  | '\r' :: '\n' :: rest => ([], '\n' :: rest)
  | c :: rest =>
    let (line, rest) := splitLine rest
    (c :: line, rest)

/-- Splits a text before the mark that closes the innermost of so many open comments, and drops that
mark. -/
def splitBlock? (depth : Nat) : List Char → Option (List Char × List Char)
  | '*' :: '/' :: rest =>
    if depth ≤ 1 then some ([], rest)
    else (splitBlock? (depth - 1) rest).map fun (text, rest) => ('*' :: '/' :: text, rest)
  | '/' :: '*' :: rest =>
    (splitBlock? (depth + 1) rest).map fun (text, rest) => ('/' :: '*' :: text, rest)
  | c :: rest => (splitBlock? depth rest).map fun (text, rest) => (c :: text, rest)
  | [] => none

/-- The rest of a text after the plain comment at its front, if there is one. -/
def afterComment? : List Char → Option (List Char)
  | '/' :: '/' :: '/' :: '/' :: rest => some (splitLine rest).2
  | '/' :: '/' :: '/' :: _ | '/' :: '/' :: '!' :: _ => none
  | '/' :: '/' :: rest => some (splitLine rest).2
  | '/' :: '*' :: '*' :: '/' :: rest => some rest
  | '/' :: '*' :: '*' :: '*' :: rest => (splitBlock? 1 ('*' :: '*' :: rest)).map (·.2)
  | '/' :: '*' :: '*' :: _ | '/' :: '*' :: '!' :: _ => none
  | '/' :: '*' :: rest => (splitBlock? 1 rest).map (·.2)
  | _ => none

/-- A text without the blanks and plain comments at its front.  Every round takes a character. -/
def skipBlanks : Nat → List Char → List Char
  | 0, text => text
  | rounds + 1, text =>
    match text with
    | [] => []
    | c :: rest =>
      if isBlank c then skipBlanks rounds rest
      else
        match afterComment? (c :: rest) with
        | some rest => skipBlanks rounds rest
        | none => c :: rest

/-- The attribute that documents what follows it, or with `inside` what is around it. -/
def documentation (inside : Bool) (text : List Char) : List Token :=
  .char '#' false :: ((if inside then [.char '!' false] else []) ++
    [.char '[' false, .word "doc", .char '=' false, ofText (String.ofList text), .char ']' false])

def readDocumentation? : List Char → Option (List Token × List Char)
  | '/' :: '/' :: c :: rest =>
    if c = '/' ∨ c = '!' then
      let (text, rest) := splitLine rest
      some (documentation (c == '!') text, rest)
    else none
  | '/' :: '*' :: c :: rest =>
    if c = '*' ∨ c = '!' then
      (splitBlock? 1 rest).map fun (text, rest) => (documentation (c == '!') text, rest)
    else none
  | _ => none

/-! ## Reading -/

/-- Whether an operator goes on at the front of a text. -/
def goesOn : List Char → Bool
  | '/' :: '/' :: _ | '/' :: '*' :: _ => false
  | c :: _ => "~!@#$%^&*-=+|;:,<.>/?'".toList.contains c
  | [] => false

/-- Reads one token off a text that starts with no blank and no comment. -/
def read? : List Char → Option (Token × List Char)
  | [] => none
  | '"' :: rest => readString? [] rest
  | '\'' :: rest => some ((readChar? [] rest).getD (.char '\'' true, rest))
  | c :: rest =>
    if c.isDigit then some (readNumber (c :: rest))
    else if startsName c then readWord? (c :: rest)
    else some (.char c (goesOn rest), rest)

/-- Reads tokens to the end of a text.  Every round takes a character. -/
def readAll? : Nat → List Char → Option (List Token)
  | rounds, text =>
    match rounds, skipBlanks text.length text with
    | _, [] => some []
    | 0, _ => none
    | rounds + 1, text =>
      match readDocumentation? text with
      | some (tokens, rest) => do return tokens ++ (← readAll? rounds rest)
      | none => do
        let (token, rest) ← read? text
        return token :: (← readAll? rounds rest)

def tokenize? (text : String) : Option (List Token) :=
  readAll? text.length text.toList

end Token

end Proviso.Derive
