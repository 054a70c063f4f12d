/- # Proviso.Derive.Literal -- literals and names in a text

A literal is a quotation or a number, and may have a name at its end that says what type it has.  In
a quotation a backslash starts an escape, unless the quotation is raw. -/
import Proviso.Derive.Token
import Proviso.Unicode.Identifier

namespace Proviso.Derive

set_option autoImplicit false

/-! ## Names -/

def startsName (c : Char) : Bool := c == '_' || Unicode.startsIdentifier c

/-- Splits a text after the name at its front, if there is one. -/
def splitName (text : List Char) : List Char × List Char :=
  if text.head?.any startsName then
    (text.takeWhile Unicode.continuesIdentifier, text.dropWhile Unicode.continuesIdentifier)
  else ([], text)

theorem splitName_append (text : List Char) : (splitName text).1 ++ (splitName text).2 = text := by
  unfold splitName
  split
  · exact List.takeWhile_append_dropWhile
  · rfl

namespace Token

def literalOf (written : List Char) (text : Option (List Char)) (rest : List Char) :
    Token × List Char :=
  let (suffix, rest) := splitName rest
  (.literal (String.ofList (written ++ suffix)) (text.map String.ofList), rest)

/-! ## Quotations -/

/-- The value of hexadecimal digits; other characters do not count. -/
def hexValue (digits : List Char) : Nat :=
  digits.foldl (fun value c =>
    if c.isDigit then value * 16 + (c.toNat - '0'.toNat)
    else if 'a' ≤ c ∧ c ≤ 'f' then value * 16 + 10 + (c.toNat - 'a'.toNat)
    else if 'A' ≤ c ∧ c ≤ 'F' then value * 16 + 10 + (c.toNat - 'A'.toNat)
    else value) 0

/-- Whether the character is skipped after a backslash at the end of a line. -/
def isLineBlank (c : Char) : Bool := c == ' ' || c == '\t' || c == '\n' || c == '\r'

/-- The text that the inside of a quotation stands for.  A line ends the same way whether or not
there is a carriage return.  Every round takes a character. -/
def unescape : Nat → List Char → List Char
  | 0, _ | _, [] => []
  | rounds + 1, '\\' :: c :: rest =>
    match c with
    | 'n' => '\n' :: unescape rounds rest
    | 'r' => '\r' :: unescape rounds rest
    | 't' => '\t' :: unescape rounds rest
    | '0' => '\x00' :: unescape rounds rest
    | 'x' => Char.ofNat (hexValue (rest.take 2)) :: unescape rounds (rest.drop 2)
    | 'u' =>
      let digits := (rest.drop 1).takeWhile (· != '\x7d')
      Char.ofNat (hexValue digits) :: unescape rounds (rest.drop (digits.length + 2))
    | '\n' | '\r' => unescape rounds (rest.dropWhile isLineBlank)
    | c => c :: unescape rounds rest
  | rounds + 1, '\r' :: '\n' :: rest => '\n' :: unescape rounds rest
  | rounds + 1, c :: rest => c :: unescape rounds rest

/-- Splits a text after an unescaped quote. -/
def throughQuote? (quote : Char) : List Char → Option (List Char × List Char)
  | [] => none
  | '\\' :: c :: rest =>
    (throughQuote? quote rest).map fun (text, rest) => ('\\' :: c :: text, rest)
  | c :: rest =>
    if c = quote then some ([c], rest)
    else (throughQuote? quote rest).map fun (text, rest) => (c :: text, rest)

/-- Splits a text after a quote that so many hashes follow. -/
def throughHashes? (hashes : Nat) : List Char → Option (List Char × List Char)
  | [] => none
  | c :: rest =>
    if c = '"' ∧ rest.take hashes = List.replicate hashes '#' then
      some (c :: rest.take hashes, rest.drop hashes)
    else (throughHashes? hashes rest).map fun (text, rest) => (c :: text, rest)

/-- A string literal after its letters and its quote; only one without letters is a text. -/
def readString? (lead rest : List Char) : Option (Token × List Char) := do
  let (body, rest) ← throughQuote? '"' rest
  let inside := body.dropLast
  let text := if lead.isEmpty then some (unescape inside.length inside) else none
  return literalOf (lead ++ '"' :: body) text rest

/-- A character literal after its letters and its quote. -/
def readChar? (lead : List Char) : List Char → Option (Token × List Char)
  | '\\' :: rest => do
    let (body, rest) ← throughQuote? '\'' ('\\' :: rest)
    return literalOf (lead ++ '\'' :: body) none rest
  | c :: '\'' :: rest => some (literalOf (lead ++ ['\'', c, '\'']) none rest)
  | _ => none

/-- A raw string literal after its letters, hashes and quote; only one with a plain `r` is a
text. -/
def readRawString? (lead : List Char) (hashes : Nat) (rest : List Char) :
    Option (Token × List Char) := do
  let (body, rest) ← throughHashes? hashes rest
  let text := if lead == ['r'] then some (body.take (body.length - (hashes + 1))) else none
  return literalOf (lead ++ List.replicate hashes '#' ++ '"' :: body) text rest

/-! ## Numbers -/

def isDigitOrLine (c : Char) : Bool := c.isDigit || c == '_'

/-- Splits a text after the point and the digits of a fraction.  Before another point or a name, a
point is not part of the number. -/
def splitFraction? : List Char → Option (List Char × List Char)
  | '.' :: rest =>
    if rest.head?.any fun c => c == '.' || startsName c then none
    else some ('.' :: rest.takeWhile isDigitOrLine, rest.dropWhile isDigitOrLine)
  | _ => none

/-- Splits a text after an exponent, which has at least one digit. -/
def splitExponent? : List Char → Option (List Char × List Char)
  | e :: rest =>
    let lines := rest.takeWhile (· == '_')
    let (sign, rest) := match rest.dropWhile (· == '_') with
      | '+' :: rest => (['+'], rest)
      | '-' :: rest => (['-'], rest)
      | rest => ([], rest)
    let digits := rest.takeWhile isDigitOrLine
    if (e == 'e' || e == 'E') && digits.any Char.isDigit then
      some (e :: (lines ++ sign ++ digits), rest.dropWhile isDigitOrLine)
    else none
  | [] => none

/-- A number at the front of a text.  Without fraction and exponent, all that could be part of a
name is part of the number. -/
def readNumber (text : List Char) : Token × List Char :=
  let whole := text.takeWhile isDigitOrLine
  let rest := text.dropWhile isDigitOrLine
  let (fraction, rest) := (splitFraction? rest).getD ([], rest)
  let (exponent, rest) := (splitExponent? rest).getD ([], rest)
  literalOf (whole ++ fraction ++ exponent) none rest

/-! ## Words -/

/-- A word, or the literal that it is the start of. -/
def readWord? (text : List Char) : Option (Token × List Char) :=
  let (lead, rest) := splitName text
  let hashes := (rest.takeWhile (· == '#')).length
  let raw := ["r", "br", "cr"].contains (String.ofList lead)
  let word : Token × List Char := (.word (String.ofList lead), rest)
  match rest.drop hashes with
  | '"' :: inside =>
    if raw then readRawString? lead hashes inside
    else if hashes == 0 && ["b", "c"].contains (String.ofList lead) then readString? lead inside
    else some word
  | '\'' :: inside => if hashes == 0 && lead == ['b'] then readChar? lead inside else some word
  | after =>
    let (name, beyond) := splitName after
    if lead == ['r'] && hashes == 1 && !name.isEmpty then
      some (.word (String.ofList ('r' :: '#' :: name)), beyond)
    else some word

end Token

end Proviso.Derive
