/- # Proviso.Pattern.Token -- the parts of a written pattern

A written pattern is a row of tokens: single characters and classes, anchors, repetitions, and the
marks that open and close groups, separate alternatives and switch flags.  What a token is does not
depend on the flags in force. -/
import Proviso.Pattern.Bracket

namespace Proviso

set_option autoImplicit false

/-! ## Flags -/

inductive PatternFlag where
  /-- Characters stand for their case variants, too. -/
  | anyCase
  /-- The line anchors hold at every line, not just at the ends of the text. -/
  | multiLine
  /-- The dot takes line feeds, too. -/
  | dotAll
  /-- Repetitions prefer fewer, and more with the mark that otherwise asks for fewer. -/
  | swapGreed
  /-- Characters are code points; this is always on. -/
  | codePoints
  deriving DecidableEq, Repr

def PatternFlag.ofLetter? : Char → Option PatternFlag
  | 'i' => some .anyCase
  | 'm' => some .multiLine
  | 's' => some .dotAll
  | 'U' => some .swapGreed
  | 'u' => some .codePoints
  | _ => none

abbrev FlagSwitches := List (PatternFlag × Bool)

/-! ## Tokens -/

inductive PatternToken where
  | char (c : Char)
  | cls (cls : CharClass)
  | dot
  /-- The start of the text or of a line, as the flags say. -/
  | start
  /-- The end of the text or of a line, as the flags say. -/
  | stop
  | anchor (anchor : Anchor)
  /-- A repetition of what stands before; `few` if it is marked to prefer fewer. -/
  | repeated (least : Nat) (most : Option Nat) (few : Bool)
  | alternate
  /-- The start of a group that is numbered and may have a name. -/
  | enterNumbered (name : Option String)
  /-- The start of a group that flags are switched in. -/
  | enter (switches : FlagSwitches)
  | leave
  | flags (switches : FlagSwitches)
  deriving DecidableEq, Repr

namespace PatternToken

/-! ## Repetitions -/

/-- Whether blank space may stand there, as it may around the bounds of a repetition. -/
def isBlank (c : Char) : Bool := CharSet.blank.contains c

/-- Reads a bound of a repetition, which has to fit in 32 bits. -/
def readBound (text : List Char) : Option (Nat × List Char) :=
  let text := text.dropWhile isBlank
  let digits := text.takeWhile Char.isDigit
  let value := digits.foldl (fun value c => value * 10 + (c.toNat - '0'.toNat)) 0
  if digits.isEmpty || UInt32.size ≤ value then none
  else some (value, (text.dropWhile Char.isDigit).dropWhile isBlank)

/-- Reads the bounds of a repetition after the opening brace. -/
def readBounds (text : List Char) : Option ((Nat × Option Nat) × List Char) := do
  match ← readBound text with
  | (least, ',' :: '\x7d' :: rest) => return ((least, none), rest)
  | (least, ',' :: rest) =>
    match ← readBound rest with
    | (most, '\x7d' :: rest) => if least ≤ most then some ((least, some most), rest) else none
    | _ => none
  | (count, '\x7d' :: rest) => return ((count, some count), rest)
  | _ => none

/-- A repetition, with the mark that may follow it. -/
def marked (least : Nat) (most : Option Nat) : List Char → PatternToken × List Char
  | '?' :: rest => (.repeated least most true, rest)
  | text => (.repeated least most false, text)

/-! ## Groups -/

/-- Reads switches up to `:` or `)`.  A minus stands once, before a flag it switches off, and a flag
is switched once. -/
def readSwitches (on : Bool) (dangling : Bool) (switches : FlagSwitches) :
    FrontReader FlagSwitches
  | [] => none
  | ')' :: rest => if dangling then none else some (switches, ')' :: rest)
  | ':' :: rest => if dangling then none else some (switches, ':' :: rest)
  | '-' :: rest => if on then readSwitches false true switches rest else none
  | c :: rest => do
    let flag ← PatternFlag.ofLetter? c
    if switches.any (·.1 == flag) || flag == .codePoints && !on then none
    else readSwitches on false (switches ++ [(flag, on)]) rest

/-- Whether a character can stand in the name of a group. -/
def isNameChar (first : Bool) (c : Char) : Bool :=
  c == '_' || Unicode.isAlphabetic c ||
    (!first && (c == '.' || c == '[' || c == ']' || Unicode.isNumeric c))

def readName (text : List Char) : Option (PatternToken × List Char) := do
  match ← Escape.upTo? '>' text with
  | (first :: name, rest) =>
    if isNameChar true first && name.all (isNameChar false) then
      some (.enterNumbered (some (String.ofList (first :: name))), rest)
    else none
  | ([], _) => none

/-- Reads what follows an opening parenthesis.  There are no groups that look around. -/
def readGroup : FrontReader PatternToken
  | '?' :: 'P' :: '<' :: rest => readName rest
  | '?' :: '<' :: rest => readName rest
  | '?' :: rest => do
    match ← readSwitches true false [] rest with
    | ([], ')' :: _) => none
    | (switches, ')' :: rest) => return (.flags switches, rest)
    | (switches, _ :: rest) => return (.enter switches, rest)
    | (_, []) => none
  | text => some (.enterNumbered none, text)

/-! ## Tokens in a row -/

def read : FrontReader PatternToken
  | [] => none
  | c :: rest =>
    match c with
    | '(' => readGroup rest
    | ')' => some (.leave, rest)
    | '|' => some (.alternate, rest)
    | '?' => some (marked 0 (some 1) rest)
    | '*' => some (marked 0 none rest)
    | '+' => some (marked 1 none rest)
    | '\x7b' => do
      let ((least, most), rest) ← readBounds rest
      return marked least most rest
    | '[' => do
      let (found, rest) ← CharClass.readBracket rest
      return (.cls found, rest)
    | '\\' => do
      match ← Escape.read rest with
      | (.char c, rest) => return (.char c, rest)
      | (.cls found, rest) => return (.cls found, rest)
      | (.anchor found, rest) => return (.anchor found, rest)
    | '.' => some (.dot, rest)
    | '^' => some (.start, rest)
    | '$' => some (.stop, rest)
    | c => some (.char c, rest)

/-- Reads tokens to the end of a text.  Every token takes a character, so as many rounds as there
are characters are enough. -/
def readAll : Nat → List Char → Option (List PatternToken)
  | _, [] => some []
  | 0, _ => none
  | rounds + 1, text => do
    let (token, rest) ← read text
    return token :: (← readAll rounds rest)

end PatternToken

end Proviso
