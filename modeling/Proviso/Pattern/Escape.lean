/- # Proviso.Pattern.Escape -- what a backslash stands before

After a backslash a letter names a set, an anchor or a character, and most of the other ASCII
characters stand for themselves. -/
import Proviso.Pattern.Basic
import Proviso.Pattern.CharClass

namespace Proviso

set_option autoImplicit false

abbrev FrontReader (α : Type) := List Char → Option (α × List Char)

inductive Escape where
  | char (c : Char)
  | cls (cls : CharClass)
  | anchor (anchor : Anchor)
  deriving DecidableEq, Repr

namespace Escape

/-- Whether a backslash before the character makes it stand for itself. -/
def standsForItself (c : Char) : Bool :=
  c.toNat < 128 && !c.isAlphanum && c != '<' && c != '>'

def hexValue? (digits : List Char) : Option Nat :=
  digits.foldl (fun value c => value.bind fun value =>
    if c.isDigit then some (value * 16 + (c.toNat - '0'.toNat))
    else if 'a' ≤ c ∧ c ≤ 'f' then some (value * 16 + 10 + (c.toNat - 'a'.toNat))
    else if 'A' ≤ c ∧ c ≤ 'F' then some (value * 16 + 10 + (c.toNat - 'A'.toNat))
    else none) (some 0)

def charOfCode? (code : Nat) : Option Char :=
  if code.isValidChar then some (Char.ofNat code) else none

/-- The text up to a character that has to follow, and the rest after it. -/
def upTo? (stop : Char) (text : List Char) : Option (List Char × List Char) :=
  match text.dropWhile (· != stop) with
  | _ :: rest => some (text.takeWhile (· != stop), rest)
  | [] => none

/-- Reads a code point: a fixed number of digits, or any number of them in braces. -/
def readHex (count : Nat) : FrontReader Char
  | '\x7b' :: rest => do
    let (digits, rest) ← upTo? '\x7d' rest
    if digits.isEmpty then none
    else return (← charOfCode? (← hexValue? digits), rest)
  | text =>
    if text.length < count then none
    else do return (← charOfCode? (← hexValue? (text.take count)), text.drop count)

/-- Reads the name of a property: one letter, or a name in braces. -/
def readProperty : FrontReader CharSet
  | '\x7b' :: rest => do
    let (name, rest) ← upTo? '\x7d' rest
    return (← CharSet.ofPropertyName? name, rest)
  | c :: rest => do return (← CharSet.ofPropertyName? [c], rest)
  | [] => none

/-- Reads what follows the boundary escape: it is a plain boundary unless a name in braces follows,
and braces that hold no name are left for a repetition. -/
def readBoundary : FrontReader Anchor
  | '\x7b' :: c :: rest =>
    if c.isAlpha || c == '-' then do
      match ← upTo? '\x7d' (c :: rest) with
      | (['s', 't', 'a', 'r', 't'], rest) => some (.wordStart, rest)
      | (['e', 'n', 'd'], rest) => some (.wordEnd, rest)
      | (['s', 't', 'a', 'r', 't', '-', 'h', 'a', 'l', 'f'], rest) => some (.wordStartHalf, rest)
      | (['e', 'n', 'd', '-', 'h', 'a', 'l', 'f'], rest) => some (.wordEndHalf, rest)
      | _ => none
    else some (.wordBoundary, '\x7b' :: c :: rest)
  | ['\x7b'] => none
  | text => some (.wordBoundary, text)

def read : FrontReader Escape
  | [] => none
  | c :: rest =>
    let char (c : Char) : Option (Escape × List Char) := some (.char c, rest)
    let named (set : CharSet) (negated : Bool) : Option (Escape × List Char) :=
      some (.cls (.named set negated), rest)
    let anchor (anchor : Anchor) : Option (Escape × List Char) := some (.anchor anchor, rest)
    match c with
    | 'd' => named .decimalDigit false
    | 'D' => named .decimalDigit true
    | 's' => named .blank false
    | 'S' => named .blank true
    | 'w' => named .word false
    | 'W' => named .word true
    | 'p' => do let (found, rest) ← readProperty rest; return (.cls (.named found false), rest)
    | 'P' => do let (found, rest) ← readProperty rest; return (.cls (.named found true), rest)
    | 'x' => do let (found, rest) ← readHex 2 rest; return (.char found, rest)
    | 'u' => do let (found, rest) ← readHex 4 rest; return (.char found, rest)
    | 'U' => do let (found, rest) ← readHex 8 rest; return (.char found, rest)
    | 'a' => char '\x07'
    | 'f' => char '\x0c'
    | 't' => char '\t'
    | 'n' => char '\n'
    | 'r' => char '\r'
    | 'v' => char '\x0b'
    | 'A' => anchor .textStart
    | 'z' => anchor .textEnd
    | 'B' => anchor .noWordBoundary
    | 'b' => do let (found, rest) ← readBoundary rest; return (.anchor found, rest)
    | '<' => anchor .wordStart
    | '>' => anchor .wordEnd
    | c => if standsForItself c then char c else none

end Escape

end Proviso
