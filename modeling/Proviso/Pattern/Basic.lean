/- # Proviso.Pattern.Basic -- patterns

A pattern describes stretches of a text.  The functions that put patterns together keep them in a
simple form, in which rows hold no rows, choices no choices, and characters that follow each other
are one text: `join`, `choose` and `repetition` change the form of a pattern, never what it
describes.  How large a pattern is, is told from that form. -/
import Proviso.Pattern.CharSet

namespace Proviso

set_option autoImplicit false

/-! ## Anchors -/

/-- A condition on a place in a text, by the characters around it. -/
inductive Anchor where
  | textStart
  | textEnd
  | lineStart
  | lineEnd
  | wordBoundary
  | noWordBoundary
  | wordStart
  | wordEnd
  /-- No word ends or goes on here. -/
  | wordStartHalf
  /-- No word starts or goes on here. -/
  | wordEndHalf
  deriving DecidableEq, Repr

def isWordChar : Option Char → Bool
  | some c => CharSet.word.contains c
  | none => false

/-- Whether an anchor holds between two characters, or at an end of the text. -/
def Anchor.holds (anchor : Anchor) (before after : Option Char) : Bool :=
  match anchor with
  | .textStart => before.isNone
  | .textEnd => after.isNone
  | .lineStart => before.isNone || before == some '\n'
  | .lineEnd => after.isNone || after == some '\n'
  | .wordBoundary => isWordChar before != isWordChar after
  | .noWordBoundary => isWordChar before == isWordChar after
  | .wordStart => !isWordChar before && isWordChar after
  | .wordEnd => isWordChar before && !isWordChar after
  | .wordStartHalf => !isWordChar before
  | .wordEndHalf => !isWordChar after

/-! ## Patterns -/

inductive Pattern where
  | empty
  /-- The given characters, one after another. -/
  | text (chars : List Char)
  /-- One character of a set. -/
  | one (set : CharSet)
  /-- A place where the anchor holds. -/
  | here (anchor : Anchor)
  /-- A group with a number of its own, which keeps it apart from all others. -/
  | group (number : Nat) (body : Pattern)
  | seq (first rest : Pattern)
  | alt (first rest : Pattern)
  /-- At least `least` times, and at most `most` times where a bound is given; `greedy` if more are
  preferred, which makes no difference to whether there is a match. -/
  | repeated (body : Pattern) (least : Nat) (most : Option Nat) (greedy : Bool)
  deriving DecidableEq, Repr

namespace Pattern

def nothing : Pattern := .one .empty

/-- One character of a set; a set of one character is a text. -/
def ofSet (set : CharSet) : Pattern :=
  match set.single? with
  | some c => .text [c]
  | none => .one set

def char (c : Char) : Pattern := .text [c]

def row : List Pattern → Pattern
  | [] => .empty
  | [pattern] => pattern
  | pattern :: rest => .seq pattern (row rest)

def choice : List Pattern → Pattern
  | [] => nothing
  | [pattern] => pattern
  | pattern :: rest => .alt pattern (choice rest)

def optional (pattern : Pattern) : Pattern := .repeated pattern 0 (some 1) true

def oneOrMore (pattern : Pattern) : Pattern := .repeated pattern 1 none true

def between (pattern : Pattern) (least most : Nat) : Pattern :=
  .repeated pattern least (some most) true

def exactly (pattern : Pattern) (count : Nat) : Pattern := pattern.between count count

/-! ## Parts -/

/-- The patterns that a row is made of. -/
def parts : Pattern → List Pattern
  | .empty => []
  | .seq first rest => first :: rest.parts
  | pattern => [pattern]

def branches : Pattern → List Pattern
  | .alt first rest => first :: rest.branches
  | pattern => [pattern]

def mergeTexts : List Pattern → List Pattern
  | [] => []
  | .text chars :: rest =>
    match mergeTexts rest with
    | .text more :: rest => .text (chars ++ more) :: rest
    | rest => .text chars :: rest
  | pattern :: rest => pattern :: mergeTexts rest

def join (patterns : List Pattern) : Pattern := row (mergeTexts (patterns.flatMap parts))

/-! ## Choices -/

/-- The sets, where each of the patterns is one character of a set. -/
def sets? : List Pattern → Option (List CharSet)
  | [] => some []
  | .one set :: rest => (sets? rest).map (set :: ·)
  | _ => none

/-- The characters, where each of the patterns is one character. -/
def chars? : List Pattern → Option (List Char)
  | [] => some []
  | .text [c] :: rest => (chars? rest).map (c :: ·)
  | _ => none

/-- A choice between characters is a set, and so is one between sets. -/
def chooseOne? (patterns : List Pattern) : Option Pattern :=
  match chars? patterns, sets? patterns with
  | some chars, _ => some (ofSet (.any (chars.map .char)))
  | none, some sets => some (ofSet (.any sets))
  | none, none => none

def commonStart : List Pattern → List Pattern → List Pattern
  | a :: as, b :: bs => if a = b then a :: commonStart as bs else []
  | _, _ => []

/-- The parts that all of the patterns start with; there are none unless each is a row. -/
def sharedParts (patterns : List Pattern) : List Pattern :=
  let rows := patterns.map parts
  match rows with
  | [] => []
  | first :: rest => if rows.all (2 ≤ ·.length) then rest.foldl commonStart first else []

/-- One of the patterns, none of which is a choice itself. -/
def chooseApart : List Pattern → Pattern
  | [pattern] => pattern
  | patterns => (chooseOne? patterns).getD (choice patterns)

/-- One of the patterns, as a single choice.  What all of them start with is put before the
choice. -/
def choose (patterns : List Pattern) : Pattern :=
  match patterns.flatMap branches with
  | [pattern] => pattern
  | apart =>
    let shared := sharedParts apart
    if shared.isEmpty then chooseApart apart
    else
      let ends := apart.map fun pattern => join (pattern.parts.drop shared.length)
      join (shared ++ [chooseApart (ends.flatMap branches)])

/-! ## Lengths -/

/-- The least number of characters, unless some part describes nothing. -/
def leastLength : Pattern → Option Nat
  | .empty | .here _ => some 0
  | .text chars => some chars.length
  | .one set => if set = .empty then none else some 1
  | .group _ body => body.leastLength
  | .seq first rest => do return (← first.leastLength) + (← rest.leastLength)
  | .alt first rest => do return min (← first.leastLength) (← rest.leastLength)
  | .repeated body least _ _ => body.leastLength.map (least * ·)

/-- The greatest number of characters, if there is a bound and no part describes nothing. -/
def greatestLength : Pattern → Option Nat
  | .empty | .here _ => some 0
  | .text chars => some chars.length
  | .one set => if set = .empty then none else some 1
  | .group _ body => body.greatestLength
  | .seq first rest => do return (← first.greatestLength) + (← rest.greatestLength)
  | .alt first rest => do return max (← first.greatestLength) (← rest.greatestLength)
  | .repeated body _ most _ => do return (← most) * (← body.greatestLength)

/-- Whether the pattern takes no characters of the text. -/
def takesNothing (pattern : Pattern) : Bool := pattern.greatestLength == some 0

/-- Whether the pattern takes some character of the text. -/
def takesSome (pattern : Pattern) : Bool :=
  match pattern.leastLength with
  | some length => 0 < length
  | none => false

/-- A repetition.  What takes no characters need not be repeated. -/
def repetition (body : Pattern) (least : Nat) (most : Option Nat) (greedy : Bool) : Pattern :=
  let (least, most) :=
    if body.takesNothing then (min least 1, some ((most.getD 1).min 1)) else (least, most)
  if least = 0 ∧ most = some 0 then .empty
  else if least = 1 ∧ most = some 1 then body
  else .repeated body least most greedy

/-! ## Ends -/

/-- Whether every match starts at the start of the text. -/
def startsText : Pattern → Bool
  | .here anchor => anchor = .textStart
  | .group _ body => body.startsText
  | .seq first rest => first.startsText || (first.takesNothing && rest.startsText)
  | .alt first rest => first.startsText && rest.startsText
  | .repeated body least _ _ => 0 < least && body.startsText
  | _ => false

def endsText : Pattern → Bool
  | .here anchor => anchor = .textEnd
  | .group _ body => body.endsText
  | .seq first rest => rest.endsText || (rest.takesNothing && first.endsText)
  | .alt first rest => first.endsText && rest.endsText
  | .repeated body least _ _ => 0 < least && body.endsText
  | _ => false

end Pattern

end Proviso
