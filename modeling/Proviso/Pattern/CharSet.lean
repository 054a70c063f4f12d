/- # Proviso.Pattern.CharSet -- sets of characters

Character classes of patterns are sets of characters, built from ranges and named sets by union,
intersection and complement.  Named sets go by version 16.0 of the character database. -/
import Proviso.Unicode.CaseFold
import Proviso.Unicode.Identifier

namespace Proviso

set_option autoImplicit false

/-- A set of characters, as ranges of code points in ascending order. -/
structure CharSet where
  ranges : Unicode.RangeTable
  deriving DecidableEq, Repr

namespace CharSet

def contains (set : CharSet) (c : Char) : Bool := set.ranges.contains c.toNat

/-! ## Operations -/

def union (left right : CharSet) : CharSet := ⟨left.ranges.union right.ranges⟩

def inter (left right : CharSet) : CharSet := ⟨left.ranges.inter right.ranges⟩

def compl (set : CharSet) : CharSet := ⟨set.ranges.compl⟩

def diff (left right : CharSet) : CharSet := ⟨left.ranges.diff right.ranges⟩

def symmDiff (left right : CharSet) : CharSet := (left.union right).diff (left.inter right)

/-- The set together with all case variants of its characters. -/
def closeCase (set : CharSet) : CharSet := ⟨set.ranges.closeCase⟩

def single? (set : CharSet) : Option Char :=
  match set.ranges with
  | [(first, last)] => if first = last then some (Char.ofNat first) else none
  | _ => none

/-! ## Sets by what is in them -/

def empty : CharSet := ⟨[]⟩

/-- The code points from one to another, both included. -/
def range (first last : Nat) : CharSet := ⟨[(first, last)]⟩

def char (c : Char) : CharSet := range c.toNat c.toNat

def between (first last : Char) : CharSet := range first.toNat last.toNat

def any (sets : List CharSet) : CharSet := sets.foldl union empty

def all : CharSet := range 0 Unicode.lastCode

def ofCategories (categories : List Unicode.Category) : CharSet :=
  any (categories.map fun category => ⟨category.earlierTable⟩)

/-! ## Named sets -/

/-- Letters, numbers that are written with letters, and marks and signs that letters go with. -/
def alphabetic : CharSet :=
  (ofCategories (.letterNumber :: Unicode.Category.letters)).union
    ⟨Unicode.otherAlphabetic.diff Unicode.newest⟩

/-- Decimal digits of every script. -/
def decimalDigit : CharSet := ofCategories [.decimalNumber]

/-- The characters of words, of every script, and the two that join characters. -/
def word : CharSet :=
  any [alphabetic, ofCategories Unicode.Category.marks, decimalDigit,
    ofCategories [.connectorPunctuation], range 0x200c 0x200d]

def blank : CharSet := ⟨Unicode.blank⟩

def asciiUpper : CharSet := between 'A' 'Z'
def asciiLower : CharSet := between 'a' 'z'
def asciiLetter : CharSet := asciiUpper.union asciiLower
def asciiDigit : CharSet := between '0' '9'

/-- The ASCII sets that a class names between `[:` and `:]`. -/
def ofAsciiName? : String → Option CharSet
  | "alnum" => some (asciiLetter.union asciiDigit)
  | "alpha" => some asciiLetter
  | "ascii" => some (range 0 0x7f)
  | "blank" => some (any [char '\t', char ' '])
  | "cntrl" => some (any [range 0 0x1f, range 0x7f 0x7f])
  | "digit" => some asciiDigit
  | "graph" => some (between '!' '~')
  | "lower" => some asciiLower
  | "print" => some (between ' ' '~')
  | "punct" => some (any [between '!' '/', between ':' '@', between '[' '\x60',
      between '\x7b' '~'])
  | "space" => some (any [between '\t' '\r', char ' '])
  | "upper" => some asciiUpper
  | "word" => some (any [asciiLetter, asciiDigit, char '_'])
  | "xdigit" => some (any [asciiDigit, between 'A' 'F', between 'a' 'f'])
  | _ => none

/-! ## Properties -/

/-- The categories that go by a name or an abbreviation, in small letters and without spaces. -/
def categoriesNamed? : String → Option (List Unicode.Category)
  | "l" | "letter" => some Unicode.Category.letters
  | "lc" | "casedletter" => some Unicode.Category.cased
  | "lu" | "uppercaseletter" => some [.uppercaseLetter]
  | "ll" | "lowercaseletter" => some [.lowercaseLetter]
  | "lt" | "titlecaseletter" => some [.titlecaseLetter]
  | "lm" | "modifierletter" => some [.modifierLetter]
  | "lo" | "otherletter" => some [.otherLetter]
  | "m" | "mark" | "combiningmark" => some Unicode.Category.marks
  | "mn" | "nonspacingmark" => some [.nonspacingMark]
  | "mc" | "spacingmark" => some [.spacingMark]
  | "me" | "enclosingmark" => some [.enclosingMark]
  | "n" | "number" => some Unicode.Category.numbers
  | "nd" | "decimalnumber" | "digit" => some [.decimalNumber]
  | "nl" | "letternumber" => some [.letterNumber]
  | "no" | "othernumber" => some [.otherNumber]
  | "p" | "punctuation" | "punct" => some Unicode.Category.punctuation
  | "pc" | "connectorpunctuation" => some [.connectorPunctuation]
  | "pd" | "dashpunctuation" => some [.dashPunctuation]
  | "ps" | "openpunctuation" => some [.openPunctuation]
  | "pe" | "closepunctuation" => some [.closePunctuation]
  | "pi" | "initialpunctuation" => some [.initialPunctuation]
  | "pf" | "finalpunctuation" => some [.finalPunctuation]
  | "po" | "otherpunctuation" => some [.otherPunctuation]
  | "s" | "symbol" => some Unicode.Category.symbols
  | "sm" | "mathsymbol" => some [.mathSymbol]
  | "sc" | "currencysymbol" => some [.currencySymbol]
  | "sk" | "modifiersymbol" => some [.modifierSymbol]
  | "so" | "othersymbol" => some [.otherSymbol]
  | "z" | "separator" => some Unicode.Category.separators
  | "zs" | "spaceseparator" => some [.spaceSeparator]
  | "zl" | "lineseparator" => some [.lineSeparator]
  | "zp" | "paragraphseparator" => some [.paragraphSeparator]
  | "c" | "other" => some (.unassigned :: Unicode.Category.others)
  | "cc" | "control" | "cntrl" => some [.control]
  | "cf" | "format" => some [.format]
  | "co" | "privateuse" => some [.privateUse]
  | "cn" | "unassigned" => some [.unassigned]
  | _ => none

/-- A name without what does not count in it: case, spaces, hyphens, underscores and all that is not
ASCII. -/
def plainName (name : List Char) : List Char :=
  (name.filter fun c => c.toNat < 128 && !(c == ' ' || c == '-' || c == '_')).map Char.toLower

/-- The name of a property, before which a word may stand that does not count. -/
def propertyName (name : List Char) : List Char :=
  match name with
  | i :: s :: rest =>
    if i.toLower = 'i' ∧ s.toLower = 's' ∧ plainName rest ≠ ['c'] then plainName rest
    else plainName name
  | _ => plainName name

/-- The properties that a pattern can name, in any spelling. -/
def ofPropertyName? (name : List Char) : Option CharSet :=
  match String.ofList (propertyName name) with
  | "any" => some all
  | "assigned" => some (ofCategories [.unassigned]).compl
  | "ascii" => some (range 0 0x7f)
  | "alpha" | "alphabetic" => some alphabetic
  | "space" | "whitespace" | "wspace" => some blank
  | plain => (categoriesNamed? plain).map ofCategories

end CharSet

end Proviso
