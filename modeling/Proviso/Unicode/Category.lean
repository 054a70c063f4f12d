/- # Proviso.Unicode.Category -- general categories

Every code point is in one of thirty categories.  The tables are those of version 17.0 of the
character database; those of version 16.0, which character classes go by, are told from what was
added and changed since. -/
import Proviso.Unicode.Table.Letter
import Proviso.Unicode.Table.Mark
import Proviso.Unicode.Table.Number
import Proviso.Unicode.Table.Punctuation
import Proviso.Unicode.Table.Separator
import Proviso.Unicode.Table.Symbol

namespace Proviso.Unicode

set_option autoImplicit false

inductive Category where
  | uppercaseLetter
  | lowercaseLetter
  | titlecaseLetter
  | modifierLetter
  | otherLetter
  | nonspacingMark
  | spacingMark
  | enclosingMark
  | decimalNumber
  | letterNumber
  | otherNumber
  | connectorPunctuation
  | dashPunctuation
  | openPunctuation
  | closePunctuation
  | initialPunctuation
  | finalPunctuation
  | otherPunctuation
  | mathSymbol
  | currencySymbol
  | modifierSymbol
  | otherSymbol
  | spaceSeparator
  | lineSeparator
  | paragraphSeparator
  | control
  | format
  | surrogate
  | privateUse
  | unassigned
  deriving DecidableEq, Repr

namespace Category

/-! ## Groups -/

def letters : List Category :=
  [.uppercaseLetter, .lowercaseLetter, .titlecaseLetter, .modifierLetter, .otherLetter]

def marks : List Category :=
  [.nonspacingMark, .spacingMark, .enclosingMark]

def numbers : List Category :=
  [.decimalNumber, .letterNumber, .otherNumber]

def punctuation : List Category :=
  [.connectorPunctuation, .dashPunctuation, .openPunctuation, .closePunctuation,
    .initialPunctuation, .finalPunctuation, .otherPunctuation]

def symbols : List Category :=
  [.mathSymbol, .currencySymbol, .modifierSymbol, .otherSymbol]

def separators : List Category :=
  [.spaceSeparator, .lineSeparator, .paragraphSeparator]

/-- Letters that are of one case, or of both. -/
def cased : List Category :=
  [.uppercaseLetter, .lowercaseLetter, .titlecaseLetter]

def others : List Category :=
  [.control, .format, .surrogate, .privateUse]

/-- All categories but the last. -/
def assigned : List Category :=
  letters ++ marks ++ numbers ++ punctuation ++ symbols ++ separators ++ others

/-! ## Members -/

def table : Category → RangeTable
  | .uppercaseLetter => Table.uppercaseLetter
  | .lowercaseLetter => Table.lowercaseLetter
  | .titlecaseLetter => Table.titlecaseLetter
  | .modifierLetter => Table.modifierLetter
  | .otherLetter => Table.otherLetter
  | .nonspacingMark => Table.nonspacingMark
  | .spacingMark => Table.spacingMark
  | .enclosingMark => Table.enclosingMark
  | .decimalNumber => Table.decimalNumber
  | .letterNumber => Table.letterNumber
  | .otherNumber => Table.otherNumber
  | .connectorPunctuation => Table.connectorPunctuation
  | .dashPunctuation => Table.dashPunctuation
  | .openPunctuation => Table.openPunctuation
  | .closePunctuation => Table.closePunctuation
  | .initialPunctuation => Table.initialPunctuation
  | .finalPunctuation => Table.finalPunctuation
  | .otherPunctuation => Table.otherPunctuation
  | .mathSymbol => Table.mathSymbol
  | .currencySymbol => Table.currencySymbol
  | .modifierSymbol => Table.modifierSymbol
  | .otherSymbol => Table.otherSymbol
  | .spaceSeparator => Table.spaceSeparator
  | .lineSeparator => Table.lineSeparator
  | .paragraphSeparator => Table.paragraphSeparator
  | .control => Table.control
  | .format => Table.format
  | .surrogate => Table.surrogate
  | .privateUse => Table.privateUse
  | .unassigned => []

/-- The code points that are in no other category. -/
def unassignedTable : RangeTable :=
  RangeTable.compl ((assigned.map table).foldl .union [])

def of (code : Nat) : Category :=
  (assigned.find? fun category => category.table.contains code).getD .unassigned

example : assigned.all fun category => category.table.isAscending := by decide +kernel

example : of 0x41 = .uppercaseLetter ∧ of 0x20 = .spaceSeparator ∧ of 0x301 = .nonspacingMark ∧
    of 0x378 = .unassigned := by
  decide +kernel

end Category

/-! ## The version before -/

/-- The code points that version 17.0 added to version 16.0. -/
def newest : RangeTable := [
  (0x88f, 0x88f), (0xc5c, 0xc5c), (0xcdc, 0xcdc), (0x1acf, 0x1add), (0x1ae0, 0x1aeb),
  (0x20c1, 0x20c1), (0x2b96, 0x2b96), (0xa7ce, 0xa7cf), (0xa7d2, 0xa7d2), (0xa7d4, 0xa7d4),
  (0xa7f1, 0xa7f1), (0xfbc3, 0xfbd2), (0xfd90, 0xfd91), (0xfdc8, 0xfdce), (0x10940, 0x10959),
  (0x10ec5, 0x10ec7), (0x10ed0, 0x10ed8), (0x10efa, 0x10efb), (0x11b60, 0x11b67),
  (0x11db0, 0x11ddb), (0x11de0, 0x11de9), (0x16ea0, 0x16eb8), (0x16ebb, 0x16ed3),
  (0x16ff2, 0x16ff6), (0x187f8, 0x187ff), (0x18d09, 0x18d1e), (0x18d80, 0x18df2),
  (0x1ccfa, 0x1ccfc), (0x1ceba, 0x1ced0), (0x1cee0, 0x1cef0), (0x1e6c0, 0x1e6de),
  (0x1e6e0, 0x1e6f5), (0x1e6fe, 0x1e6ff), (0x1f6d8, 0x1f6d8), (0x1f777, 0x1f77a),
  (0x1f8d0, 0x1f8d8), (0x1fa54, 0x1fa57), (0x1fa8a, 0x1fa8a), (0x1fa8e, 0x1fa8e),
  (0x1fac8, 0x1fac8), (0x1facd, 0x1facd), (0x1faea, 0x1faea), (0x1faef, 0x1faef),
  (0x1fbfa, 0x1fbfa), (0x2b73a, 0x2b73f), (0x2cea2, 0x2cead), (0x323b0, 0x33479)]

/-- The code points of a category in version 16.0.  A letter that has no case now was in lower case
then. -/
def Category.earlierTable : Category → RangeTable
  | .unassigned => Category.unassignedTable.union newest
  | .lowercaseLetter => (Table.lowercaseLetter.insert 0x295 0x295).diff newest
  | .otherLetter => (Table.otherLetter.diff [(0x295, 0x295)]).diff newest
  | category => category.table.diff newest

end Proviso.Unicode
