/- # Proviso.Function.Contact -- mail addresses and phone numbers

A mail address is checked for its shape alone.  A phone number is checked against the numbering plan
of a region: the requested one, or for a number in international form the first region whose calling
code it starts with, the requested region before the others.  Spaces, hyphens, parentheses and dots
in a number do not count. -/
import Proviso.Function.Basic
import Proviso.Pattern.Match

namespace Proviso

set_option autoImplicit false

/-! ## Mail addresses -/

/-- Characters on both sides of the at sign. -/
def mailChar : CharSet :=
  .any [.asciiLetter, .asciiDigit, .char '_', .char '-', .char '.']

/-- Characters before the at sign, which may be ideographs, too. -/
def mailboxChar : CharSet := mailChar.union (.range 0x4e00 0x9fa5)

/-- A mailbox, an at sign, a host, a dot and a domain of two to eight letters. -/
def mailAddress : Pattern := .row [.here .textStart,
  .oneOrMore (.one mailboxChar), .char '@', .oneOrMore (.one mailChar), .char '.',
  .between (.one .asciiLetter) 2 8, .here .textEnd]

def isMailAddress : List Datum → Judgement
  | [] => .missing 0
  | .str text :: _ =>
    if mailAddress.accepts text.toList then .pass else .fail "email format is incorrect"
  | _ :: _ => .fail "email format is incorrect"

/-! ## Regions -/

structure Region where
  name : String
  callingCode : String
  /-- The numbers of the region, without the calling code. -/
  national : Pattern
  deriving DecidableEq

namespace Region

def digitOf (first last : Char) : Pattern := .one (.between first last)

def digit : Pattern := digitOf '0' '9'

/-- Between `least` and `most` digits. -/
def digits (least most : Nat) : Pattern := .between digit least most

/-- The trunk prefix, which may be left out. -/
def trunk : Pattern := .optional (.char '0')

def whole (parts : List Pattern) : Pattern :=
  .row (.here .textStart :: (parts ++ [.here .textEnd]))

def northAmerica : Pattern := whole [.optional (.char '1'), digitOf '2' '9', digits 2 2,
  digitOf '2' '9', digits 6 6]

def known : List Region := [
  ⟨"CN", "86", whole [.alt (.row [.char '1', digitOf '3' '9', digits 9 9])
    (.row [trunk, digitOf '1' '9', digits 8 10])]⟩,
  ⟨"US", "1", northAmerica⟩,
  ⟨"CA", "1", northAmerica⟩,
  ⟨"GB", "44", whole [trunk, .alt (.row [.char '7', digits 9 9])
    (.row [digitOf '1' '9', digits 8 9])]⟩,
  ⟨"DE", "49", whole [trunk, .alt (.row [.char '1', digitOf '5' '7', digits 8 9])
    (.row [digitOf '2' '9', digits 5 10])]⟩,
  ⟨"FR", "33", whole [trunk, digitOf '1' '9', digits 8 8]⟩,
  ⟨"JP", "81", whole [trunk, .alt (.row [digitOf '7' '9', .char '0', digits 8 8])
    (.row [digitOf '1' '9', digits 8 8])]⟩,
  ⟨"IN", "91", whole [trunk, digitOf '6' '9', digits 9 9]⟩,
  ⟨"HK", "852", whole [digitOf '2' '9', digits 7 7]⟩,
  ⟨"TW", "886", whole [trunk, .char '9', digits 8 8]⟩]

/-- The region of a name, in any letter case. -/
def named? (name : String) : Option Region :=
  let upper := String.ofList (name.toList.map Char.toUpper)
  known.find? (·.name == upper)

/-- Whether a number in international form starts with the calling code of the region. -/
def dials (region : Region) (number : List Char) : Bool :=
  region.callingCode.toList.isPrefixOf number

/-- The region that a number in international form belongs to. -/
def dialled? (requested : Region) (number : List Char) : Option Region :=
  (requested :: known).find? (·.dials number)

end Region

/-! ## Phone numbers -/

inductive PhoneFault where
  | notANumber
  | badFormat
  | badRegion
  deriving DecidableEq, Repr

def PhoneFault.message : PhoneFault → String
  | .notANumber => "the phone number supplied is not a number"
  | .badFormat => "phone format is incorrect"
  | .badRegion => "invalid country code"

/-- Whether a character in a phone number does not count. -/
def isPhoneFiller (c : Char) : Bool :=
  c == ' ' || c == '-' || c == '(' || c == ')' || c == '.'

/-- Whether the text is a row of digits, at least one. -/
def isDigits (text : List Char) : Bool := !text.isEmpty && text.all Char.isDigit

def checkNational (region : Region) (number : List Char) : Except PhoneFault Unit :=
  if region.national.accepts number then .ok () else .error .badFormat

def checkPhone (requested : Region) (text : List Char) : Except PhoneFault Unit :=
  match text.filter (!isPhoneFiller ·) with
  | '+' :: number =>
    if isDigits number then
      match Region.dialled? requested number with
      | some region => checkNational region (number.drop region.callingCode.length)
      | none => .error .badRegion
    else .error .notANumber
  | number => if isDigits number then checkNational requested number else .error .notANumber

/-- The region that a call asks for; without one it is the first that is known. -/
def requestedRegion? : List Datum → Option Region
  | _ :: .str name :: _ => Region.named? name
  | _ :: _ :: _ => none
  | _ => Region.named? "CN"

def checkPhoneArgs (args : List Datum) : Except PhoneFault Unit :=
  match requestedRegion? args, args with
  | none, _ => .error .badRegion
  | some region, .str text :: _ => checkPhone region text.toList
  | some _, _ => .error .notANumber

def isPhone (args : List Datum) : Judgement :=
  match args, checkPhoneArgs args with
  | [], _ => .missing 0
  | _, .ok () => .pass
  | _, .error fault => .fail fault.message

namespace Function

def email : Function := ⟨"email", 1, some 1, .predicate isMailAddress, false⟩

def phone : Function := ⟨"phone", 1, some 2, .predicate isPhone, false⟩

end Function

end Proviso
