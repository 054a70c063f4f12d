/- # Proviso.Pattern.Bracket -- character classes in brackets

Between brackets stand characters, ranges, escapes and further classes.  Two ampersands, hyphens or
tildes combine what stands before them with what stands after them, and group to the left. -/
import Proviso.Pattern.Escape

namespace Proviso

set_option autoImplicit false

/-- A class as read so far: what stands before the last operator, and the members after it, the last
one first. -/
structure OpenClass where
  pending : Option (CharClass × ClassOperator)
  members : List CharClass

namespace OpenClass

def empty : OpenClass := ⟨none, []⟩

def add (cls : OpenClass) (member : CharClass) : OpenClass := ⟨cls.pending, member :: cls.members⟩

def close (cls : OpenClass) : CharClass :=
  let right := CharClass.ofMembers cls.members.reverse
  match cls.pending with
  | none => right
  | some (left, op) => .combined op left right

def operator (cls : OpenClass) (op : ClassOperator) : OpenClass := ⟨some (cls.close, op), []⟩

end OpenClass

namespace CharClass

def readAsciiName : FrontReader CharClass
  | ':' :: rest => do
    let (negated, rest) := match rest with
      | '^' :: rest => (true, rest)
      | rest => (false, rest)
    match ← Escape.upTo? ':' rest with
    | (name, ']' :: rest) => do
      let set ← CharSet.ofAsciiName? (String.ofList name)
      return (.named set negated, rest)
    | _ => none
  | _ => none

/-- Reads the start of a class after a bracket: whether it is negated, and the hyphens or the
bracket that stand for themselves there. -/
def readStart (text : List Char) : Bool × OpenClass × List Char :=
  let (negated, text) := match text with
    | '^' :: rest => (true, rest)
    | text => (false, text)
  let hyphens := (text.takeWhile (· == '-')).map char
  match hyphens, text.dropWhile (· == '-') with
  | [], ']' :: rest => (negated, OpenClass.empty.add (char ']'), rest)
  | hyphens, rest => (negated, ⟨none, hyphens⟩, rest)

/-- Reads one member of a class; one that is a single character can start or end a range. -/
def readMember : FrontReader (CharClass × Option Char)
  | '\\' :: rest => do
    match ← Escape.read rest with
    | (.char c, rest) => return ((char c, some c), rest)
    | (.cls cls, rest) => return ((cls, none), rest)
    | (.anchor _, _) => none
  | c :: rest => some ((char c, some c), rest)
  | [] => none

def readRange : FrontReader CharClass := fun text => do
  match ← readMember text with
  | ((cls, _), '-' :: ']' :: rest) => return (cls, '-' :: ']' :: rest)
  | ((cls, _), '-' :: '-' :: rest) => return (cls, '-' :: '-' :: rest)
  | ((_, first), '-' :: rest) => do
    let ((_, last), rest) ← readMember rest
    let first ← first
    let last ← last
    if first ≤ last then some (ofSet (.between first last), rest) else none
  | ((cls, _), rest) => return (cls, rest)

/-- Reads the rest of a class.  Every round takes a character, so as many rounds as there are
characters are enough. -/
def readRest : Nat → OpenClass → FrontReader CharClass
  | 0, _, _ => none
  | rounds + 1, cls, text =>
    match text with
    | [] => none
    | ']' :: rest => some (cls.close, rest)
    | '[' :: rest =>
      match readAsciiName rest with
      | some (member, rest) => readRest rounds (cls.add member) rest
      | none => do
        let (negated, start, rest) := readStart rest
        let (body, rest) ← readRest rounds start rest
        readRest rounds (cls.add (.inner body negated)) rest
    | '&' :: '&' :: rest => readRest rounds (cls.operator .inter) rest
    | '-' :: '-' :: rest => readRest rounds (cls.operator .diff) rest
    | '~' :: '~' :: rest => readRest rounds (cls.operator .symmDiff) rest
    | text => do
      let (member, rest) ← readRange text
      readRest rounds (cls.add member) rest

def readBracket : FrontReader CharClass := fun text => do
  let (negated, cls, rest) := readStart text
  let (body, rest) ← readRest (rest.length + 1) cls rest
  return (.inner body negated, rest)

end CharClass

end Proviso
