/- # Proviso.Derive.Attribute -- what attributes say about a field

Two attributes count.  `inspect` has entries `skip`, which hides the field, and `rename`, which
gives it another name; of several names the last one holds.  `tag` has entries that give an
annotation for a tag.  Entries stand in brackets of any kind and are separated by commas, of which
one may stand at the end; the first entry that is not as it should be is the error. -/
import Proviso.Derive.Declaration

namespace Proviso.Derive

set_option autoImplicit false

/-! ## Errors -/

inductive DeriveError where
  | notAStruct
  | lifetimeParameter
  | missingArguments (attr : String)
  | missingParentheses (attr : String)
  | unknownOption
  | noTagName
  | noEquals
  | noComma
  /-- An entry starts with a literal, or with something else than a name. -/
  | noEntryName (literal : Bool)
  /-- `atEnd` is whether nothing is there at all. -/
  | noEntry (atEnd : Bool)
  | noName (atEnd : Bool)
  | noText (atEnd : Bool)
  deriving DecidableEq, Repr

/-- How a message starts when there is nothing left to read. -/
def endOfInput (atEnd : Bool) : String := if atEnd then "unexpected end of input, " else ""

def DeriveError.message : DeriveError → String
  | .notAStruct => "Inspect can only be derived for structs"
  | .lifetimeParameter => "Inspect cannot be derived for types with lifetime parameters"
  | .missingArguments attr =>
    "expected attribute arguments in parentheses: #[" ++ attr ++ "(...)]"
  | .missingParentheses attr => "expected parentheses: #[" ++ attr ++ "(...)]"
  | .unknownOption => "expected `skip` or `rename = \"...\"`"
  | .noTagName => "expected a tag name"
  | .noEquals => "expected `=`"
  | .noComma => "expected `,`"
  | .noEntryName true => "unexpected literal in nested attribute, expected ident"
  | .noEntryName false => "unexpected token in nested attribute, expected ident"
  | .noEntry atEnd => endOfInput atEnd ++ "expected nested attribute"
  | .noName atEnd => endOfInput atEnd ++ "expected ident"
  | .noText atEnd => endOfInput atEnd ++ "expected string literal"

/-! ## Entries -/

structure Entry where
  tokens : List Token
  /-- Whether nothing comes after the entry. -/
  last : Bool
  deriving DecidableEq, Repr

/-- Splits tokens at commas; nothing after the last comma is no entry. -/
def entriesOf (tokens : List Token) : List Entry :=
  match tokens.splitOnP (·.isChar ',') with
  | parts =>
    let closed := parts.dropLast.map fun part => (⟨part, false⟩ : Entry)
    match parts.getLastD [] with
    | [] => closed
    | part => closed ++ [⟨part, true⟩]

/-- The name before an entry's value. -/
structure EntryName where
  /-- Whether it starts with a double colon. -/
  rooted : Bool
  segments : List String
  deriving DecidableEq, Repr

def EntryName.word? (name : EntryName) : Option String :=
  match name with
  | ⟨false, [word]⟩ => some word
  | _ => none

def readSegments (last : Bool) : List Token → Except DeriveError (List String × List Token)
  | .char ':' true :: .char ':' _ :: .word segment :: rest => do
    let (segments, rest) ← readSegments last rest
    return (segment :: segments, rest)
  | .char ':' true :: .char ':' _ :: rest => .error (.noName (last && rest.isEmpty))
  | rest => .ok ([], rest)

/-- Reads a name after the double colon it may start with. -/
def readName (last rooted : Bool) : List Token → Except DeriveError (EntryName × List Token)
  | .word first :: rest => do
    let (segments, rest) ← readSegments last rest
    return (⟨rooted, first :: segments⟩, rest)
  | [] => if last then .error (.noEntry true) else .error (.noEntryName false)
  | .literal _ _ :: _ | .char '-' _ :: .literal _ none :: _ => .error (.noEntryName true)
  | .char _ _ :: _ => .error (.noEntryName false)

/-- Reads the name of an entry, and leaves what follows it. -/
def Entry.readName (entry : Entry) : Except DeriveError (EntryName × List Token) :=
  match entry.tokens with
  | .char ':' true :: .char ':' _ :: rest => Derive.readName entry.last true rest
  | tokens => Derive.readName entry.last false tokens

def readText (last : Bool) : List Token → Except DeriveError (Token × String × List Token)
  | .char '=' _ :: .literal written (some text) :: rest =>
    .ok (.literal written (some text), text, rest)
  | .char '=' _ :: rest => .error (.noText (last && rest.isEmpty))
  | _ => .error .noEquals

def atEntryEnd : List Token → Except DeriveError Unit
  | [] => .ok ()
  | _ :: _ => .error .noComma

/-! ## Options -/

structure FieldOptions where
  skip : Bool
  rename : Option String
  deriving DecidableEq, Repr

def FieldOptions.add (options : FieldOptions) (entry : Entry) :
    Except DeriveError FieldOptions := do
  let (name, rest) ← entry.readName
  match name.word? with
  | some "skip" =>
    atEntryEnd rest
    return ⟨true, options.rename⟩
  | some "rename" =>
    let (_, text, rest) ← readText entry.last rest
    atEntryEnd rest
    return ⟨options.skip, some text⟩
  | _ => throw .unknownOption

/-- A tag and its annotation, as a string literal. -/
structure TagEntry where
  tag : String
  rule : Token
  deriving DecidableEq, Repr

def TagEntry.ofEntry (entry : Entry) : Except DeriveError TagEntry := do
  let (name, rest) ← entry.readName
  match name.word? with
  | none => throw .noTagName
  | some tag =>
    let (rule, _, rest) ← readText entry.last rest
    atEntryEnd rest
    return ⟨tag, rule⟩

/-! ## Attributes -/

def Attribute.entries (attr : Attribute) : Except DeriveError (List Entry) :=
  match attr.args with
  | .none => .error (.missingArguments attr.name)
  | .value => .error (.missingParentheses attr.name)
  | .list _ tokens => .ok (entriesOf tokens)

def FieldOptions.addAttribute (options : FieldOptions) (attr : Attribute) :
    Except DeriveError FieldOptions := do
  (← attr.entries).foldlM FieldOptions.add options

def optionsOf (attributes : List Attribute) : Except DeriveError FieldOptions :=
  (attributes.filter (·.name == "inspect")).foldlM FieldOptions.addAttribute ⟨false, none⟩

def tagsOfAttribute (attr : Attribute) : Except DeriveError (List TagEntry) := do
  (← attr.entries).mapM TagEntry.ofEntry

/-- The tags of a field, those of all `tag` attributes together. -/
def tagsOf (attributes : List Attribute) : Except DeriveError (List TagEntry) := do
  return (← (attributes.filter (·.name == "tag")).mapM tagsOfAttribute).flatten

end Proviso.Derive
