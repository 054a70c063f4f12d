/- # Proviso.Derive.Implementation -- record views of declared types

For a struct without lifetime parameters, the implementation that shows it as a record: a list of
its fields with their names, types and annotations, and access to each field by its position in that
list.  Hidden fields are in neither; the others keep their own name or place in the struct for
access, whatever they are called in the list.

Errors come in the order of reading: whether the declaration is a struct, then each field, its
options before its tags, then the parameters.  The tags of a hidden field are not read. -/
import Proviso.Derive.Attribute

namespace Proviso.Derive

set_option autoImplicit false

/-! ## What is derived -/

/-- How a field of a struct is reached. -/
inductive Member where
  | named (name : String)
  | position (index : Nat)
  deriving DecidableEq, Repr

structure ShownField where
  member : Member
  name : String
  type : List Token
  tags : List TagEntry
  deriving DecidableEq, Repr

structure Implementation where
  name : String
  params : List Param
  bounds : List Token
  fields : List ShownField
  deriving DecidableEq, Repr

/-- A name without the mark of a raw identifier. -/
def plainName (name : String) : String :=
  match name.toList with
  | 'r' :: '#' :: rest => String.ofList rest
  | _ => name

/-- How a field is reached, and what it is called unless it is renamed. -/
def memberOf (position : Nat) (field : DeclaredField) : Member × String :=
  match field.name with
  | some name => (.named name, plainName name)
  | none => (.position position, toString position)

def ShownField.ofDeclared? (position : Nat) (field : DeclaredField) :
    Except DeriveError (Option ShownField) := do
  let options ← optionsOf field.attributes
  if options.skip then return none
  let (member, name) := memberOf position field
  return some ⟨member, options.rename.getD name, field.type, ← tagsOf field.attributes⟩

/-- The views of fields, the first of which has the given position. -/
def shownFields (position : Nat) : List DeclaredField → Except DeriveError (List ShownField)
  | [] => .ok []
  | field :: rest => do
    let shown ← ShownField.ofDeclared? position field
    return shown.toList ++ (← shownFields (position + 1) rest)

/-- Derives the implementation for a declaration. -/
def derive (declaration : Declaration) : Except DeriveError Implementation :=
  match declaration.keyword with
  | .enum | .union => .error .notAStruct
  | .struct => do
    let fields ← shownFields 0 declaration.fields
    if declaration.params.any (·.kind == .lifetime) then throw .lifetimeParameter
    return ⟨declaration.name, declaration.params, declaration.bounds, fields⟩

/-! ## Its text -/

/-- Items joined by commas, without one at the end. -/
def commaJoined (items : List String) : String := " , ".intercalate items

namespace Implementation

def inspectPath : String := ": : fieldcheck_core : : Inspect"

/-- Parameters in angle brackets, nothing if there are none. -/
def angled (items : List String) : String :=
  if items.isEmpty then "" else spaced ["<", commaJoined items, ">"]

def implParams (impl : Implementation) : String :=
  angled (impl.params.map fun param => Token.writeAll param.tokens)

def typeParams (impl : Implementation) : String :=
  angled (impl.params.map (·.name))

/-- The bounds of the declaration, and that every type parameter can be inspected. -/
def whereClause (impl : Implementation) : String :=
  let types := (impl.params.filter (·.kind == .type)).map fun param =>
    spaced [param.name, ":", inspectPath, "+ ' static"]
  let given := Token.writeAll impl.bounds
  let separator := if impl.bounds.isEmpty || types.isEmpty ||
    impl.bounds.getLast?.any (·.isChar ',') then "" else ","
  if given.isEmpty && types.isEmpty then ""
  else spaced ["where", given, separator, commaJoined types]

def tagText (entry : TagEntry) : String :=
  spaced ["(", (Token.ofText entry.tag).written, ",", entry.rule.written, ")"]

def fieldText (field : ShownField) : String :=
  spaced [": : fieldcheck_core : : FieldDescriptor : : new (", (Token.ofText field.name).written,
    ", & [", commaJoined (field.tags.map tagText), "] , <", Token.writeAll field.type, "as",
    inspectPath, "> : : record_descriptor , )"]

def descriptorText (impl : Implementation) : String :=
  spaced [": : fieldcheck_core : : TypeDescriptor : : new : : < Self > (",
    (Token.ofText impl.name).written, ", : : std : : vec ! [",
    commaJoined (impl.fields.map fieldText), "] , )"]

def memberText : Member → String
  | .named name => name
  | .position index => toString index

/-- Access to a field by its position in the list of fields. -/
def armText (index : Nat) (field : ShownField) : String :=
  spaced [toString index ++ "usize", "= >", inspectPath, ": : inspect ( & self .",
    memberText field.member, ") ,"]

/-- Access to fields, the first of which has the given position. -/
def armTexts (index : Nat) : List ShownField → List String
  | [] => []
  | field :: rest => armText index field :: armTexts (index + 1) rest

def block (parts : List String) : String := spaced ("\x7b" :: (parts ++ ["\x7d"]))

def inspectText (impl : Implementation) : String :=
  block ["fn inspect ( & self ) - > : : fieldcheck_core : : Value < ' _ >",
    block [": : fieldcheck_core : : Value : : Record ( self )"],
    "fn record_descriptor ( ) - > : : core : : option : : Option <",
    ": : fieldcheck_core : : TypeDescriptor >",
    block [": : core : : option : : Option : : Some (", impl.descriptorText, ")"]]

def recordText (impl : Implementation) : String :=
  block ["fn type_key ( & self ) - > : : core : : any : : TypeId",
    block [": : core : : any : : TypeId : : of : : < Self > ( )"],
    "fn descriptor ( & self ) - > : : fieldcheck_core : : TypeDescriptor",
    block [impl.descriptorText],
    "fn field ( & self , index : usize ) - > : : fieldcheck_core : : Value < ' _ >",
    block ["match index", block (armTexts 0 impl.fields ++
      ["_ = > : : fieldcheck_core : : Value : : Nil ,"])]]

def text (impl : Implementation) : String :=
  let head (interface : String) : String :=
    spaced ["impl", impl.implParams, interface, "for", impl.name, impl.typeParams, impl.whereClause]
  spaced [head inspectPath, impl.inspectText, head ": : fieldcheck_core : : Record",
    impl.recordText]

end Implementation

end Proviso.Derive
