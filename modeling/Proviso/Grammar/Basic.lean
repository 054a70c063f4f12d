/- # Proviso.Grammar.Basic -- grammars with ordered choice

A grammar gives each of its phrases a form, and a mode that says how the phrase is read.  Forms have
ordered choice, greedy repetition and a look ahead that must fail.  Between the items of a sequence
and between repetitions blanks may stand, unless the phrase is atomic.

The same data has two readings: the matcher in `Proviso.Grammar.Matcher` takes the first choice that
works and the longest repetition, and reading it as a context-free grammar forgets those
preferences. -/

namespace Proviso

set_option autoImplicit false

/-- What a phrase looks like, over the names of other phrases. -/
inductive Form (Name : Type) where
  | text (chars : List Char)
  /-- Letters of the text match in either case. -/
  | textAnyCase (chars : List Char)
  | char (accepts : Char → Bool)
  | startOfInput
  | endOfInput
  | phrase (name : Name)
  | seq (first second : Form Name)
  /-- The second form is tried only where the first fails. -/
  | choice (first second : Form Name)
  | optional (form : Form Name)
  | many (form : Form Name)
  /-- Takes nothing, and fails where the form would match. -/
  | notAhead (form : Form Name)

namespace Form

variable {Name : Type}

def seqs : List (Form Name) → Form Name
  | [] => .text []
  | [form] => form
  | form :: rest => .seq form (seqs rest)

/-- The first of the forms that matches. -/
def choices : List (Form Name) → Form Name
  | [] => .notAhead (.text [])
  | [form] => form
  | form :: rest => .choice form (choices rest)

def atLeastOnce (form : Form Name) : Form Name := .seq form (.many form)

end Form

inductive Mode where
  /-- Blanks may stand between its parts, and it is a node of the tree. -/
  | plain
  /-- It is read in place: no node, and its failure is not reported under its name. -/
  | silent
  /-- No blanks between its parts, and nothing within it is a node or is reported. -/
  | atomic
  /-- No blanks between its parts, which are nodes like itself. -/
  | compound
  deriving DecidableEq

structure Grammar (Name : Type) where
  /-- All phrases, in the order in which reports list them. -/
  names : List Name
  form : Name → Form Name
  mode : Name → Mode
  /-- The characters that may stand between the parts of a phrase. -/
  blank : Char → Bool

/-- A phrase found in a text: where it starts, in characters, what it took, and the phrases that are
its parts. -/
inductive Tree (Name : Type) where
  | node (name : Name) (offset : Nat) (text : List Char) (children : List (Tree Name))

namespace Tree

variable {Name : Type}

def name : Tree Name → Name
  | .node name _ _ _ => name

def offset : Tree Name → Nat
  | .node _ offset _ _ => offset

def text : Tree Name → List Char
  | .node _ _ text _ => text

def children : Tree Name → List (Tree Name)
  | .node _ _ _ children => children

end Tree

end Proviso
