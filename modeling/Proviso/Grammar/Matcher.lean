/- # Proviso.Grammar.Matcher -- matching, and where a match failed

The matcher reads a phrase at a place in a text.  Beside the answer it keeps a record of failures at
the farthest place where a named phrase failed: the phrases that would have been welcome there, and
those whose presence was refused by a look ahead.  A failed alternative is given back, its
failures are not: they are what a report of the whole failure is made of.

A phrase whose parts failed at its own first character replaces them in the record, since the phrase
says more than its parts; when just one part failed there, the part is kept.

A phrase can only be entered again, without a character having been taken, if it is left recursive.
So in a grammar without left recursion the nesting depth is at most the number of phrases for each
character, and `Grammar.run` is given that many levels. -/
import Proviso.Grammar.Basic

namespace Proviso

set_option autoImplicit false

/-- A place in a text: what is left of it, and how many characters stand before. -/
structure Cursor where
  rest : List Char
  offset : Nat

namespace Cursor

/-- The place after the first `count` characters of what is left. -/
def skip (cursor : Cursor) (count : Nat) : Cursor :=
  ⟨cursor.rest.drop count, cursor.offset + count⟩

def textTo (start stop : Cursor) : List Char :=
  start.rest.take (stop.offset - start.offset)

end Cursor

/-- Whether blanks may stand between parts, and whether parts are reported. -/
inductive Spacing where
  | free
  | atomic
  | compound
  deriving DecidableEq

/-- Whether the matcher is looking ahead, and whether a match there counts for or against. -/
inductive Lookahead where
  | none
  | positive
  | negative
  deriving DecidableEq

/-- Within a look ahead that must fail, success and failure change places. -/
def Lookahead.flip : Lookahead → Lookahead
  | .none | .positive => .negative
  | .negative => .positive

structure Context where
  spacing : Spacing
  lookahead : Lookahead

/-- The failures at the farthest place, the earliest first. -/
structure Failures (Name : Type) where
  offset : Nat
  /-- The phrases that were looked for. -/
  expected : List Name
  /-- The phrases that were found where they must not stand. -/
  unwanted : List Name

namespace Failures

variable {Name : Type}

def initial : Failures Name := ⟨0, [], []⟩

def countAt (failures : Failures Name) (offset : Nat) : Nat :=
  if failures.offset = offset then failures.expected.length + failures.unwanted.length else 0

/-- The record after a phrase failed at `offset`, or was found where it must not stand.  `before` is
the record at the phrase's start. -/
def report (before failures : Failures Name) (lookahead : Lookahead) (name : Name)
    (offset : Nat) : Failures Name :=
  if failures.countAt offset = before.countAt offset + 1 then failures
  else if offset < failures.offset then failures
  else
    let kept : Failures Name :=
      if offset = failures.offset then
        if before.offset = offset then
          ⟨offset, failures.expected.take before.expected.length,
            failures.unwanted.take before.unwanted.length⟩
        else ⟨offset, [], []⟩
      else ⟨offset, [], []⟩
    match lookahead with
    | .negative => { kept with unwanted := kept.unwanted ++ [name] }
    | _ => { kept with expected := kept.expected ++ [name] }

end Failures

/-- What a form took: the nodes found and the place reached. -/
structure Found (Name : Type) where
  trees : List (Tree Name)
  cursor : Cursor

/-- A match that may fail; either way the record of failures goes on. -/
abbrev Outcome (Name : Type) := Option (Found Name) × Failures Name

abbrev Reader (Name : Type) := Context → Cursor → Failures Name → Outcome Name

namespace Grammar

variable {Name : Type} (grammar : Grammar Name)

/-- The place after the blanks, where blanks may stand. -/
def skipBlanks (context : Context) (cursor : Cursor) : Cursor :=
  match context.spacing with
  | .free => cursor.skip (cursor.rest.takeWhile grammar.blank).length
  | _ => cursor

/-- Reads on for as long as it succeeds, blanks between; blanks before a failure are given back. -/
def iterate (step : Cursor → Failures Name → Outcome Name) (context : Context) :
    Nat → Found Name → Failures Name → Outcome Name
  | 0, found, failures => (some found, failures)
  | budget + 1, found, failures =>
    match step (grammar.skipBlanks context found.cursor) failures with
    | (none, failures) => (some found, failures)
    | (some next, failures) =>
      iterate step context budget ⟨found.trees ++ next.trees, next.cursor⟩ failures

/-- Reads a form, given how to read the phrases in it.  A repetition whose every round takes a
character ends within as many rounds as characters are left. -/
def readForm (readInner : Name → Reader Name) : Form Name → Reader Name
  | .text chars => fun _ cursor failures =>
    (if chars.isPrefixOf cursor.rest then some ⟨[], cursor.skip chars.length⟩ else none, failures)
  | .textAnyCase chars => fun _ cursor failures =>
    (if (chars.map Char.toLower).isPrefixOf (cursor.rest.map Char.toLower) then
      some ⟨[], cursor.skip chars.length⟩ else none, failures)
  | .char accepts => fun _ cursor failures =>
    (match cursor.rest with
      | c :: _ => if accepts c then some ⟨[], cursor.skip 1⟩ else none
      | [] => none, failures)
  | .startOfInput => fun _ cursor failures =>
    (if cursor.offset = 0 then some ⟨[], cursor⟩ else none, failures)
  | .endOfInput => fun _ cursor failures =>
    (if cursor.rest.isEmpty then some ⟨[], cursor⟩ else none, failures)
  | .phrase name => readInner name
  | .seq first second => fun context cursor failures =>
    match readForm readInner first context cursor failures with
    | (none, failures) => (none, failures)
    | (some found, failures) =>
      let cursor := grammar.skipBlanks context found.cursor
      match readForm readInner second context cursor failures with
      | (none, failures) => (none, failures)
      | (some next, failures) => (some ⟨found.trees ++ next.trees, next.cursor⟩, failures)
  | .choice first second => fun context cursor failures =>
    match readForm readInner first context cursor failures with
    | (some found, failures) => (some found, failures)
    | (none, failures) => readForm readInner second context cursor failures
  | .optional form => fun context cursor failures =>
    match readForm readInner form context cursor failures with
    | (some found, failures) => (some found, failures)
    | (none, failures) => (some ⟨[], cursor⟩, failures)
  | .many form => fun context cursor failures =>
    match readForm readInner form context cursor failures with
    | (none, failures) => (some ⟨[], cursor⟩, failures)
    | (some found, failures) =>
      grammar.iterate (readForm readInner form context) context cursor.rest.length found failures
  | .notAhead form => fun context cursor failures =>
    let within := { context with lookahead := context.lookahead.flip }
    match readForm readInner form within cursor failures with
    | (some _, failures) => (none, failures)
    | (none, failures) => (some ⟨[], cursor⟩, failures)

/-- Whether the outcome of a named phrase goes on record. -/
def isReported (found : Option (Found Name)) (context : Context) : Bool :=
  context.spacing != .atomic && found.isSome == (context.lookahead == .negative)

def isNode (context : Context) : Bool :=
  context.spacing != .atomic && context.lookahead == .none

/-- Reads a phrase that is reported under its name: `body` reads its form. -/
def readNamed (name : Name) (body : Cursor → Failures Name → Outcome Name) : Reader Name :=
  fun context cursor before =>
    let (outcome, failures) := body cursor before
    (outcome.map fun found =>
        if isNode context then
          ⟨[.node name cursor.offset (cursor.textTo found.cursor) found.trees], found.cursor⟩
        else found,
      if isReported outcome context then
        before.report failures context.lookahead name cursor.offset
      else failures)

/-- Reads a phrase, given how to read the phrases in its form. -/
def readPhrase (readInner : Name → Reader Name) (name : Name) : Reader Name :=
  let body := grammar.readForm readInner (grammar.form name)
  match grammar.mode name with
  | .silent => body
  | .plain => fun context => readNamed name (body context) context
  | .atomic => fun context =>
    readNamed name (body { context with spacing := .atomic }) context
  | .compound => fun context =>
    let within := { context with spacing := .compound }
    readNamed name (body within) within

/-- Reads a phrase with phrases nested at most as deep as the given number of levels. -/
def run : Nat → Name → Reader Name
  | 0, _ => fun _ _ failures => (none, failures)
  | levels + 1, name => grammar.readPhrase (run levels) name

/-- Reads a phrase at the start of a text: what was found, and the record of failures. -/
def read (name : Name) (text : List Char) : Option (Found Name) × Failures Name :=
  grammar.run (grammar.names.length * (text.length + 1)) name ⟨.free, .none⟩ ⟨text, 0⟩
    Failures.initial

end Grammar

end Proviso
