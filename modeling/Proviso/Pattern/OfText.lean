/- # Proviso.Pattern.OfText -- patterns from text

The tokens of a pattern are put together from the left.  Groups are kept on a stack; a flag holds
from where it is switched to the end of the group, across the alternatives in it.  A pattern may
neither be nested too deep nor be too large.

This is one dialect among others, and nothing depends on it.  It has no scripts and no scoped names
of properties, no comments, and no flags but those of case, lines, dots and greed. -/
import Proviso.Pattern.Library
import Proviso.Pattern.Match
import Proviso.Pattern.Size
import Proviso.Pattern.Token

namespace Proviso

set_option autoImplicit false

/-! ## Flags in force -/

structure PatternFlags where
  anyCase : Bool
  multiLine : Bool
  dotAll : Bool
  swapGreed : Bool
  deriving DecidableEq, Repr

namespace PatternFlags

def off : PatternFlags := ⟨false, false, false, false⟩

def switch (flags : PatternFlags) (change : PatternFlag × Bool) : PatternFlags :=
  let ⟨anyCase, multiLine, dotAll, swapGreed⟩ := flags
  match change with
  | (.anyCase, on) => ⟨on, multiLine, dotAll, swapGreed⟩
  | (.multiLine, on) => ⟨anyCase, on, dotAll, swapGreed⟩
  | (.dotAll, on) => ⟨anyCase, multiLine, on, swapGreed⟩
  | (.swapGreed, on) => ⟨anyCase, multiLine, dotAll, on⟩
  | (.codePoints, _) => flags

end PatternFlags

/-! ## Written patterns -/

/-- A pattern and how deep it is nested as it is written. -/
structure WrittenPattern where
  pattern : Pattern
  depth : Nat

namespace WrittenPattern

def maxDepth : Nat := 250

/-- Several patterns, put together to one that is a level above them. -/
def above (put : List Pattern → Pattern) : List WrittenPattern → WrittenPattern
  | [written] => written
  | [] => ⟨put [], 0⟩
  | several => ⟨put (several.map (·.pattern)), (several.map (·.depth)).foldl max 0 + 1⟩

end WrittenPattern

/-- A group as read so far.  Of its lists the last member comes first. -/
structure OpenGroup where
  /-- The number of the group, if it has one. -/
  number : Option Nat
  /-- The flags in force before the group. -/
  outer : PatternFlags
  /-- The alternatives before the one being read. -/
  alternatives : List WrittenPattern
  /-- The parts of the alternative being read. -/
  parts : List WrittenPattern
  /-- Whether the last part can be repeated. -/
  repeatable : Bool

namespace OpenGroup

def empty (number : Option Nat) (outer : PatternFlags) : OpenGroup := ⟨number, outer, [], [], false⟩

/-- The alternatives, with the one being read. -/
def settled (group : OpenGroup) : List WrittenPattern :=
  .above Pattern.join group.parts.reverse :: group.alternatives

def push (group : OpenGroup) (part : WrittenPattern) : OpenGroup :=
  ⟨group.number, group.outer, group.alternatives, part :: group.parts, true⟩

/-- A place where flags are switched is a part that describes no characters and is not repeated. -/
def pushSwitch (group : OpenGroup) : OpenGroup :=
  ⟨group.number, group.outer, group.alternatives, ⟨.empty, 0⟩ :: group.parts, false⟩

def nextAlternative (group : OpenGroup) : OpenGroup :=
  ⟨group.number, group.outer, group.settled, [], false⟩

def repeatLast? (group : OpenGroup) (least : Nat) (most : Option Nat) (greedy : Bool) :
    Option OpenGroup :=
  match group.parts, group.repeatable with
  | last :: parts, true =>
    some ⟨group.number, group.outer, group.alternatives,
      ⟨last.pattern.repetition least most greedy, last.depth + 1⟩ :: parts, true⟩
  | _, _ => none

def body (group : OpenGroup) : WrittenPattern := .above Pattern.choose group.settled.reverse

def close (group : OpenGroup) : WrittenPattern :=
  let ⟨pattern, depth⟩ := group.body
  match group.number with
  | some number => ⟨.group number pattern, depth + 1⟩
  | none => ⟨pattern, depth + 1⟩

end OpenGroup

structure OpenPattern where
  flags : PatternFlags
  /-- How many groups have numbers. -/
  numbered : Nat
  /-- The names of groups, each of which must be new. -/
  names : List String
  group : OpenGroup
  /-- The groups around it, the innermost first. -/
  around : List OpenGroup

namespace OpenPattern

def empty : OpenPattern := ⟨.off, 0, [], .empty none .off, []⟩

def withGroup (state : OpenPattern) (group : OpenGroup) : OpenPattern :=
  ⟨state.flags, state.numbered, state.names, group, state.around⟩

def push (state : OpenPattern) (pattern : Pattern) (depth : Nat) : OpenPattern :=
  state.withGroup (state.group.push ⟨pattern, depth⟩)

def enter (state : OpenPattern) (flags : PatternFlags) (numbered : Nat) (names : List String)
    (number : Option Nat) : OpenPattern :=
  ⟨flags, numbered, names, .empty number state.flags, state.group :: state.around⟩

def add? (state : OpenPattern) : PatternToken → Option OpenPattern
  | .char c =>
    let pattern := if state.flags.anyCase then .ofSet (CharSet.char c).closeCase else .char c
    some (state.push pattern 0)
  | .cls cls => some (state.push (.ofSet (cls.toSet state.flags.anyCase)) cls.depth)
  | .dot =>
    let set := if state.flags.dotAll then CharSet.all else (CharSet.char '\n').compl
    some (state.push (.ofSet set) 0)
  | .start => some (state.push (.here (if state.flags.multiLine then .lineStart else .textStart)) 0)
  | .stop => some (state.push (.here (if state.flags.multiLine then .lineEnd else .textEnd)) 0)
  | .anchor anchor => some (state.push (.here anchor) 0)
  | .repeated least most few =>
    (state.group.repeatLast? least most (few == state.flags.swapGreed)).map state.withGroup
  | .alternate => some (state.withGroup state.group.nextAlternative)
  | .flags switches =>
    some ⟨switches.foldl .switch state.flags, state.numbered, state.names, state.group.pushSwitch,
      state.around⟩
  | .enter switches =>
    some (state.enter (switches.foldl .switch state.flags) state.numbered state.names none)
  | .enterNumbered name =>
    let number := state.numbered + 1
    if name.any state.names.contains then none
    else some (state.enter state.flags number (name.toList ++ state.names) (some number))
  | .leave =>
    match state.around with
    | outer :: around =>
      some ⟨state.group.outer, state.numbered, state.names, outer.push state.group.close, around⟩
    | [] => none

def close? (state : OpenPattern) : Option WrittenPattern :=
  match state.around with
  | [] => some state.group.body
  | _ :: _ => none

end OpenPattern

/-- The pattern that a text writes down; there is none for some texts. -/
def Pattern.ofText? (text : String) : Option Pattern := do
  let chars := text.toList
  let tokens ← PatternToken.readAll chars.length chars
  let ⟨pattern, depth⟩ ← (← tokens.foldlM OpenPattern.add? .empty).close?
  if depth ≤ WrittenPattern.maxDepth ∧ pattern.fits then some pattern else none

abbrev Pattern.library : PatternLibrary :=
  ⟨Pattern, Pattern.ofText?, fun pattern text => pattern.accepts text.toList⟩

end Proviso
