/- # Proviso.Pattern.Size -- how large a pattern is

The size of a pattern is that of the automata that follow it, one through a text and one back
through it.  The states are counted in the order in which they are made, from a plan that says what
is made for each part of the pattern; counting stops at the first state that is too many, so that
large repetitions cost no more than they may.

Where a part of an automaton ends in a fork, being linked to what follows takes one way more. -/
import Proviso.Pattern.Basic
import Proviso.Pattern.SetSize
import Proviso.Pattern.TextTree

namespace Proviso

set_option autoImplicit false

/-! ## Plans -/

/-- What an automaton is made of, in the order in which it is made. -/
inductive AutomatonPlan where
  /-- A number of states, which together take some bytes in addition. -/
  | states (count extra : Nat)
  /-- A set with characters of more than one byte. -/
  | wide (rows : List ByteRow)
  | both (first second : AutomatonPlan)
  | copies (count : Nat) (each : AutomatonPlan)
  deriving Repr

namespace AutomatonPlan

def iterate? {α : Type} (step : α → Option α) : Nat → α → Option α
  | 0, a => some a
  | count + 1, a => (step a).bind (iterate? step count)

/-- The size of an automaton after a plan has been carried out. -/
def carryOut? (direction : Direction) : AutomatonPlan → AutomatonSize → Option AutomatonSize
  | .states count extra, size => size.grow? count extra
  | .wide rows, size =>
    let count := match direction with
      | .forward => SetCount.forward rows
      | .backward => SetCount.backward rows
    (count.run (∅, size)).map (·.2.2)
  | .both first second, size =>
    (first.carryOut? direction size).bind (second.carryOut? direction)
  | .copies count each, size => iterate? (each.carryOut? direction) count size

def all (plans : List AutomatonPlan) : AutomatonPlan := plans.foldr .both (.states 0 0)

end AutomatonPlan

namespace Pattern

open AutomatonSize (bytesPerRange bytesPerWay)

def endsInFork (direction : Direction) : Pattern → Bool
  | .group _ body => direction = .backward && body.endsInFork direction
  | .seq first rest =>
    match direction with
    | .forward => rest.endsInFork direction
    | .backward => first.endsInFork direction
  | .repeated body least none _ => 0 < least || body.takesSome
  | .repeated body least (some most) _ =>
    0 < least && least = most && body.endsInFork direction
  | _ => false

/-- The bytes it takes to link a pattern to what follows it. -/
def linkBytes (direction : Direction) (pattern : Pattern) : Nat :=
  if pattern.endsInFork direction then bytesPerWay else 0

def texts? : Pattern → Option (List (List Char))
  | .text chars => some [chars]
  | .alt (.text chars) rest => rest.texts?.map (chars :: ·)
  | _ => none

def planSet (set : CharSet) : AutomatonPlan :=
  if set.ranges.all (·.2 ≤ 0x7f) then .states 2 (set.ranges.length * bytesPerRange)
  else .wide (ByteRow.ofSet set)

def planTexts (direction : Direction) (texts : List (List Char)) : AutomatonPlan :=
  let texts := texts.map fun text =>
    let bytes := text.flatMap ByteRow.bytes
    if direction = .forward then bytes else bytes.reverse
  let (states, extra) := TextTree.size ((texts.map (·.length)).foldl max 0) texts
  .states (states + 1) extra

/-- The plan of a choice, from the plans of its branches.  The states where it starts and ends are
made after the second branch. -/
def planChoice (direction : Direction) (choice : Pattern) (plans : List AutomatonPlan) :
    AutomatonPlan :=
  match choice.texts?, plans with
  | some (first :: second :: more), _ => planTexts direction (first :: second :: more)
  | _, [plan] => plan
  | _, plans =>
    let extra := choice.branches.foldr (fun branch extra => bytesPerWay + branch.linkBytes direction + extra) 0
    .all (plans.take 2 ++ .states 2 extra :: plans.drop 2)

def planExactly (body : AutomatonPlan) (link : Nat) : Nat → AutomatonPlan
  | 0 => .states 1 0
  | count + 1 => .both (.copies count (.both body (.states 0 link))) body

/-- The plan of a repetition, from the plan of its body and what it takes to link that. -/
def planRepeated (body : AutomatonPlan) (link : Nat) (takesSome : Bool) :
    Nat → Option Nat → AutomatonPlan
  | 0, some 1 => .all [.states 1 0, body, .states 1 (2 * bytesPerWay + link)]
  | 0, none =>
    if takesSome then .all [.states 1 0, body, .states 0 (bytesPerWay + link)]
    else .both body (.states 3 (4 * bytesPerWay + link))
  | least + 1, none => .both (planExactly body link (least + 1)) (.states 1 (bytesPerWay + link))
  | least, some most =>
    if least = most then planExactly body link least
    else
      .all [planExactly body link least, .states 1 (if least = 0 then 0 else link),
        .copies (most - least)
          (.all [.states 1 0, body, .states 0 (2 * bytesPerWay + link)])]

/-- The plans of the branches of a pattern, which is the only one unless the pattern is a choice. -/
def branchPlans (direction : Direction) : Pattern → List AutomatonPlan
  | .empty | .here _ => [.states 1 0]
  | .text chars => [.states (chars.flatMap ByteRow.bytes).length 0]
  | .one set => [planSet set]
  | .group _ body =>
    let plan := planChoice direction body (body.branchPlans direction)
    match direction with
    | .forward => [.all [.states 1 0, plan, .states 1 (body.linkBytes direction)]]
    | .backward => [plan]
  | .seq first rest =>
    let firstPlan := planChoice direction first (first.branchPlans direction)
    let restPlan := planChoice direction rest (rest.branchPlans direction)
    match direction with
    | .forward => [.all [firstPlan, .states 0 (first.linkBytes direction), restPlan]]
    | .backward => [.all [restPlan, .states 0 (rest.linkBytes direction), firstPlan]]
  | .alt first rest =>
    planChoice direction first (first.branchPlans direction) :: rest.branchPlans direction
  | .repeated body least most _ =>
    let plan := planChoice direction body (body.branchPlans direction)
    [planRepeated plan (body.linkBytes direction) body.takesSome least most]

/-- The plan of the whole automaton of a pattern.  Unless the pattern is bound to the end of the
text where it starts, it is looked for at every place. -/
def plan (direction : Direction) (pattern : Pattern) : AutomatonPlan :=
  let bound := match direction with
    | .forward => pattern.startsText
    | .backward => pattern.endsText
  let search : AutomatonPlan :=
    if bound then .states 1 0 else .states 3 (bytesPerRange + 2 * bytesPerWay)
  let body := planChoice direction pattern (pattern.branchPlans direction)
  match direction with
  | .forward => .all [search, .states 1 0, body, .states 2 (pattern.linkBytes direction)]
  | .backward => .all [search, body, .states 1 (pattern.linkBytes direction)]

/-- Whether neither automaton of a pattern is too large. -/
def fits (pattern : Pattern) : Bool :=
  [Direction.forward, .backward].all fun direction =>
    ((pattern.plan direction).carryOut? direction .empty).isSome

end Pattern

end Proviso
