/- # Proviso.Pattern.Match -- matching

Matching follows all ways through a text at once: what is carried along is the set of places that
can be reached, as the bits of a number, and a pattern maps the places where it may start to the
places where it may end.  A repetition goes on only from places that it has not been at.

No way is ever retried, so a pattern decides only whether there is a match, not which. -/
import Proviso.Pattern.Basic

namespace Proviso

set_option autoImplicit false

/-! ## Places -/

namespace Pattern

/-- A truth value as the lowest bit of a number. -/
def bit (b : Bool) : Nat := if b then 1 else 0

/-- The places of a text where a character with the given property stands. -/
def placesOf (holds : Char → Bool) (text : List Char) : Nat :=
  text.foldr (fun c places => bit (holds c) + 2 * places) 0

def surroundings (text : List Char) : List (Option Char × Option Char) :=
  (none :: text.map some).zip (text.map some ++ [none])

def placesAt (anchor : Anchor) (text : List Char) : Nat :=
  (surroundings text).foldr (fun around places => bit (anchor.holds around.1 around.2) + 2 * places)
    0

end Pattern

/-! ## Layouts -/

/-- A pattern laid out over a text: in place of the sets and the anchors stand the places of the
text where they match. -/
inductive Layout where
  | empty
  | one (places : Nat)
  | here (places : Nat)
  | seq (first rest : Layout)
  | alt (first rest : Layout)
  | repeated (body : Layout) (least : Nat) (most : Option Nat)

namespace Layout

/-- Whether a repetition is one of the three that need no count: at most once, at least once, or
any number of times. -/
def isPlain (least : Nat) (most : Option Nat) : Bool := least ≤ 1 && (most.getD 1 == 1)

/-- A repetition.  One of the three plain ones repeated by another is one of the three again. -/
def repetition (body : Layout) (least : Nat) (most : Option Nat) : Layout :=
  match body with
  | .repeated inner least' most' =>
    if isPlain least most && isPlain least' most' then
      .repeated inner (least * least') (if most.isNone || most'.isNone then none else some 1)
    else .repeated body least most
  | _ => .repeated body least most

/-- The places reached by a step taken a number of times; a step that changes nothing changes
nothing later either. -/
def times (step : Nat → Nat) : Nat → Nat → Nat
  | 0, places => places
  | count + 1, places =>
    let reached := step places
    if reached = places then places else times step count reached

/-- The places reached by a step taken up to a number of times.  No step is taken from the places
left behind, because where it leads has been reached already. -/
def spread (step : Nat → Nat) : Nat → Nat → Nat → Nat
  | 0, _, reached => reached
  | count + 1, left, reached =>
    let fresh := reached ^^^ (reached &&& left)
    if fresh = 0 then reached else spread step count (left ||| fresh) (reached ||| step fresh)

/-- The places where the pattern can end when it starts at one of the given places.  Without a bound
a repetition ends after as many steps as there are places, `last` being the greatest. -/
def advance (last : Nat) : Layout → Nat → Nat
  | .empty, places => places
  | .one allowed, places => (places &&& allowed) <<< 1
  | .here allowed, places => places &&& allowed
  | .seq first rest, places => rest.advance last (first.advance last places)
  | .alt first rest, places => first.advance last places ||| rest.advance last places
  | .repeated body least most, places =>
    let step := body.advance last
    let extra := match most with
      | some most => most - least
      | none => last + 1
    match least with
    | 0 => spread step extra 0 places
    | least + 1 =>
      let start := times step least places
      spread step extra start (step start)

end Layout

namespace Pattern

/-! ## Matching -/

def layOut (text : List Char) : Pattern → Layout
  | .empty => .empty
  | .text chars => chars.foldr (fun c rest => .seq (.one (placesOf (· == c) text)) rest) .empty
  | .one set => .one (placesOf set.contains text)
  | .here anchor => .here (placesAt anchor text)
  | .group _ body => body.layOut text
  | .seq first rest => .seq (first.layOut text) (rest.layOut text)
  | .alt first rest => .alt (first.layOut text) (rest.layOut text)
  | .repeated body least most _ => (body.layOut text).repetition least most

def accepts (pattern : Pattern) (text : List Char) : Bool :=
  (pattern.layOut text).advance text.length (Nat.pow 2 (text.length + 1) - 1) != 0

end Pattern

end Proviso
