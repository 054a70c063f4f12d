/- # Proviso.Walk.Path -- the way to a value

A path says how a value is reached from the root: by fields, by positions in sequences, and through
maps, where the entry goes unsaid. -/

namespace Proviso

set_option autoImplicit false

inductive Segment where
  | field (name : String)
  | index (position : Nat)
  | mapValue
  deriving DecidableEq, Repr

structure FieldPath where
  /-- The steps, the last one first. -/
  back : List Segment
  deriving DecidableEq, Repr

namespace FieldPath

def root : FieldPath := ⟨[]⟩

def push (path : FieldPath) (segment : Segment) : FieldPath := ⟨segment :: path.back⟩

def pop (path : FieldPath) : FieldPath := ⟨path.back.tail⟩

def last? (path : FieldPath) : Option Segment := path.back.head?

/-- The steps, the first one first. -/
def segments (path : FieldPath) : List Segment := path.back.reverse

theorem pop_push (path : FieldPath) (segment : Segment) : (path.push segment).pop = path := rfl

theorem segments_push (path : FieldPath) (segment : Segment) :
    (path.push segment).segments = path.segments ++ [segment] := by
  simp [segments, push]

/-- The text of a step; a field is set off by a dot. -/
def segmentText : Segment → List Char
  | .field name => '.' :: name.toList
  | .index position => '[' :: (Nat.toDigits 10 position ++ [']'])
  | .mapValue => ['\x7b', '\x7d']

/-- The text of the steps of a path; no dot stands in first place. -/
def textOf : List Segment → List Char
  | .field name :: rest => name.toList ++ rest.flatMap segmentText
  | segments => segments.flatMap segmentText

def render (path : FieldPath) : String := String.ofList (textOf path.segments)

end FieldPath

end Proviso
