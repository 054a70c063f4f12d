/- # Proviso.Unicode.RangeTable -- sets of code points as ascending ranges

A property of characters is a list of closed ranges of code points in ascending order.  The order
lets a search stop at the first range that starts past the code point.

The operations on tables keep ranges apart: two that meet, or that no code point stands between, are
made one.  So equal sets have equal tables, up to the surrogates, which are no characters. -/

namespace Proviso.Unicode

set_option autoImplicit false

/-- Closed ranges of code points, ascending and apart from each other. -/
abbrev RangeTable := List (Nat × Nat)

def lastCode : Nat := 0x10ffff

namespace RangeTable

/-- Whether the ranges are ascending, and some code point stands between each two of them. -/
def isAscending : RangeTable → Bool
  | [] => true
  | [(first, last)] => first ≤ last
  | (first, last) :: (next, last') :: rest =>
    first ≤ last && last + 1 < next && isAscending ((next, last') :: rest)

/-! ## Search -/

def contains : RangeTable → Nat → Bool
  | [], _ => false
  | (first, last) :: rest, code =>
    if code < first then false else code ≤ last || contains rest code

/-- A table holds a code point only if one of its ranges does. -/
theorem exists_of_contains {table : RangeTable} {code : Nat}
    (h : table.contains code = true) : ∃ range ∈ table, range.1 ≤ code ∧ code ≤ range.2 := by
  induction table with
  | nil => simp [RangeTable.contains] at h
  | cons range rest ih =>
    obtain ⟨first, last⟩ := range
    simp only [RangeTable.contains] at h
    split at h
    · simp at h
    · next past =>
      simp only [Bool.or_eq_true, decide_eq_true_eq] at h
      rcases h with h | h
      · exact ⟨_, List.mem_cons_self, by simp only; omega, h⟩
      · obtain ⟨found, member, bounds⟩ := ih h
        exact ⟨found, List.mem_cons_of_mem _ member, bounds⟩

/-! ## Operations -/

/-- Adds a range, which takes in the ranges that it meets. -/
def insert (first last : Nat) : RangeTable → RangeTable
  | [] => [(first, last)]
  | (low, high) :: rest =>
    if last + 1 < low then (first, last) :: (low, high) :: rest
    else if high + 1 < first then (low, high) :: insert first last rest
    else insert (min first low) (max last high) rest

def union (left right : RangeTable) : RangeTable :=
  right.foldl (fun table range => table.insert range.1 range.2) left

def inter (left right : RangeTable) : RangeTable :=
  left.flatMap fun a => right.filterMap fun b =>
    let first := max a.1 b.1
    let last := min a.2 b.2
    if first ≤ last then some (first, last) else none

/-- The code point of the character after one; the surrogates are passed over. -/
def nextCode (code : Nat) : Nat := if code = 0xd7ff then 0xe000 else code + 1

/-- The code point of the character before one; the surrogates are passed over. -/
def previousCode (code : Nat) : Nat := if code = 0xe000 then 0xd7ff else code - 1

/-- The gaps after a range that ends at `high`.  Where only surrogates stand between two ranges, the
characters beside the surrogates make up the gap. -/
def gapsAfter (high : Nat) : RangeTable → RangeTable
  | [] => if high < lastCode then [(nextCode high, lastCode)] else []
  | (low, high') :: rest =>
    let first := nextCode high
    let last := previousCode low
    (min first last, max first last) :: gapsAfter high' rest

def compl : RangeTable → RangeTable
  | [] => [(0, lastCode)]
  | (low, high) :: rest =>
    if low = 0 then gapsAfter high rest else (0, previousCode low) :: gapsAfter high rest

def diff (left right : RangeTable) : RangeTable := left.inter right.compl

end RangeTable

end Proviso.Unicode
