/- # Proviso.Proofs.Derive.Pieces -- texts put together from pieces

Pieces of a text are set off by spaces, and empty ones leave no trace.  So a text can be taken apart
into its first piece and the others (`spaced_cons`), and pieces that are put together first are the
same text as all of them at once (`glued_assoc`, `spaced_append`).  Groups of pieces that are joined
by commas are pieces with commas between the groups, as long as no group is empty
(`commaJoined_spaced`). -/
import Proviso.Derive.Implementation

namespace Proviso.Derive

set_option autoImplicit false

/-! ## Two texts -/

/-- Two texts, with a space between them unless one is empty. -/
def glued (front back : String) : String :=
  if front = "" then back else if back = "" then front else front ++ " " ++ back

theorem glued_empty_left (back : String) : glued "" back = back := if_pos rfl

theorem glued_empty_right (front : String) : glued front "" = front := by
  unfold glued
  split
  · exact Eq.symm ‹_›
  · exact if_pos rfl

theorem glued_of_ne_empty {front back : String} (some_front : front ≠ "") (some_back : back ≠ "") :
    glued front back = front ++ " " ++ back := by
  rw [glued, if_neg some_front, if_neg some_back]

theorem glued_ne_empty {front : String} (some_front : front ≠ "") (back : String) :
    glued front back ≠ "" := by
  by_cases no_back : back = ""
  · rwa [no_back, glued_empty_right]
  · rw [glued_of_ne_empty some_front no_back]
    simp [String.append_eq_empty_iff]

theorem glued_assoc (front between back : String) :
    glued (glued front between) back = glued front (glued between back) := by
  by_cases no_front : front = ""
  · rw [no_front, glued_empty_left, glued_empty_left]
  by_cases no_between : between = ""
  · rw [no_between, glued_empty_left, glued_empty_right]
  by_cases no_back : back = ""
  · rw [no_back, glued_empty_right, glued_empty_right]
  have some_start := glued_ne_empty no_front between
  have some_end := glued_ne_empty no_between back
  rw [glued_of_ne_empty some_start no_back, glued_of_ne_empty no_front some_end,
    glued_of_ne_empty no_front no_between, glued_of_ne_empty no_between no_back]
  simp only [String.append_assoc]

/-! ## Pieces -/

theorem spaced_nil : spaced [] = "" := String.intercalate_nil

theorem spaced_cons (piece : String) (rest : List String) :
    spaced (piece :: rest) = glued piece (spaced rest) := by
  by_cases no_piece : piece = ""
  · rw [no_piece, glued_empty_left]
    rfl
  have shown : (!piece.isEmpty) = true := by simp [no_piece]
  have filter_eq : (piece :: rest).filter (!·.isEmpty) = piece :: rest.filter (!·.isEmpty) :=
    List.filter_cons_of_pos shown
  unfold spaced
  rw [filter_eq]
  cases others : rest.filter (!·.isEmpty) with
  | nil => rw [String.intercalate_nil, glued_empty_right, String.intercalate_singleton]
  | cons next more =>
    have some_next : next ≠ "" := by
      have listed : next ∈ rest.filter (!·.isEmpty) := others ▸ List.mem_cons_self
      simpa [String.isEmpty_iff] using (List.mem_filter.mp listed).2
    have some_rest : " ".intercalate (next :: more) ≠ "" := by
      cases more with
      | nil => rwa [String.intercalate_singleton]
      | cons => simp [String.append_eq_empty_iff]
    rw [glued_of_ne_empty no_piece some_rest,
      String.intercalate_cons_of_ne_nil (List.cons_ne_nil next more)]

theorem spaced_append (front back : List String) :
    spaced (front ++ back) = glued (spaced front) (spaced back) := by
  induction front with
  | nil => rw [List.nil_append, spaced_nil, glued_empty_left]
  | cons piece rest ih => rw [List.cons_append, spaced_cons, spaced_cons, ih, glued_assoc]

theorem spaced_ne_empty {piece : String} (some_piece : piece ≠ "") (rest : List String) :
    spaced (piece :: rest) ≠ "" := by
  rw [spaced_cons]
  exact glued_ne_empty some_piece _

/-- Groups of pieces that are set off by spaces are all their pieces set off by spaces. -/
theorem spaced_map_spaced (groups : List (List String)) :
    spaced (groups.map spaced) = spaced groups.flatten := by
  induction groups with
  | nil => rfl
  | cons group rest ih => rw [List.map_cons, spaced_cons, ih, List.flatten_cons, spaced_append]

/-- Groups of pieces that are joined by commas are their pieces with commas between the groups. -/
theorem commaJoined_spaced {groups : List (List String)}
    (some_piece : ∀ group ∈ groups, spaced group ≠ "") :
    commaJoined (groups.map spaced) = spaced ([","].intercalate groups) := by
  induction groups with
  | nil => rfl
  | cons group rest ih =>
    obtain ⟨some_first, some_others⟩ := List.forall_mem_cons.mp some_piece
    cases rest with
    | nil => rw [List.map_singleton, commaJoined, String.intercalate_singleton,
        List.intercalate_singleton]
    | cons next more =>
      have some_rest : commaJoined ((next :: more).map spaced) ≠ "" := by
        have some_next := some_others next List.mem_cons_self
        rw [List.map_cons, commaJoined]
        cases more with
        | nil => rwa [List.map_nil, String.intercalate_singleton]
        | cons => simp [String.append_eq_empty_iff]
      have comma_behind : glued "," (commaJoined ((next :: more).map spaced)) ≠ "" :=
        glued_ne_empty (by decide) _
      calc commaJoined ((group :: next :: more).map spaced)
        _ = spaced group ++ " , " ++ commaJoined ((next :: more).map spaced) :=
          String.intercalate_cons_cons
        _ = spaced group ++ " " ++ ("," ++ " " ++ commaJoined ((next :: more).map spaced)) := by
          have comma_eq : " , " = " " ++ ("," ++ " ") := rfl
          rw [comma_eq]
          simp only [String.append_assoc]
        _ = glued (spaced group) (glued "," (commaJoined ((next :: more).map spaced))) := by
          rw [glued_of_ne_empty some_first comma_behind, glued_of_ne_empty (by decide) some_rest]
        _ = spaced ([","].intercalate (group :: next :: more)) := by
          rw [List.intercalate_cons_of_ne_nil (List.cons_ne_nil next more), List.append_assoc,
            spaced_append, List.singleton_append, spaced_cons, ih some_others]

end Proviso.Derive
