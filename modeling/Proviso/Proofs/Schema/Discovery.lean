/- # Proviso.Proofs.Schema.Discovery -- the types that are found are those led to

A type leads to the types of its fields, and on to those of theirs (`Catalog.LeadsTo`).  The search
looks at one type after another in the order in which they were found.  What it has found and looked
at is closed up to what it has found, and each type is found once, so it cannot have more to look at
than there are types.  It ends with exactly the types that are led to (`mem_reachable_iff`). -/
import Mathlib.Data.Fintype.Card
import Proviso.Schema.Reachable

namespace Proviso

set_option autoImplicit false

namespace Catalog

variable {catalog : Catalog}

/-- One type leads to another one through fields, in any number of steps. -/
inductive LeadsTo (catalog : Catalog) (root : catalog.TypeId) : catalog.TypeId → Prop where
  | root : LeadsTo catalog root root
  | step {type next : catalog.TypeId} (before : LeadsTo catalog root type)
      (link : next ∈ (catalog.type type).elements) : LeadsTo catalog root next

theorem LeadsTo.trans {first second third : catalog.TypeId} (early : catalog.LeadsTo first second)
    (late : catalog.LeadsTo second third) : catalog.LeadsTo first third := by
  induction late with
  | root => exact early
  | step _ link ih => exact .step ih link

/-- A field leads from its type to the type of the records that it holds. -/
theorem LeadsTo.field {root type element : catalog.TypeId} {field : Field catalog.size}
    (before : catalog.LeadsTo root type) (declared : field ∈ (catalog.type type).fields)
    (holds : field.element = some element) : catalog.LeadsTo root element :=
  .step before (List.mem_filterMap.mpr ⟨field, declared, holds⟩)

/-! ## Adding what is new -/

theorem mem_discover {found new : List catalog.TypeId} {type : catalog.TypeId} :
    type ∈ catalog.discover found new ↔ type ∈ found ∨ type ∈ new := by
  induction new generalizing found with
  | nil => simp [discover]
  | cons next rest ih =>
    rw [discover, List.foldl_cons]
    show type ∈ catalog.discover _ rest ↔ _
    rw [ih]
    by_cases known : next ∈ found
    · rw [if_pos known, List.mem_cons]
      constructor
      · exact fun listed => listed.imp_right .inr
      · rintro (listed | rfl | listed)
        · exact .inl listed
        · exact .inl known
        · exact .inr listed
    · rw [if_neg known, List.mem_append, List.mem_singleton, List.mem_cons, or_assoc]

theorem discover_prefix (found new : List catalog.TypeId) :
    found <+: catalog.discover found new := by
  induction new generalizing found with
  | nil => exact List.prefix_rfl
  | cons next rest ih =>
    rw [discover, List.foldl_cons]
    refine .trans ?_ (ih _)
    by_cases known : next ∈ found
    · rw [if_pos known]
    · rw [if_neg known]
      exact List.prefix_append _ _

theorem discover_nodup {found : List catalog.TypeId} (new : List catalog.TypeId)
    (distinct : found.Nodup) : (catalog.discover found new).Nodup := by
  induction new generalizing found with
  | nil => exact distinct
  | cons next rest ih =>
    rw [discover, List.foldl_cons]
    by_cases known : next ∈ found
    · rw [if_pos known]
      exact ih distinct
    · rw [if_neg known]
      exact ih (distinct.append (List.nodup_singleton next)
        (List.disjoint_singleton.mpr known))

/-! ## Looking at one type after another -/

/-- What is found stays found. -/
theorem explore_prefix (rounds position : Nat) (found : List catalog.TypeId) :
    found <+: catalog.explore rounds position found := by
  induction rounds generalizing position found with
  | zero => exact List.prefix_rfl
  | succ rounds ih =>
    unfold explore
    cases found[position]? with
    | none => exact List.prefix_rfl
    | some type => exact (catalog.discover_prefix _ _).trans (ih _ _)

/-- Only what is led to is found. -/
theorem explore_leadsTo {root : catalog.TypeId} (rounds position : Nat)
    {found : List catalog.TypeId} (led : ∀ type ∈ found, catalog.LeadsTo root type) :
    ∀ type ∈ catalog.explore rounds position found, catalog.LeadsTo root type := by
  induction rounds generalizing position found with
  | zero => exact led
  | succ rounds ih =>
    unfold explore
    cases here : found[position]? with
    | none => exact led
    | some looked_at =>
      refine ih _ fun type listed => ?_
      rcases mem_discover.mp listed with known | new
      · exact led type known
      · exact .step (led looked_at (List.mem_of_getElem? here)) new

/-- What was found before the position leads only to what was found. -/
def LookedAt (catalog : Catalog) (position : Nat) (found : List catalog.TypeId) : Prop :=
  ∀ type ∈ found.take position, ∀ next ∈ (catalog.type type).elements, next ∈ found

theorem LookedAt.next {position : Nat} {found : List catalog.TypeId} {type : catalog.TypeId}
    (looked_at : catalog.LookedAt position found) (here : found[position]? = some type) :
    catalog.LookedAt (position + 1) (catalog.discover found (catalog.type type).elements) := by
  obtain ⟨inside, at_place⟩ := List.getElem?_eq_some_iff.mp here
  obtain ⟨later, longer⟩ := catalog.discover_prefix found (catalog.type type).elements
  have front : (catalog.discover found (catalog.type type).elements).take (position + 1) =
      found.take position ++ [type] := by
    rw [← longer, List.take_append_of_le_length (by omega), List.take_succ_eq_append_getElem inside,
      at_place]
  intro other listed next link
  rw [mem_discover]
  rw [front, List.mem_append, List.mem_singleton] at listed
  rcases listed with before | rfl
  · exact .inl (looked_at other before next link)
  · exact .inr link

/-- With as many rounds as there are types, everything that is found is looked at. -/
theorem explore_closed {rounds position : Nat} {found : List catalog.TypeId}
    (distinct : found.Nodup) (enough : catalog.size ≤ rounds + position)
    (looked_at : catalog.LookedAt position found) :
    ∀ type ∈ catalog.explore rounds position found, ∀ next ∈ (catalog.type type).elements,
      next ∈ catalog.explore rounds position found := by
  have all_looked_at (past : found.length ≤ position) :
      ∀ type ∈ found, ∀ next ∈ (catalog.type type).elements, next ∈ found := by
    intro type listed
    exact looked_at type (by rwa [List.take_of_length_le past])
  induction rounds generalizing position found with
  | zero =>
    have counted := distinct.length_le_card
    rw [Fintype.card_fin] at counted
    exact all_looked_at (by omega)
  | succ rounds ih =>
    unfold explore
    cases here : found[position]? with
    | none => exact all_looked_at (List.getElem?_eq_none_iff.mp here)
    | some type =>
      have onward := looked_at.next here
      refine ih (discover_nodup _ distinct) (by omega) onward fun past other listed => ?_
      exact onward other (by rwa [List.take_of_length_le past])

/-! ## What is reachable -/

theorem root_mem_reachable (root : catalog.TypeId) : root ∈ catalog.reachable root :=
  (catalog.explore_prefix _ _ [root]).subset (List.mem_singleton_self root)

/-- The search finds exactly the types that its root leads to. -/
theorem mem_reachable_iff {root type : catalog.TypeId} :
    type ∈ catalog.reachable root ↔ catalog.LeadsTo root type := by
  constructor
  · refine explore_leadsTo _ _ (fun other listed => ?_) type
    rw [List.mem_singleton] at listed
    exact listed ▸ .root
  · intro led
    have none_looked_at : catalog.LookedAt 0 [root] :=
      fun type never => absurd never List.not_mem_nil
    have closed := explore_closed (List.nodup_singleton root) (Nat.le_refl catalog.size)
      none_looked_at
    induction led with
    | root => exact root_mem_reachable root
    | step _ link ih => exact closed _ ih _ link

end Catalog

end Proviso
