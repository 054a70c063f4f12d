/- # Proviso.Proofs.Schema.BreadthFirst -- the order in which types are found

A breadth-first order of the types that a root leads to begins with the root, goes on with the types
that the fields of the first type lead to, then with those of the second, and so on, each type where
it is first found.  There is one such order only (`BreadthFirst.unique`), though this says what it is
in terms of itself, and it is the order of the search (`reachable_breadthFirst`). -/
import Mathlib.Data.List.Infix
import Proviso.Proofs.Schema.Discovery

namespace Proviso

set_option autoImplicit false

namespace Catalog

variable {catalog : Catalog}

/-! ## First finds -/

/-- Of the types listed, those that have not been found, each where it is listed first. -/
def fresh (found new : List catalog.TypeId) : List catalog.TypeId :=
  (new.removeAll found).eraseDups

theorem mem_fresh {found new : List catalog.TypeId} {type : catalog.TypeId} :
    type ∈ fresh found new ↔ type ∈ new ∧ type ∉ found := by
  simp [fresh, List.removeAll]

theorem fresh_nil (new : List catalog.TypeId) : fresh [] new = new.eraseDups := by
  rw [fresh, List.removeAll_nil]

theorem discover_eq (found new : List catalog.TypeId) :
    catalog.discover found new = found ++ fresh found new := by
  induction new generalizing found with
  | nil => simp [discover, fresh, List.removeAll]
  | cons next rest ih =>
    rw [discover, List.foldl_cons]
    show catalog.discover _ rest = _
    rw [ih]
    by_cases known : next ∈ found
    · rw [if_pos known]
      simp [fresh, List.removeAll, known]
    · rw [if_neg known, List.append_assoc]
      simp [fresh, List.removeAll, known, List.eraseDups_cons, List.filter_filter, Bool.and_comm,
        Bool.beq_eq_decide_eq]

theorem nodup_fresh (found new : List catalog.TypeId) : (fresh found new).Nodup := by
  rw [fresh, ← fresh_nil, ← List.nil_append (fresh [] _), ← discover_eq]
  exact discover_nodup _ List.nodup_nil

/-- What is fresh depends on which types have been found and on nothing else. -/
theorem fresh_congr {found known : List catalog.TypeId} (same : ∀ type, type ∈ found ↔ type ∈ known)
    (new : List catalog.TypeId) : fresh found new = fresh known new := by
  unfold fresh List.removeAll
  congr 1
  refine List.filter_congr fun type _ => ?_
  simp [same]

/-- What has been found, in order, once types have been looked at one after another: the root, and
what each of them leads to. -/
def finds (root : catalog.TypeId) (handled : List catalog.TypeId) : List catalog.TypeId :=
  (root :: handled.flatMap fun type => (catalog.type type).elements).eraseDups

section Finds

variable {root : catalog.TypeId} {handled : List catalog.TypeId}

theorem mem_finds {type : catalog.TypeId} :
    type ∈ finds root handled ↔
      type = root ∨ ∃ before ∈ handled, type ∈ (catalog.type before).elements := by
  rw [finds, List.mem_eraseDups, List.mem_cons, List.mem_flatMap]

theorem nodup_finds : (finds root handled).Nodup := by
  rw [finds, ← fresh_nil]
  exact nodup_fresh [] _

theorem finds_nil : finds root [] = [root] := by
  simp [finds, List.eraseDups_cons]

/-- To look at one more type adds what is fresh of that to which it leads. -/
theorem finds_concat (type : catalog.TypeId) :
    finds root (handled ++ [type]) =
      finds root handled ++ fresh (finds root handled) (catalog.type type).elements := by
  have listed : (root :: (handled ++ [type]).flatMap fun type => (catalog.type type).elements) =
      (root :: handled.flatMap fun type => (catalog.type type).elements) ++
        (catalog.type type).elements := by
    simp
  rw [finds, listed, List.eraseDups_append]
  congr 1
  exact fresh_congr (fun _ => List.mem_eraseDups.symm) _

/-- More is found as more types are looked at. -/
theorem finds_prefix {more : List catalog.TypeId} (grows : handled <+: more) :
    finds root handled <+: finds root more := by
  obtain ⟨later, rfl⟩ := grows
  unfold finds
  rw [List.flatMap_append, ← List.cons_append, List.eraseDups_append]
  exact List.prefix_append _ _

end Finds

/-! ## The order -/

/-- The list holds the types that the root leads to, each where it is first found by looking at the
listed types one after another. -/
structure BreadthFirst (catalog : Catalog) (root : catalog.TypeId)
    (order : List catalog.TypeId) : Prop where
  mem_iff : ∀ type, type ∈ order ↔ catalog.LeadsTo root type
  order_eq : order = finds root order

namespace BreadthFirst

variable {root : catalog.TypeId} {order handled : List catalog.TypeId}

theorem nodup (breadth_first : catalog.BreadthFirst root order) : order.Nodup := by
  rw [breadth_first.order_eq]
  exact nodup_finds

/-- While types are looked at in the order, what is found is the beginning of the order. -/
theorem finds_prefix (breadth_first : catalog.BreadthFirst root order)
    (in_order : handled <+: order) : finds root handled <+: order := by
  rw [breadth_first.order_eq]
  exact Catalog.finds_prefix in_order

/-- When nothing is left to be looked at, all that the root leads to has been found. -/
theorem of_finds_eq (closed : handled = finds root handled)
    (led : ∀ type ∈ handled, catalog.LeadsTo root type) : catalog.BreadthFirst root handled := by
  refine ⟨fun type => ⟨led type, fun leads => ?_⟩, closed⟩
  induction leads with
  | root =>
    rw [closed]
    exact mem_finds.mpr (.inl rfl)
  | step _ link ih =>
    rw [closed]
    exact mem_finds.mpr (.inr ⟨_, ih, link⟩)

/-- A beginning of the order that finds itself only is all of the order. -/
theorem eq_of_finds_eq (breadth_first : catalog.BreadthFirst root order)
    (in_order : handled <+: order) (closed : handled = finds root handled) : handled = order := by
  have led : ∀ type ∈ handled, catalog.LeadsTo root type := fun type listed =>
    (breadth_first.mem_iff type).mp (in_order.subset listed)
  have all := of_finds_eq closed led
  obtain ⟨later, rfl⟩ := in_order
  cases later with
  | nil => rw [List.append_nil]
  | cons next rest =>
    have again : next ∈ handled := (all.mem_iff next).mpr
      ((breadth_first.mem_iff next).mp (List.mem_append_right _ List.mem_cons_self))
    exact absurd rfl ((List.nodup_append.mp breadth_first.nodup).2.2 next again next
      List.mem_cons_self)

end BreadthFirst

/-! ## The search -/

section Search

variable {root : catalog.TypeId} {position : Nat} {found : List catalog.TypeId}

/-- In one round one more of the types found is looked at. -/
theorem discover_eq_finds (in_order : found = finds root (found.take position))
    {type : catalog.TypeId} (here : found[position]? = some type) :
    catalog.discover found (catalog.type type).elements =
      finds root (found.take (position + 1)) := by
  obtain ⟨inside, at_place⟩ := List.getElem?_eq_some_iff.mp here
  rw [discover_eq, List.take_succ_eq_append_getElem inside, at_place, finds_concat, ← in_order]

theorem take_discover {type : catalog.TypeId} (here : found[position]? = some type)
    (new : List catalog.TypeId) :
    (catalog.discover found new).take (position + 1) = found.take (position + 1) := by
  obtain ⟨inside, -⟩ := List.getElem?_eq_some_iff.mp here
  rw [discover_eq, List.take_append_of_le_length inside]

/-- With as many rounds as there are types, what is found by looking at the types found is all. -/
theorem explore_eq_finds {rounds : Nat} (enough : catalog.size ≤ rounds + position)
    (in_order : found = finds root (found.take position)) :
    catalog.explore rounds position found = finds root (catalog.explore rounds position found) := by
  have ended (past : found.length ≤ position) : found = finds root found := by
    rwa [List.take_of_length_le past] at in_order
  induction rounds generalizing position found with
  | zero =>
    have distinct : found.Nodup := in_order ▸ nodup_finds
    have counted := distinct.length_le_card
    rw [Fintype.card_fin] at counted
    exact ended (by omega)
  | succ rounds ih =>
    unfold explore
    cases here : found[position]? with
    | none => exact ended (List.getElem?_eq_none_iff.mp here)
    | some type =>
      have onward := discover_eq_finds in_order here
      rw [← take_discover here (catalog.type type).elements] at onward
      refine ih (by omega) onward fun past => ?_
      rwa [List.take_of_length_le past] at onward

/-- The search finds types in the order, if there is one. -/
theorem explore_prefix_of_breadthFirst {rounds : Nat} {order : List catalog.TypeId}
    (breadth_first : catalog.BreadthFirst root order)
    (in_order : found = finds root (found.take position)) (front : found <+: order) :
    catalog.explore rounds position found <+: order := by
  induction rounds generalizing position found with
  | zero => exact front
  | succ rounds ih =>
    unfold explore
    cases here : found[position]? with
    | none => exact front
    | some type =>
      have onward := discover_eq_finds in_order here
      refine ih ?_ ?_
      · rwa [take_discover here]
      · rw [onward]
        exact breadth_first.finds_prefix ((List.take_prefix _ _).trans front)

end Search

/-- The search goes breadth first. -/
theorem reachable_breadthFirst (root : catalog.TypeId) :
    catalog.BreadthFirst root (catalog.reachable root) := by
  refine .of_finds_eq (explore_eq_finds (Nat.le_refl _) ?_) fun type => mem_reachable_iff.mp
  rw [List.take_zero, finds_nil]

/-- There is one breadth-first order only. -/
theorem BreadthFirst.unique {root : catalog.TypeId} {order : List catalog.TypeId}
    (breadth_first : catalog.BreadthFirst root order) : order = catalog.reachable root := by
  have alone : [root] = finds root ([root].take 0) := by rw [List.take_zero, finds_nil]
  have front : [root] <+: order := finds_nil ▸ breadth_first.finds_prefix List.nil_prefix
  have searched : catalog.reachable root <+: order :=
    explore_prefix_of_breadthFirst breadth_first alone front
  exact (breadth_first.eq_of_finds_eq searched (reachable_breadthFirst root).order_eq).symm

end Catalog

end Proviso
