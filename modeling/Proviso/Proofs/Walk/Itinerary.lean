/- # Proviso.Proofs.Walk.Itinerary -- what there is to visit below a value

A descent goes from the root down through objects, and enters no object that it has entered before.
The itinerary of a value lists, depth first, what is met on all descents: every entry into a record,
and every visit to a field, each field before what lies below its value.  It is a function of the
heap alone: no rule is looked at, and nothing is kept from one descent to the next.

Two facts say what the list is.  A visit is in it exactly when a descent leads there
(`mem_visits_iff`), and the visits stand in the order of their addresses, a field before all below it
(`visits_sorted`). -/
import Mathlib.Data.Finset.Card
import Mathlib.Data.Fintype.Basic
import Proviso.Value.Heap
import Proviso.Walk.Path

namespace Proviso

set_option autoImplicit false

/-! ## Descents -/

/-- A way down from the root. -/
structure Trail (size : Nat) where
  /-- The position of each step among those that lead on from an object, the first step first. -/
  address : List Nat
  path : FieldPath
  /-- The objects entered, the last one first. -/
  entered : List (Fin size)

namespace Trail

variable {size : Nat}

def start : Trail size := ⟨[], .root, []⟩

/-- The trail through an object and on by one of its steps. -/
def down (trail : Trail size) (id : Fin size) (position : Nat) (segment : Segment) : Trail size :=
  ⟨trail.address ++ [position], trail.path.push segment, id :: trail.entered⟩

/-- How many objects have not been entered. -/
def fresh (trail : Trail size) : Nat := (Finset.univ \ trail.entered.toFinset).card

theorem fresh_down_lt {trail : Trail size} {id : Fin size} (unentered : id ∉ trail.entered)
    (position : Nat) (segment : Segment) : (trail.down id position segment).fresh < trail.fresh := by
  apply Finset.card_lt_card
  rw [Finset.ssubset_iff_of_subset]
  · exact ⟨id, by simp [unentered], by simp [down]⟩
  · simp only [down, List.toFinset_cons, ← Finset.compl_eq_univ_sdiff]
    exact Finset.compl_subset_compl.mpr (Finset.subset_insert id _)

end Trail

/-- A field of a record, reached from the root. -/
structure Visit (size : Nat) where
  address : List Nat
  path : FieldPath
  record : Fin size
  /-- The position of the field. -/
  position : Nat

namespace Heap

variable {catalog : Catalog} {size : Nat} (heap : Heap catalog size)

/-- The steps that lead on from an object, with the values that they lead to: to the declared fields
of a record, to the items of a sequence and to the values of a map. -/
def moves (id : Fin size) : List (Segment × Value size) :=
  match heap.object id with
  | .record type _ => (catalog.type type).fields.zipIdx.map fun place =>
      (.field place.1.name, (heap.object id).get (.field place.2))
  | .sequence items => items.zipIdx.map fun place => (.index place.2, place.1)
  | .map values => values.map fun value => (.mapValue, value)

section Moves

variable {heap} {id : Fin size} {move : Segment × Value size}

theorem mem_moves_record {type : catalog.TypeId} {values : List (Value size)}
    (holds : heap.object id = .record type values) :
    move ∈ heap.moves id ↔ ∃ position field, (catalog.type type).fields[position]? = some field ∧
      move = (.field field.name, (heap.object id).get (.field position)) := by
  unfold moves
  rw [holds]
  constructor
  · intro listed
    obtain ⟨⟨field, position⟩, placed, rfl⟩ := List.mem_map.mp listed
    exact ⟨position, field, List.mk_mem_zipIdx_iff_getElem?.mp placed, rfl⟩
  · rintro ⟨position, field, declared, rfl⟩
    exact List.mem_map.mpr ⟨(field, position), List.mk_mem_zipIdx_iff_getElem?.mpr declared, rfl⟩

theorem mem_moves_sequence {items : List (Value size)} (holds : heap.object id = .sequence items) :
    move ∈ heap.moves id ↔ ∃ position item, items[position]? = some item ∧
      move = (.index position, item) := by
  unfold moves
  rw [holds]
  constructor
  · intro listed
    obtain ⟨⟨item, position⟩, placed, rfl⟩ := List.mem_map.mp listed
    exact ⟨position, item, List.mk_mem_zipIdx_iff_getElem?.mp placed, rfl⟩
  · rintro ⟨position, item, placed, rfl⟩
    exact List.mem_map.mpr ⟨(item, position), List.mk_mem_zipIdx_iff_getElem?.mpr placed, rfl⟩

theorem mem_moves_map {values : List (Value size)} (holds : heap.object id = .map values) :
    move ∈ heap.moves id ↔ ∃ value ∈ values, move = (.mapValue, value) := by
  unfold moves
  rw [holds]
  simp only [List.mem_map, eq_comm]

/-- A step to a field leads to what the record holds at the place of the step. -/
theorem get_of_move {name : String} {child : Value size} {position : Nat}
    (placed : (heap.moves id)[position]? = some (.field name, child)) :
    (heap.object id).get (.field position) = child := by
  unfold moves at placed
  cases holds : heap.object id with
  | record type values =>
    rw [holds, List.getElem?_map, List.getElem?_zipIdx, Option.map_map] at placed
    obtain ⟨field, -, same⟩ := Option.map_eq_some_iff.mp placed
    simpa using congrArg Prod.snd same
  | sequence items =>
    rw [holds, List.getElem?_map] at placed
    obtain ⟨place, -, same⟩ := Option.map_eq_some_iff.mp placed
    cases same
  | map values =>
    rw [holds, List.getElem?_map] at placed
    obtain ⟨value, -, same⟩ := Option.map_eq_some_iff.mp placed
    cases same

end Moves

/-- One trail leads on to another one and its value, entering no object twice. -/
inductive Leads : Trail size → Value size → Trail size → Value size → Prop where
  | refl (trail : Trail size) (value : Value size) : Leads trail value trail value
  | step {trail last : Trail size} {id : Fin size} {position : Nat} {segment : Segment}
      {child value : Value size} (unentered : id ∉ trail.entered)
      (move : ((segment, child), position) ∈ (heap.moves id).zipIdx)
      (onward : Leads (trail.down id position segment) child last value) :
      Leads trail (.object id) last value

/-- A descent that goes on from a trail and its value leads to a field of a record. -/
def Visits (start : Trail size) (root : Value size) (visit : Visit size) : Prop :=
  ∃ (trail : Trail size) (name : String) (child : Value size),
    heap.Leads start root trail (.object visit.record) ∧ visit.record ∉ trail.entered ∧
      ((.field name, child), visit.position) ∈ (heap.moves visit.record).zipIdx ∧
      visit.address = trail.address ++ [visit.position] ∧ visit.path = trail.path.push (.field name)

end Heap

/-! ## Itineraries -/

/-- What is met on a descent. -/
inductive Event (catalog : Catalog) (size : Nat) where
  /-- A record of the type is entered. -/
  | enter (type : catalog.TypeId)
  /-- A field is visited. -/
  | check (visit : Visit size)

def Event.visit? {catalog : Catalog} {size : Nat} : Event catalog size → Option (Visit size)
  | .check visit => some visit
  | .enter _ => none

/-- What is met at the end of a trail that made its last step from an object. -/
def Trail.stop {catalog : Catalog} {size : Nat} (trail : Trail size) (id : Fin size)
    (position : Nat) : Segment → List (Event catalog size)
  | .field _ => [.check ⟨trail.address, trail.path, id, position⟩]
  | _ => []

namespace Heap

variable {catalog : Catalog} {size : Nat} (heap : Heap catalog size)

def arrival (id : Fin size) : List (Event catalog size) :=
  match heap.object id with
  | .record type _ => [.enter type]
  | _ => []

/-- What is met below a value, depth first. -/
def itinerary (trail : Trail size) : Value size → List (Event catalog size)
  | .object id =>
    if unentered : id ∈ trail.entered then []
    else heap.arrival id ++ (heap.moves id).zipIdx.flatMap fun move =>
      Trail.stop (trail.down id move.2 move.1.1) id move.2 move.1.1 ++
        itinerary (trail.down id move.2 move.1.1) move.1.2
  | _ => []
termination_by trail.fresh
decreasing_by exact Trail.fresh_down_lt unentered move.2 move.1.1

/-- The visits to fields below a root, in the order of the itinerary. -/
def visits (root : Value size) : List (Visit size) :=
  (heap.itinerary .start root).filterMap Event.visit?

theorem check_not_mem_arrival (visit : Visit size) (id : Fin size) :
    .check visit ∉ heap.arrival id := by
  unfold arrival
  cases heap.object id <;> simp

/-- The itinerary lists the fields that descents lead to. -/
theorem check_mem_itinerary (visit : Visit size) (trail : Trail size) (value : Value size) :
    .check visit ∈ heap.itinerary trail value ↔ heap.Visits trail value visit := by
  fun_induction heap.itinerary trail value with
  | case1 trail id again =>
    simp only [List.not_mem_nil, false_iff]
    rintro ⟨last, name, child, leads, unentered, -⟩
    cases leads with
    | refl => exact unentered again
    | step first => exact first again
  | case2 trail id unentered ih =>
    simp only [List.mem_append, heap.check_not_mem_arrival, false_or, List.mem_flatMap]
    constructor
    · rintro ⟨⟨⟨segment, child⟩, position⟩, move, here | below⟩
      · cases segment with
        | field name =>
          simp only [Trail.stop, List.mem_singleton, Event.check.injEq] at here
          subst here
          exact ⟨trail, name, child, .refl _ _, unentered, move, rfl, rfl⟩
        | index position => simp [Trail.stop] at here
        | mapValue => simp [Trail.stop] at here
      · obtain ⟨last, name, value, leads, rest⟩ := (ih _).mp below
        exact ⟨last, name, value, .step unentered move leads, rest⟩
    · rintro ⟨last, name, value, leads, fresh, move, address, path⟩
      cases leads with
      | refl =>
        exact ⟨_, move, .inl (by simp [Trail.stop, Trail.down, ← address, ← path])⟩
      | step first onward leads =>
        exact ⟨_, onward, .inr ((ih _).mpr ⟨last, name, value, leads, fresh, move, address, path⟩)⟩
  | case3 trail value scalar =>
    simp only [List.not_mem_nil, false_iff]
    rintro ⟨last, name, child, leads, -⟩
    cases leads with
    | refl => exact scalar _ rfl
    | step => exact scalar _ rfl

theorem mem_checks {visit : Visit size} {events : List (Event catalog size)} :
    visit ∈ events.filterMap Event.visit? ↔ .check visit ∈ events := by
  rw [List.mem_filterMap]
  constructor
  · rintro ⟨event, listed, is_check⟩
    cases event with
    | enter type => cases is_check
    | check other =>
      cases is_check
      exact listed
  · exact fun listed => ⟨_, listed, rfl⟩

theorem mem_visits_iff (root : Value size) (visit : Visit size) :
    visit ∈ heap.visits root ↔ heap.Visits .start root visit := by
  rw [← heap.check_mem_itinerary, visits, mem_checks]

/-! ## Order -/

/-- What is met below a value lies strictly below the trail. -/
theorem address_of_mem_itinerary {visit : Visit size} {trail : Trail size} {value : Value size}
    (listed : .check visit ∈ heap.itinerary trail value) :
    ∃ position rest, visit.address = trail.address ++ position :: rest := by
  obtain ⟨last, name, child, leads, -, -, address, -⟩ :=
    (heap.check_mem_itinerary visit trail value).mp listed
  rw [address]
  generalize Value.object visit.record = target at leads
  clear address listed
  induction leads with
  | refl trail value => exact ⟨_, [], rfl⟩
  | step unentered move onward ih =>
    obtain ⟨position, rest, same⟩ := ih
    exact ⟨_, position :: rest, by simpa [Trail.down] using same⟩

/-- A field that is met at the end of a trail lies there. -/
theorem address_of_mem_stop {visit : Visit size} {trail : Trail size} {id : Fin size}
    {position : Nat} {segment : Segment}
    (met : (.check visit : Event catalog size) ∈ Trail.stop trail id position segment) :
    visit.address = trail.address := by
  cases segment with
  | field name =>
    simp only [Trail.stop, List.mem_singleton, Event.check.injEq] at met
    rw [met]
  | index position => simp [Trail.stop] at met
  | mapValue => simp [Trail.stop] at met

/-- What is met by one step lies at or below the step. -/
theorem address_of_mem_step {visit : Visit size} {trail : Trail size} {id : Fin size}
    {position : Nat} {segment : Segment} {child : Value size}
    (met : .check visit ∈ Trail.stop (trail.down id position segment) id position segment ++
      heap.itinerary (trail.down id position segment) child) :
    ∃ rest, visit.address = trail.address ++ position :: rest := by
  rcases List.mem_append.mp met with here | below
  · exact ⟨[], address_of_mem_stop here⟩
  · obtain ⟨next, rest, address⟩ := heap.address_of_mem_itinerary below
    exact ⟨next :: rest, by simpa [Trail.down] using address⟩

theorem address_lt_append (address : List Nat) (position : Nat) (rest : List Nat) :
    address < address ++ position :: rest := by
  have appended : address ++ [] < address ++ position :: rest :=
    List.append_left_lt (List.nil_lt_cons position rest)
  simpa using appended

/-- What is met by an earlier step comes before what is met by a later one. -/
theorem address_lt_of_lt (address : List Nat) {first second : Nat} (earlier : first < second)
    (rest others : List Nat) : address ++ first :: rest < address ++ second :: others :=
  List.append_left_lt (List.cons_lt_cons_iff.mpr (.inl earlier))

/-- Visits stand in the order of their addresses: a field before all that lies below it, and all
that lies below a step before what lies below a later one. -/
theorem itinerary_sorted (trail : Trail size) (value : Value size) :
    ((heap.itinerary trail value).filterMap Event.visit?).Pairwise
      fun first second => first.address < second.address := by
  fun_induction heap.itinerary trail value with
  | case1 trail id again => exact .nil
  | case2 trail id unentered ih =>
    have no_arrival : (heap.arrival id).filterMap Event.visit? = [] := by
      simp only [List.filterMap_eq_nil_iff, arrival]
      cases heap.object id <;> simp [Event.visit?]
    rw [List.filterMap_append, no_arrival, List.nil_append, List.filterMap_flatMap,
      List.pairwise_flatMap]
    refine ⟨fun move _ => ?_, ?_⟩
    · rw [List.filterMap_append, List.pairwise_append]
      refine ⟨?_, ih move, ?_⟩
      · cases move.1.1 <;> simp [Trail.stop, Event.visit?]
      · intro here stops below lies
        have at_stop : here.address = (trail.down id move.2 move.1.1).address :=
          address_of_mem_stop (mem_checks.mp stops)
        obtain ⟨position, rest, address⟩ := heap.address_of_mem_itinerary (mem_checks.mp lies)
        rw [at_stop, address]
        exact address_lt_append _ position rest
    · have counted : (heap.moves id).zipIdx.Pairwise fun first second => first.2 < second.2 := by
        rw [← List.pairwise_map, List.zipIdx_map_snd]
        exact List.pairwise_lt_range'
      refine counted.imp fun earlier first first_lies second second_lies => ?_
      obtain ⟨rest, first_at⟩ := heap.address_of_mem_step (mem_checks.mp first_lies)
      obtain ⟨others, second_at⟩ := heap.address_of_mem_step (mem_checks.mp second_lies)
      rw [first_at, second_at]
      exact address_lt_of_lt trail.address earlier rest others
  | case3 trail value scalar => exact .nil

theorem visits_sorted (root : Value size) :
    (heap.visits root).Pairwise fun first second => first.address < second.address :=
  heap.itinerary_sorted .start root

end Heap

end Proviso
