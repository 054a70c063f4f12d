/- # Proviso.Proofs.Walk.Reachability -- every reachable record is checked

A walk enters no object that it is inside of.  Still it gets to every object that can be reached
from the root: a way that comes back to an object is no better than the way on which it was first
met (`Leads.cut`), so there is a descent to each reachable object that has not entered it before
(`leads_of_reachable`).  A walk that asks for all failures therefore answers that all is well exactly
when every rule of every reachable record holds (`validate_ok_iff_reachable_hold`). -/
import Proviso.Proofs.Walk.Report

namespace Proviso

set_option autoImplicit false

namespace Heap

variable {catalog : Catalog} {size : Nat} {heap : Heap catalog size}

/-- An object is reached from another one by any number of steps, through any objects. -/
inductive Reachable (heap : Heap catalog size) (root : Fin size) : Fin size → Prop where
  | root : Reachable heap root root
  | step {id child : Fin size} {segment : Segment} (before : Reachable heap root id)
      (move : (segment, .object child) ∈ heap.moves id) : Reachable heap root child

/-! ## Descents to reachable objects -/

/-- A trail that leads to an object not yet entered leads on by each of its steps. -/
theorem Leads.down {first last : Trail size} {value : Value size} {id : Fin size} {position : Nat}
    {segment : Segment} {child : Value size} (leads : heap.Leads first value last (.object id))
    (unentered : id ∉ last.entered) (move : ((segment, child), position) ∈ (heap.moves id).zipIdx) :
    heap.Leads first value (last.down id position segment) child := by
  generalize here : Value.object id = arrived at leads
  induction leads with
  | refl trail value =>
    subst here
    exact .step unentered move (.refl _ _)
  | step earlier onward _ ih => exact .step earlier onward (ih unentered here)

/-- A trail that has entered an object can be cut where it came to that object. -/
theorem Leads.cut {first last : Trail size} {value arrived : Value size} {id : Fin size}
    (leads : heap.Leads first value last arrived) (entered : id ∈ last.entered)
    (unentered : id ∉ first.entered) :
    ∃ shorter, heap.Leads first value shorter (.object id) ∧ id ∉ shorter.entered := by
  induction leads with
  | refl trail value => exact absurd entered unentered
  | @step trail last other position segment child value earlier onward _ ih =>
    by_cases same : id = other
    · subst same
      exact ⟨trail, .refl _ _, unentered⟩
    · have still : id ∉ (trail.down other position segment).entered := by
        simp [Trail.down, same, unentered]
      obtain ⟨shorter, leads, fresh⟩ := ih entered still
      exact ⟨shorter, .step earlier onward leads, fresh⟩

/-- Each reachable object is at the end of a descent that has not entered it. -/
theorem leads_of_reachable {root id : Fin size} (reachable : heap.Reachable root id) :
    ∃ trail, heap.Leads .start (.object root) trail (.object id) ∧ id ∉ trail.entered := by
  induction reachable with
  | root => exact ⟨.start, .refl _ _, List.not_mem_nil⟩
  | @step id child segment _ move ih =>
    obtain ⟨trail, leads, unentered⟩ := ih
    obtain ⟨position, placed⟩ := List.mem_iff_getElem?.mp move
    have onward := leads.down unentered (List.mk_mem_zipIdx_iff_getElem?.mpr placed)
    by_cases again : child ∈ (trail.down id position segment).entered
    · exact onward.cut again List.not_mem_nil
    · exact ⟨_, onward, again⟩

theorem Leads.reachable {root : Fin size} {first last : Trail size} {value arrived : Value size}
    (leads : heap.Leads first value last arrived)
    (from_root : ∀ id, value = .object id → heap.Reachable root id) :
    ∀ id, arrived = .object id → heap.Reachable root id := by
  induction leads with
  | refl trail value => exact from_root
  | @step trail last id position segment child value _ move _ ih =>
    apply ih
    rintro next rfl
    exact .step (from_root id rfl) (List.fst_mem_of_mem_zipIdx move)

theorem reachable_of_leads {root id : Fin size} {first last : Trail size}
    (leads : heap.Leads first (.object root) last (.object id)) : heap.Reachable root id := by
  refine leads.reachable (fun other same => ?_) id rfl
  cases same
  exact .root

/-- The fields that are visited below an object are the fields of the reachable records. -/
theorem visited_iff_reachable (root id : Fin size) (position : Nat) :
    (∃ visit ∈ heap.visits (.object root), visit.record = id ∧ visit.position = position) ↔
      heap.Reachable root id ∧
        ∃ name child, ((.field name, child), position) ∈ (heap.moves id).zipIdx := by
  constructor
  · rintro ⟨visit, listed, rfl, rfl⟩
    obtain ⟨trail, name, child, leads, -, move, -⟩ := (heap.mem_visits_iff _ _).mp listed
    exact ⟨reachable_of_leads leads, name, child, move⟩
  · rintro ⟨reachable, name, child, move⟩
    obtain ⟨trail, leads, unentered⟩ := leads_of_reachable reachable
    exact ⟨⟨trail.address ++ [position], trail.path.push (.field name), id, position⟩,
      (heap.mem_visits_iff _ _).mpr ⟨trail, name, child, leads, unentered, move, rfl, rfl⟩, rfl, rfl⟩

end Heap

/-! ## Validity -/

namespace Validator

section

variable [PatternLibrary] {catalog : Catalog} {size : Nat}

/-- A rule belongs to a field that the type declares. -/
theorem declared_of_rule? {validator : Validator catalog} (reached : validator.cache.Reached)
    {type : catalog.TypeId} {position : Nat} {rule : Rule}
    (has_rule : validator.rule? type position = some rule) :
    position < (catalog.type type).fields.length := by
  unfold rule? at has_rule
  cases found : validator.cache.schemaOf validator.registry type with
  | error error => simp [found, Except.toOption] at has_rule
  | ok schema =>
    simp only [found, Except.toOption, Option.bind_some, Schema.rule?] at has_rule
    obtain ⟨field, placed, -⟩ := Option.bind_eq_some_iff.mp has_rule
    have inside := (List.getElem?_eq_some_iff.mp placed).1
    have counted := congrArg List.length (reached.fields_eq found)
    rw [List.length_map, List.length_map, List.length_zipIdx] at counted
    rwa [counted] at inside

/-- A visit to a field does not fail exactly when the rule of the field, if there is one, passes or
does not apply. -/
theorem failing?_eq_none_iff (validator : Validator catalog) (heap : Heap catalog size)
    (visit : Visit size) :
    validator.failing? heap visit = none ↔
      ∀ type values, heap.object visit.record = .record type values →
        ∀ rule, validator.rule? type visit.position = some rule →
          let value := (heap.object visit.record).get (.field visit.position)
          (rule.check heap ⟨value, visit.record⟩ (.start .empty)).1 = .pass ∨
            value = .nil ∧ rule.testsAbsence = false := by
  unfold failing?
  cases holds : heap.object visit.record with
  | sequence items => simp
  | map values => simp
  | record type values =>
    dsimp only
    cases has_rule : validator.rule? type visit.position with
    | none =>
      simp only [Option.bind_none, true_iff]
      rintro _ _ ⟨⟩ rule same
      cases has_rule.symm.trans same
    | some rule =>
      simp only [Option.bind_some, Object.record.injEq, and_imp]
      constructor
      · rintro none_fails _ _ rfl rfl _ same
        cases has_rule.symm.trans same
        split at none_fails
        · split at none_fails
          · exact .inl ‹_›
          · cases none_fails
        · rename_i absent
          simp only [not_or, ne_eq, not_not, Bool.not_eq_true] at absent
          exact .inr absent
      · intro all_hold
        rcases all_hold type values rfl rfl rule has_rule with passes | absent
        · rw [passes]
          simp
        · simp [absent]

/-- **The guard against cycles hides no failure.**  For every object over every heap, when no rule
is broken and all failures are wanted, the answer is that all is well exactly when for every record
that is reachable from the object, by any chain of steps, each field with a rule passes the check
or is absent under a rule that does not test for absence. -/
theorem validate_ok_iff_reachable_hold (validator : Validator catalog)
    (reached : validator.cache.Reached) (heap : Heap catalog size) (root : Fin size)
    (compiles : ∀ error,
      (validator.validate heap (.object root) true).outcome ≠ .error (.compile error)) :
    (validator.validate heap (.object root) true).outcome = .ok () ↔
      ∀ id, heap.Reachable root id →
        ∀ type values, heap.object id = .record type values →
          ∀ position rule, validator.rule? type position = some rule →
            let value := (heap.object id).get (.field position)
            (rule.check heap ⟨value, id⟩ (.start .empty)).1 = .pass ∨
              value = .nil ∧ rule.testsAbsence = false := by
  have present : Value.object root ≠ .nil := by simp
  have came := (outcome_collectAll reached heap present).resolve_left (not_exists.mpr compiles)
  have none_failing := validator.failing_eq heap true (heap.visits (.object root))
  rw [came, outcome_eq_ok_iff, List.reverse_eq_nil_iff, ← List.map_eq_nil_iff, ← none_failing,
    List.filterMap_eq_nil_iff]
  constructor
  · intro none_fails id reachable type values holds position rule has_rule
    have declared := declared_of_rule? reached has_rule
    have move : ((.field (catalog.type type).fields[position].name,
        (heap.object id).get (.field position)), position) ∈ (heap.moves id).zipIdx := by
      rw [List.mem_zipIdx_iff_getElem?]
      simp [Heap.moves, holds, List.getElem?_eq_getElem declared]
    obtain ⟨visit, listed, rfl, rfl⟩ :=
      (Heap.visited_iff_reachable root id position).mpr ⟨reachable, _, _, move⟩
    exact (validator.failing?_eq_none_iff heap visit).mp (none_fails visit listed)
      type values holds rule has_rule
  · intro all_hold visit listed
    obtain ⟨reachable, -⟩ :=
      (Heap.visited_iff_reachable root visit.record visit.position).mp ⟨visit, listed, rfl, rfl⟩
    rw [failing?_eq_none_iff]
    intro type values holds rule has_rule
    exact all_hold visit.record reachable type values holds visit.position rule has_rule

end

attribute [local instance] Pattern.library

theorem ring_ok :
    ((new ringCatalog .default).validate (ringHeap 1 1) (.object 0) true).outcome = .ok () := by
  have is_ok : ((new ringCatalog .default).validate (ringHeap 1 1) (.object 0)
      true).outcome.isOk = true := by
    decide +kernel
  cases answer : ((new ringCatalog .default).validate (ringHeap 1 1) (.object 0) true).outcome with
  | ok done => rfl
  | error error =>
    rw [answer] at is_ok
    cases is_ok

/-- In a ring that is valid, the rule of the record behind the root holds as well. -/
theorem ring_reachable_hold :
    (∀ error, ((new ringCatalog .default).validate (ringHeap 1 1) (.object 0) true).outcome ≠
      .error (.compile error)) ∧
    ∀ rule, (new ringCatalog .default).rule? (0 : Fin 1) 0 = some rule →
      (rule.check (ringHeap 1 1) ⟨.int 1, 1⟩ (.start .empty)).1 = .pass ∨
        Value.int (1 : Int64) = (.nil : Value 2) ∧ rule.testsAbsence = false := by
  have compiles (error : CompileError) :
      ((new ringCatalog .default).validate (ringHeap 1 1) (.object 0) true).outcome ≠
        .error (.compile error) := by
    rw [ring_ok]
    simp
  have move : (.field "Next", .object 1) ∈ (ringHeap 1 1).moves 0 := by decide
  have onward : (ringHeap 1 1).Reachable 0 1 := .step .root move
  exact ⟨compiles, fun rule has_rule =>
    (validate_ok_iff_reachable_hold (new ringCatalog .default) (.empty "vd") (ringHeap 1 1) 0
      compiles).mp ring_ok 1 onward (0 : Fin 1) _ rfl 0 rule has_rule⟩

end Validator

end Proviso
