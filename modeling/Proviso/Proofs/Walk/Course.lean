/- # Proviso.Proofs.Walk.Course -- the course of a walk is a function of the schemas

To validate a value is to play its itinerary (`Validator.validate_eq_played`).  What is found at an
event depends on the heap and on the schemas of the types, and not on what the cache has kept so far:
a type has one answer however it is looked up.  So the course of a walk can be read off the list of
what there is to find (`WalkContext.play_course`), and from it the outcome of validating a value
(`Validator.validate_outcome`). -/
import Mathlib.Data.Fintype.Card
import Proviso.Proofs.Schema.Closure
import Proviso.Proofs.Walk.Play
import Proviso.Validator

namespace Proviso

set_option autoImplicit false

namespace WalkContext

/-! ## Courses -/

/-- Goes through findings in their order, and gives the failures among them.  An error is the end,
and so is a failure unless all failures are wanted. -/
def course (collectAll : Bool) :
    List (Except CompileError (Option FieldError)) → Except CompileError Flow × List FieldError
  | [] => (.ok .continue, [])
  | .error error :: _ => (.error error, [])
  | .ok none :: rest => course collectAll rest
  | .ok (some failure) :: rest =>
    if collectAll then ((course collectAll rest).1, failure :: (course collectAll rest).2)
    else (.ok .stop, [failure])

/-- Only what is found can be the error at the end of a course. -/
theorem error_mem_of_course {collectAll : Bool}
    {findings : List (Except CompileError (Option FieldError))} {error : CompileError}
    (broken : (course collectAll findings).1 = .error error) : .error error ∈ findings := by
  induction findings with
  | nil => cases broken
  | cons finding rest ih =>
    match finding with
    | .error other =>
      cases broken
      exact List.mem_cons_self
    | .ok none => exact List.mem_cons_of_mem _ (ih broken)
    | .ok (some failure) =>
      rw [course] at broken
      split at broken
      · exact List.mem_cons_of_mem _ (ih broken)
      · cases broken

/-! ## Findings -/

variable [PatternLibrary] {catalog : Catalog} {size : Nat} (context : WalkContext catalog size)
  (schemas : catalog.TypeId → Except CompileError Schema)

/-- The failure that a visit adds, if its field has a rule that applies and does not hold. -/
def failure? (visit : Visit size) : Option FieldError :=
  let value := (context.heap.object visit.record).get (.field visit.position)
  (context.ruleAt schemas visit.record visit.position).bind fun rule =>
    if Walk.applies rule value then
      match rule.verdict context.heap ⟨value, visit.record⟩ with
      | .pass => none
      | .fail message => some ⟨visit.path, message⟩
    else none

/-- A visit adds its failure, and stops the walk only when it does. -/
theorem checkVisit_eq (visit : Visit size) (tally : Tally catalog) :
    ∃ ledger, context.checkVisit schemas visit tally =
      (if (context.failure? schemas visit).isSome && !context.collectAll then .stop else .continue,
        ⟨tally.cache, ledger, (context.failure? schemas visit).toList ++ tally.failures⟩) := by
  unfold checkVisit failure?
  cases context.ruleAt schemas visit.record visit.position with
  | none => exact ⟨tally.ledger, rfl⟩
  | some rule =>
    simp only [Option.bind_some]
    split
    · have same := rule.check_fst context.heap
        ⟨(context.heap.object visit.record).get (.field visit.position), visit.record⟩ tally.ledger
      cases checked : rule.check context.heap
          ⟨(context.heap.object visit.record).get (.field visit.position), visit.record⟩
          tally.ledger with
      | mk verdict ledger =>
        rw [checked] at same
        rw [← same]
        refine ⟨ledger, ?_⟩
        cases verdict with
        | pass => rfl
        | fail message => cases context.collectAll <;> rfl
    · exact ⟨tally.ledger, rfl⟩

/-- What there is to find at an event: an error, a failure or nothing. -/
def finding : Event catalog size → Except CompileError (Option FieldError)
  | .enter type => (SchemaCache.answer schemas type).map fun _ => none
  | .check visit => .ok (context.failure? schemas visit)

/-- With all failures wanted, the course of events meets an error or gives the failures of all visits
in their order. -/
theorem course_collectAll (events : List (Event catalog size)) :
    (∃ error, (course true (events.map (context.finding schemas))).1 = .error error) ∨
      course true (events.map (context.finding schemas)) =
        (.ok .continue, (events.filterMap Event.visit?).filterMap (context.failure? schemas)) := by
  induction events with
  | nil => exact .inr rfl
  | cons event rest ih =>
    rw [List.map_cons]
    cases event with
    | enter type =>
      rw [finding]
      cases SchemaCache.answer schemas type with
      | error error => exact .inl ⟨error, rfl⟩
      | ok schema => exact ih
    | check visit =>
      have visited : Event.visit? (.check visit : Event catalog size) = some visit := rfl
      rw [finding, List.filterMap_cons_some visited, List.filterMap_cons]
      cases context.failure? schemas visit with
      | none => exact ih
      | some failure =>
        rcases ih with broken | done
        · exact .inl broken
        · exact .inr (by rw [course, if_pos rfl, done])

/-- To play events is to go through what there is to find at them. -/
theorem play_course (events : List (Event catalog size)) {tally : Tally catalog}
    (consistent : tally.cache.Consistent)
    (with_schemas : tally.cache.schemaOf context.registry = schemas) :
    (context.play schemas events tally).1 =
        (course context.collectAll (events.map (context.finding schemas))).1 ∧
      (context.play schemas events tally).2.failures =
        (course context.collectAll (events.map (context.finding schemas))).2.reverse ++
          tally.failures := by
  induction events generalizing tally with
  | nil => exact ⟨rfl, rfl⟩
  | cons event rest ih =>
    rw [List.map_cons]
    cases event with
    | enter type =>
      have answered : (tally.cache.schemaForRecord context.registry type).1 = _ :=
        SchemaCache.schemaForRecord_fst consistent type
      have kept : (tally.cache.schemaForRecord context.registry type).2.Consistent :=
        SchemaCache.schemaForRecord_consistent consistent type
      have grows : tally.cache.Grows context.registry _ := tally.cache.schemaForRecord_grows type
      rw [with_schemas] at answered
      rw [play_enter, finding, ← answered]
      cases looked : tally.cache.schemaForRecord context.registry type with
      | mk result cache =>
        rw [looked] at kept grows
        cases result with
        | error error => exact ⟨rfl, rfl⟩
        | ok schema =>
          have onward := @ih ⟨cache, tally.ledger, tally.failures⟩ kept
            (grows.schemaOf_eq.trans with_schemas)
          exact onward
    | check visit =>
      obtain ⟨ledger, checked⟩ := context.checkVisit_eq schemas visit tally
      rw [play_check, checked, finding]
      cases context.failure? schemas visit with
      | none => exact @ih ⟨tally.cache, ledger, tally.failures⟩ consistent with_schemas
      | some failure =>
        cases all : context.collectAll with
        | false => exact ⟨rfl, rfl⟩
        | true =>
          have onward := @ih ⟨tally.cache, ledger, failure :: tally.failures⟩ consistent with_schemas
          rw [all] at onward
          simp only [course, if_true, List.reverse_cons, List.append_assoc, List.singleton_append]
          exact onward

end WalkContext

/-! ## Validating -/

namespace Validator

variable [PatternLibrary] {catalog : Catalog} {size : Nat}

/-- What playing the itinerary of a value comes to. -/
def played (validator : Validator catalog) (heap : Heap catalog size) (root : Value size)
    (collectAll : Bool) : Except CompileError Flow × Tally catalog :=
  WalkContext.play ⟨heap, validator.registry, collectAll⟩
    (validator.cache.schemaOf validator.registry) (heap.itinerary .start root)
    ⟨validator.cache, .start validator.patterns, []⟩

/-- A walk from the root comes to what playing the itinerary comes to. -/
theorem run_walk {validator : Validator catalog} (reached : validator.cache.Reached)
    (heap : Heap catalog size) (root : Value size) (collectAll : Bool) :
    (Walk.walk ⟨heap, validator.registry, collectAll⟩ root).run
        (.initial validator.cache (.start validator.patterns)) =
      ((validator.played heap root collectAll).1,
        WalkState.withTally (.initial validator.cache (.start validator.patterns))
          (validator.played heap root collectAll).2) := by
  have enough : (Trail.start : Trail size).fresh < size + 1 := by
    simp [Trail.fresh, Trail.start]
  have plays : Walk.Plays ⟨heap, validator.registry, collectAll⟩
      (validator.cache.schemaOf validator.registry) .root []
      (Walk.walk ⟨heap, validator.registry, collectAll⟩ root) (heap.itinerary .start root) :=
    Walk.descend_plays (fun type schema found => reached.fields_eq found) (size + 1) .start root
      enough
  exact plays _ rfl rfl rfl

/-- To validate a value is to play its itinerary. -/
theorem validate_eq_played {validator : Validator catalog} (reached : validator.cache.Reached)
    (heap : Heap catalog size) {root : Value size} (present : root ≠ .nil) (collectAll : Bool) :
    validator.validate heap root collectAll =
      ⟨validator.outcome (validator.played heap root collectAll).1
          (validator.played heap root collectAll).2.failures,
        (validator.played heap root collectAll).2.ledger,
        ⟨validator.separator, validator.registry, (validator.played heap root collectAll).2.cache,
          (validator.played heap root collectAll).2.ledger.patterns⟩⟩ := by
  unfold validate
  rw [if_neg present]
  dsimp only
  rw [run_walk reached heap root collectAll]
  rfl

/-- The course of validating a value, by the schemas of the types. -/
def course (validator : Validator catalog) (heap : Heap catalog size) (root : Value size)
    (collectAll : Bool) : Except CompileError Flow × List FieldError :=
  WalkContext.course collectAll ((heap.itinerary .start root).map
    (WalkContext.finding ⟨heap, validator.registry, collectAll⟩
      (validator.cache.schemaOf validator.registry)))

theorem played_course {validator : Validator catalog} (reached : validator.cache.Reached)
    (heap : Heap catalog size) (root : Value size) (collectAll : Bool) :
    (validator.played heap root collectAll).1 = (validator.course heap root collectAll).1 ∧
      (validator.played heap root collectAll).2.failures =
        (validator.course heap root collectAll).2.reverse := by
  have came := WalkContext.play_course ⟨heap, validator.registry, collectAll⟩
    (validator.cache.schemaOf validator.registry) (heap.itinerary .start root)
    (show (⟨validator.cache, .start validator.patterns, []⟩ : Tally catalog).cache.Consistent from
      reached.consistent) rfl
  rw [List.append_nil] at came
  exact came

/-- What comes of validating a value is what its course comes to. -/
theorem validate_outcome {validator : Validator catalog} (reached : validator.cache.Reached)
    (heap : Heap catalog size) {root : Value size} (present : root ≠ .nil) (collectAll : Bool) :
    (validator.validate heap root collectAll).outcome =
      validator.outcome (validator.course heap root collectAll).1
        (validator.course heap root collectAll).2.reverse := by
  obtain ⟨flow, failures⟩ := played_course reached heap root collectAll
  rw [validate_eq_played reached heap present collectAll, flow, failures]

end Validator

end Proviso
