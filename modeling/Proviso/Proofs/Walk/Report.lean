/- # Proviso.Proofs.Walk.Report -- what is reported, and in which order

When all failures are wanted, nothing but a rule that does not compile ends the course of a walk, and
each failing visit adds its failure.  So the report is the list of the failing visits
(`validate_reports_failing_visits`). -/
import Mathlib.Data.Fintype.Card
import Proviso.Pattern.OfText
import Proviso.Proofs.Walk.Course

namespace Proviso

set_option autoImplicit false

/-! ## Texts of paths -/

/-- A step as it is written in a path; a field that is not the first step is set off by a dot. -/
def Segment.written (first : Bool) : Segment → List Char
  | .field name => if first then name.toList else '.' :: name.toList
  | .index position => '[' :: (Nat.toDigits 10 position ++ [']'])
  | .mapValue => ['\x7b', '\x7d']

/-- The text of the path to a field, written step by step. -/
def Visit.pathText {size : Nat} (visit : Visit size) : String :=
  String.ofList (visit.path.segments.zipIdx.flatMap fun place => place.1.written (place.2 == 0))

theorem FieldPath.written_later (segments : List Segment) (place : Nat) (later : 0 < place) :
    (segments.zipIdx place).flatMap (fun place => place.1.written (place.2 == 0)) =
      segments.flatMap segmentText := by
  induction segments generalizing place with
  | nil => rfl
  | cons segment rest ih =>
    have not_first : (place == 0) = false := by simp; omega
    rw [List.zipIdx_cons, List.flatMap_cons, List.flatMap_cons, ih (place + 1) (by omega)]
    cases segment <;> simp [Segment.written, segmentText, not_first]

theorem Visit.render_path {size : Nat} (visit : Visit size) :
    visit.path.render = visit.pathText := by
  unfold FieldPath.render Visit.pathText
  cases visit.path.segments with
  | nil => rfl
  | cons segment rest =>
    rw [List.zipIdx_cons, List.flatMap_cons, FieldPath.written_later rest 1 (by omega)]
    cases segment <;> simp [FieldPath.textOf, FieldPath.segmentText, Segment.written]

/-! ## Reports -/

/-- The text of the path and the message, for each field that is reported. -/
def reported (outcome : Except ValidationError Unit) : List (String × Option String) :=
  match outcome with
  | .error (.invalid errors) => errors.errors.map fun error => (error.path.render, error.message)
  | _ => []

namespace Validator

section

variable [PatternLibrary] {catalog : Catalog} {size : Nat}

/-- The rule of the field at a position of a type, by the schema that was kept for the type or would
be built for it. -/
def rule? (validator : Validator catalog) (type : catalog.TypeId) (position : Nat) : Option Rule :=
  (validator.cache.schemaOf validator.registry type).toOption.bind (·.rule? position)

/-- What a visit reports: the path and the message, when the field has a rule, its value is there or
the rule tests for absence, and the rule does not hold. -/
def failing? (validator : Validator catalog) (heap : Heap catalog size) (visit : Visit size) :
    Option (String × Option String) :=
  match heap.object visit.record with
  | .record type _ =>
    (validator.rule? type visit.position).bind fun rule =>
      let value := (heap.object visit.record).get (.field visit.position)
      if value ≠ .nil ∨ rule.testsAbsence then
        match (rule.check heap ⟨value, visit.record⟩ (.start .empty)).1 with
        | .pass => none
        | .fail message => some (visit.pathText, message)
      else none
  | _ => none

theorem failing?_eq (validator : Validator catalog) (heap : Heap catalog size) (collectAll : Bool)
    (visit : Visit size) :
    validator.failing? heap visit =
      (WalkContext.failure? ⟨heap, validator.registry, collectAll⟩
        (validator.cache.schemaOf validator.registry) visit).map
          fun error => (error.path.render, error.message) := by
  unfold failing? WalkContext.failure? WalkContext.ruleAt
  cases heap.object visit.record with
  | sequence items => rfl
  | map values => rfl
  | record type fields =>
    dsimp only [rule?]
    cases (validator.cache.schemaOf validator.registry type).toOption.bind
        (·.rule? visit.position) with
    | none => rfl
    | some rule =>
      simp only [Option.bind_some, Walk.applies, Rule.check_fst, bne_iff_ne, Bool.or_eq_true]
      split
      · split <;> simp [Visit.render_path, *]
      · rfl

theorem failing_eq (validator : Validator catalog) (heap : Heap catalog size) (collectAll : Bool)
    (visits : List (Visit size)) :
    visits.filterMap (validator.failing? heap) =
      (visits.filterMap (WalkContext.failure? ⟨heap, validator.registry, collectAll⟩
        (validator.cache.schemaOf validator.registry))).map
          fun error => (error.path.render, error.message) := by
  rw [List.map_filterMap]
  congr 1
  funext visit
  exact validator.failing?_eq heap collectAll visit

theorem reported_outcome (validator : Validator catalog) (flow : Flow)
    (failures : List FieldError) :
    reported (validator.outcome (.ok flow) failures) =
      failures.reverse.map fun error => (error.path.render, error.message) := by
  cases failures <;> rfl

theorem outcome_eq_ok_iff (validator : Validator catalog) (flow : Flow)
    (failures : List FieldError) : validator.outcome (.ok flow) failures = .ok () ↔ failures = [] := by
  cases failures <;> simp [outcome]

theorem outcome_ne_unsupported (validator : Validator catalog) (result : Except CompileError Flow)
    (failures : List FieldError) : validator.outcome result failures ≠ .error .unsupported := by
  cases result <;> cases failures <;> simp [outcome]

/-- The validation of a value that is there, with all failures wanted, meets a broken rule or comes
to the failures of the visits in their order. -/
theorem outcome_collectAll {validator : Validator catalog} (reached : validator.cache.Reached)
    (heap : Heap catalog size) {root : Value size} (present : root ≠ .nil) :
    (∃ error, (validator.validate heap root true).outcome = .error (.compile error)) ∨
      (validator.validate heap root true).outcome = validator.outcome (.ok .continue)
        ((heap.visits root).filterMap (WalkContext.failure? ⟨heap, validator.registry, true⟩
          (validator.cache.schemaOf validator.registry))).reverse := by
  rw [validate_outcome reached heap present true, course]
  rcases WalkContext.course_collectAll ⟨heap, validator.registry, true⟩
    (validator.cache.schemaOf validator.registry) (heap.itinerary .start root) with
    ⟨error, broken⟩ | done
  · exact .inl ⟨error, by rw [broken, outcome]⟩
  · exact .inr (by rw [done, Heap.visits])

/-- **The report is the list of the failing visits.**  For every root over every heap, when no rule
is broken and all failures are wanted, what is reported is, for each visit whose rule fails, the
path and the message; the visits are those that descents lead to, in the order of their addresses.
The answer is that all is well exactly when there is a root and the list is empty. -/
theorem validate_reports_failing_visits (validator : Validator catalog)
    (reached : validator.cache.Reached) (heap : Heap catalog size) (root : Value size)
    (compiles : ∀ error, (validator.validate heap root true).outcome ≠ .error (.compile error)) :
    let visits := heap.visits root
    let outcome := (validator.validate heap root true).outcome
    reported outcome = visits.filterMap (validator.failing? heap) ∧
      (outcome = .ok () ↔ root ≠ .nil ∧ visits.filterMap (validator.failing? heap) = []) ∧
      (outcome = .error .unsupported ↔ root = .nil) ∧
      (visits.Pairwise fun first second => first.address < second.address) ∧
      ∀ visit, visit ∈ visits ↔ heap.Visits .start root visit := by
  intro visits outcome
  have listed := heap.mem_visits_iff root
  have sorted := heap.visits_sorted root
  by_cases absent : root = .nil
  · subst absent
    have refused : outcome = .error .unsupported := rfl
    have no_visits : visits = [] := by
      simp [visits, Heap.visits, Heap.itinerary]
    refine ⟨?_, ?_, ?_, sorted, listed⟩
    · rw [refused, no_visits]
      rfl
    · simp [refused]
    · simp [refused]
  · have came := (outcome_collectAll reached heap absent).resolve_left (not_exists.mpr compiles)
    have failing := validator.failing_eq heap true visits
    refine ⟨?_, ?_, ?_, sorted, listed⟩
    · rw [failing]
      show reported (validator.validate heap root true).outcome = _
      rw [came, reported_outcome, List.reverse_reverse]
    · rw [failing, List.map_eq_nil_iff]
      show (validator.validate heap root true).outcome = _ ↔ _
      rw [came, outcome_eq_ok_iff, List.reverse_eq_nil_iff]
      simp [absent, visits]
    · simp only [absent, iff_false]
      show (validator.validate heap root true).outcome ≠ _
      rw [came]
      exact validator.outcome_ne_unsupported _ _

end

attribute [local instance] Pattern.library

/-- A catalog of one type of records, which refer to each other and have one checked field. -/
def ringCatalog : Catalog :=
  ⟨1, #v[⟨"Ring", "Ring",
    [⟨"Value", [("vd", "$")], none⟩, ⟨"Next", [], some 0⟩, ⟨"Last", [], some 0⟩]⟩]⟩

/-- Two records that refer to each other, the second also to itself.  The rule of their first field
refuses zero. -/
def ringHeap (first second : Int64) : Heap ringCatalog 2 :=
  ⟨#v[.record (0 : Fin 1) [.int first, .object 1, .object 1],
    .record (0 : Fin 1) [.int second, .object 0, .object 1]]⟩

theorem ring_report :
    reported ((new ringCatalog .default).validate (ringHeap 0 0) (.object 0) true).outcome =
      [("Value", none), ("Next.Value", none), ("Last.Value", none)] := by
  decide +kernel

theorem ring_compiles (error : CompileError) :
    ((new ringCatalog .default).validate (ringHeap 0 0) (.object 0) true).outcome ≠
      .error (.compile error) := by
  intro broken
  have listed := ring_report
  rw [broken] at listed
  cases listed

/-- The second record is reported on each of the two routes to it. -/
theorem ring_failing_visits :
    (∀ error, ((new ringCatalog .default).validate (ringHeap 0 0) (.object 0) true).outcome ≠
      .error (.compile error)) ∧
    ((ringHeap 0 0).visits (.object 0)).filterMap ((new ringCatalog .default).failing? (ringHeap 0 0)) =
      [("Value", none), ("Next.Value", none), ("Last.Value", none)] :=
  ⟨ring_compiles,
    (validate_reports_failing_visits (new ringCatalog .default) (.empty "vd") (ringHeap 0 0) (.object 0)
      ring_compiles).1.symm.trans ring_report⟩

/-- Nothing fails below a root that is not there, and still the answer is not that all is well. -/
theorem absent_root_not_ok :
    ¬ (((new ringCatalog .default).validate (ringHeap 0 0) .nil true).outcome = .ok () ↔
      ((ringHeap 0 0).visits .nil).filterMap ((new ringCatalog .default).failing? (ringHeap 0 0)) = []) := by
  have no_visits : (ringHeap 0 0).visits .nil = [] := by
    simp [Heap.visits, Heap.itinerary]
  rw [no_visits]
  simp [validate]

end Validator

end Proviso
