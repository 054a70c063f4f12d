/- # Proviso.Proofs.Walk.FirstFailure -- stopping at the first failure

A walk that stops at the first failure takes the same course as one that wants all failures, as far
as it goes (`WalkContext.course_false`).  So what it reports is the head of what the other one
reports, also where the other one goes on to meet a rule that does not compile
(`Validator.validate_first_failure`). -/
import Proviso.Proofs.Walk.Report

namespace Proviso

set_option autoImplicit false

/-- A course that ends with the first failure is the one that notes all of them, cut there. -/
theorem WalkContext.course_false (findings : List (Except CompileError (Option FieldError))) :
    course false findings =
      match (course true findings).2 with
      | [] => course true findings
      | failure :: _ => (.ok .stop, [failure]) := by
  induction findings with
  | nil => rfl
  | cons finding rest ih =>
    match finding with
    | .error error => rfl
    | .ok none => exact ih
    | .ok (some failure) => rfl

namespace Validator

section

variable [PatternLibrary] {catalog : Catalog} {size : Nat}

/-- The failures that a walk over a value has noted when it ends, the first one first. -/
def noted (validator : Validator catalog) (heap : Heap catalog size) (root : Value size)
    (collectAll : Bool) : List FieldError :=
  ((Walk.walk ⟨heap, validator.registry, collectAll⟩ root).run
    (.initial validator.cache (.start validator.patterns))).2.failures.reverse

theorem noted_eq {validator : Validator catalog} (reached : validator.cache.Reached)
    (heap : Heap catalog size) (root : Value size) (collectAll : Bool) :
    validator.noted heap root collectAll = (validator.course heap root collectAll).2 := by
  obtain ⟨-, failures⟩ := played_course reached heap root collectAll
  rw [noted, run_walk reached heap root collectAll]
  show (validator.played heap root collectAll).2.failures.reverse = _
  rw [failures, List.reverse_reverse]

theorem outcome_cons (validator : Validator catalog) (flow : Flow) (failure : FieldError)
    (later : List FieldError) :
    validator.outcome (.ok flow) (failure :: later).reverse =
      .error (.invalid ⟨failure :: later, validator.separator⟩) := by
  cases latest_first : (failure :: later).reverse with
  | nil => simp at latest_first
  | cons latest earlier =>
    rw [outcome, ← latest_first, List.reverse_reverse]
    simp

/-- **The first failure is the head of all of them.**  For every value over every heap, from every
state that look-ups lead to: where a walk for all failures finds that all is well or that there is no
value, so does a walk for the first one; where it reports failures, the other one reports the first
of these and nothing else; and where it meets a broken rule, the other one reports the first failure
that was noted until then, or the same error when there is none.  When there is no first failure,
all is well. -/
theorem validate_first_failure (validator : Validator catalog) (reached : validator.cache.Reached)
    (heap : Heap catalog size) (root : Value size) :
    let all := (validator.validate heap root true).outcome
    let first := (validator.validate heap root false).outcome
    (all = .ok () → first = .ok ()) ∧
      (all = .error .unsupported → first = .error .unsupported) ∧
      (∀ errors, all = .error (.invalid errors) →
        ∃ error, errors.errors.head? = some error ∧
          first = .error (.invalid ⟨[error], errors.separator⟩)) ∧
      (∀ broken, all = .error (.compile broken) →
        validator.noted heap root true = [] ∧ first = .error (.compile broken) ∨
          ∃ error, (validator.noted heap root true).head? = some error ∧
            first = .error (.invalid ⟨[error], validator.separator⟩)) ∧
      (first = .ok () → all = .ok ()) := by
  intro all first
  by_cases absent : root = .nil
  · subst absent
    have refused : all = .error .unsupported := rfl
    have also_refused : first = .error .unsupported := rfl
    rw [refused, also_refused]
    simp
  · have all_eq : all = _ := validate_outcome reached heap absent true
    have first_eq : first = _ := validate_outcome reached heap absent false
    have cut : validator.course heap root false =
        match (validator.course heap root true).2 with
        | [] => validator.course heap root true
        | failure :: _ => (.ok .stop, [failure]) := WalkContext.course_false _
    rw [cut] at first_eq
    rw [noted_eq reached, all_eq, first_eq]
    rcases validator.course heap root true with ⟨result, _ | ⟨failure, later⟩⟩
    · -- no failure is noted, and the two walks come to the same
      dsimp only
      cases result with
      | error broken => simp [outcome]
      | ok flow => simp [outcome]
    · have stopped : validator.outcome (.ok .stop) [failure].reverse = _ :=
        validator.outcome_cons .stop failure []
      dsimp only
      rw [stopped]
      cases result with
      | error broken => simp [outcome]
      | ok flow =>
        rw [outcome_cons]
        simp

end

attribute [local instance] Pattern.library

/-- In a ring with three failures, the first one is reported alone. -/
theorem ring_first_failure :
    (new ringCatalog .default).cache.Reached ∧ ∃ errors error,
      ((new ringCatalog .default).validate (ringHeap 0 0) (.object 0) true).outcome =
        .error (.invalid errors) ∧
      errors.errors.length = 3 ∧ errors.errors.head? = some error ∧
      ((new ringCatalog .default).validate (ringHeap 0 0) (.object 0) false).outcome =
        .error (.invalid ⟨[error], errors.separator⟩) := by
  refine ⟨.empty "vd", ?_⟩
  have listed := congrArg List.length ring_report
  have head := (validate_first_failure (new ringCatalog .default) (.empty "vd") (ringHeap 0 0)
    (.object 0)).2.2.1
  cases came : ((new ringCatalog .default).validate (ringHeap 0 0) (.object 0) true).outcome with
  | ok done =>
    rw [came] at listed
    cases listed
  | error reason =>
    cases reason with
    | unsupported =>
      rw [came] at listed
      cases listed
    | compile broken =>
      rw [came] at listed
      cases listed
    | invalid errors =>
      rw [came, reported, List.length_map] at listed
      obtain ⟨error, is_head, alone⟩ := head errors came
      exact ⟨errors, error, rfl, listed, is_head, alone⟩

end Validator

end Proviso
