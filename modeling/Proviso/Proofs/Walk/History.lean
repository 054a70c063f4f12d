/- # Proviso.Proofs.Walk.History -- what was validated before makes no difference

A validator keeps the schemas that it has compiled, and the closures, the errors and the patterns.
None of it can be told from what it answers: validating a value changes the schema of no type
(`Validator.validate_alike`) and leaves a cache that look-ups lead to (`Validator.validate_reached`),
and the answer to a request is a function of the schemas (`Validator.Alike.outcome_eq`).  So after
any requests a validator answers like one that was asked nothing before
(`Validator.serve_afterAll`). -/
import Proviso.Proofs.Walk.Course

namespace Proviso

set_option autoImplicit false

/-! ## What playing events keeps -/

namespace WalkContext

variable [PatternLibrary] {catalog : Catalog} {size : Nat} (context : WalkContext catalog size)
  (schemas : catalog.TypeId → Except CompileError Schema)

theorem act_reached (event : Event catalog size) {tally : Tally catalog}
    (reached : tally.cache.Reached) : (context.act schemas event tally).2.cache.Reached := by
  cases event with
  | enter type => exact .schemaForRecord context.registry type reached
  | check visit =>
    show (context.checkVisit schemas visit tally).2.cache.Reached
    rw [checkVisit_cache]
    exact reached

theorem play_reached (events : List (Event catalog size)) {tally : Tally catalog}
    (reached : tally.cache.Reached) : (context.play schemas events tally).2.cache.Reached := by
  induction events generalizing tally with
  | nil => exact reached
  | cons event rest ih =>
    have first := context.act_reached schemas event reached
    rw [play]
    split
    · rename_i after acted
      rw [acted] at first
      exact ih first
    · exact first

end WalkContext

/-! ## Validators that are alike -/

namespace Validator

variable [PatternLibrary] {catalog : Catalog} {size : Nat}

/-- Two validators have the same functions, and the same schema for each type. -/
structure Alike (first second : Validator catalog) : Prop where
  separator_eq : first.separator = second.separator
  registry_eq : first.registry = second.registry
  schemas_eq : first.cache.schemaOf first.registry = second.cache.schemaOf second.registry

theorem Alike.refl (validator : Validator catalog) : validator.Alike validator := ⟨rfl, rfl, rfl⟩

theorem Alike.trans {first second third : Validator catalog} (early : first.Alike second)
    (late : second.Alike third) : first.Alike third :=
  ⟨early.separator_eq.trans late.separator_eq, early.registry_eq.trans late.registry_eq,
    early.schemas_eq.trans late.schemas_eq⟩

/-- Validators that are alike answer alike, whatever each of them has kept. -/
theorem Alike.outcome_eq {first second : Validator catalog} (alike : first.Alike second)
    (first_reached : first.cache.Reached) (second_reached : second.cache.Reached)
    (heap : Heap catalog size) (root : Value size) (collectAll : Bool) :
    (first.validate heap root collectAll).outcome =
      (second.validate heap root collectAll).outcome := by
  by_cases absent : root = .nil
  · subst absent
    rfl
  · have same : first.course heap root collectAll = second.course heap root collectAll := by
      rw [course, course, alike.schemas_eq, alike.registry_eq]
    rw [validate_outcome first_reached heap absent, validate_outcome second_reached heap absent, same]
    unfold outcome
    rw [alike.separator_eq]

/-- Validating a value changes nothing that an answer depends on. -/
theorem validate_alike {validator : Validator catalog} (reached : validator.cache.Reached)
    (heap : Heap catalog size) (root : Value size) (collectAll : Bool) :
    (validator.validate heap root collectAll).validator.Alike validator := by
  by_cases absent : root = .nil
  · subst absent
    exact .refl validator
  · have grows := WalkContext.play_grows ⟨heap, validator.registry, collectAll⟩
      (validator.cache.schemaOf validator.registry) (heap.itinerary .start root)
      ⟨validator.cache, .start validator.patterns, []⟩
    rw [validate_eq_played reached heap absent]
    exact ⟨rfl, rfl, grows.schemaOf_eq⟩

theorem validate_reached {validator : Validator catalog} (reached : validator.cache.Reached)
    (heap : Heap catalog size) (root : Value size) (collectAll : Bool) :
    (validator.validate heap root collectAll).validator.cache.Reached := by
  by_cases absent : root = .nil
  · subst absent
    exact reached
  · have kept : (validator.played heap root collectAll).2.cache.Reached :=
      WalkContext.play_reached _ _ _ reached
    rw [validate_eq_played reached heap absent]
    exact kept

end Validator

/-! ## Requests -/

/-- A value to be validated, over a heap of its own. -/
structure Request (catalog : Catalog) where
  size : Nat
  heap : Heap catalog size
  root : Value size
  /-- Whether all failures are wanted. -/
  collectAll : Bool

namespace Validator

variable [PatternLibrary] {catalog : Catalog}

/-- A validator with these functions that has validated nothing yet. -/
def fresh (catalog : Catalog) (options : ValidatorOptions) (registry : Registry) :
    Validator catalog :=
  ⟨options.separator, registry, .empty catalog options.tag, .empty⟩

def serve (validator : Validator catalog) (request : Request catalog) : Validation catalog :=
  validator.validate request.heap request.root request.collectAll

/-- The validator that is left after it served requests, one after another. -/
def afterAll (validator : Validator catalog) (history : List (Request catalog)) :
    Validator catalog :=
  history.foldl (fun validator request => (validator.serve request).validator) validator

/-- However many requests it served, a validator is like it was. -/
theorem afterAll_alike (history : List (Request catalog)) {validator : Validator catalog}
    (reached : validator.cache.Reached) :
    (validator.afterAll history).Alike validator ∧
      (validator.afterAll history).cache.Reached := by
  induction history generalizing validator with
  | nil => exact ⟨.refl validator, reached⟩
  | cons request rest ih =>
    have served := validate_alike reached request.heap request.root request.collectAll
    obtain ⟨alike, still_reached⟩ :=
      ih (validate_reached reached request.heap request.root request.collectAll)
    exact ⟨alike.trans served, still_reached⟩

/-- **What is kept cannot be told from an answer.**  After any requests, over any heaps, with all
failures wanted or only the first, and whether they went well, failed or met broken rules, a
validator gives to a further request the answer that a fresh one gives: that all is well, that there
is no value, the same compile error, or the same failures. -/
theorem serve_afterAll (options : ValidatorOptions) (registry : Registry)
    (history : List (Request catalog)) (request : Request catalog) :
    (((fresh catalog options registry).afterAll history).serve request).outcome =
      ((fresh catalog options registry).serve request).outcome := by
  have reached : (fresh catalog options registry).cache.Reached := .empty options.tag
  obtain ⟨alike, still_reached⟩ := afterAll_alike history reached
  exact alike.outcome_eq still_reached reached request.heap request.root request.collectAll

end Validator

end Proviso
