/- # Proviso.Proofs.Walk.Registration -- what is registered late is not seen

A validator registers functions and serves requests, in any order.  The journal of a history lists
each schema that is built in its course, with what is registered at the time.  It accounts for the
cache in the end (`Validator.journal_accounts`): no schema is built twice, and what is kept for a
type is what came of the one build of it, though more may be registered since.  Answers depend on
nothing else (`Validator.serve_eq_answerBy`), so what is registered after the schema of a type was
built makes no difference to its records (`Validator.schemas_stay_as_built`). -/
import Proviso.Proofs.Schema.Journal
import Proviso.Proofs.Walk.Typing

namespace Proviso

set_option autoImplicit false

/-! ## Names -/

/-- After registrations a name is bound to the last function of the name, and else as before. -/
theorem Registry.lookup?_registerAll (functions : List Function) (registry : Registry)
    (name : String) :
    (functions.foldl register registry).lookup? name =
      (functions.reverse.find? (·.name == name)).or (registry.lookup? name) := by
  induction functions generalizing registry with
  | nil => rfl
  | cons function rest ih =>
    have here : (registry.register function).lookup? name =
        ([function].find? (·.name == name)).or (registry.lookup? name) := by
      by_cases named : function.name = name
      · subst named
        simp [lookup?_register]
      · rw [lookup?_register_of_ne registry function (Ne.symm named)]
        simp [named]
    rw [List.foldl_cons, ih, List.reverse_cons, List.find?_append, Option.or_assoc, here]

/-! ## Builds in the course of a walk -/

namespace WalkContext

variable [PatternLibrary] {catalog : Catalog} {size : Nat} (context : WalkContext catalog size)
  (schemas : catalog.TypeId → Except CompileError Schema)

/-- Entering a record looks its type up; checking a field builds nothing. -/
def actBuilds (event : Event catalog size) (tally : Tally catalog) : List catalog.TypeId :=
  match event with
  | .enter type => tally.cache.schemaForRecordBuilds context.registry type
  | .check _ => []

/-- The types whose schemas are built when events are played. -/
def playBuilds : List (Event catalog size) → Tally catalog → List catalog.TypeId
  | [], _ => []
  | event :: rest, tally =>
    context.actBuilds event tally ++
      match context.act schemas event tally with
      | (.ok .continue, tally) => playBuilds rest tally
      | _ => []

theorem act_accounts (event : Event catalog size) (tally : Tally catalog) :
    SchemaCache.Accounts (SchemaCache.withRegistry context.registry (context.actBuilds event tally))
      tally.cache (context.act schemas event tally).2.cache := by
  cases event with
  | enter type => exact tally.cache.schemaForRecord_accounts type
  | check visit =>
    show SchemaCache.Accounts [] tally.cache (context.checkVisit schemas visit tally).2.cache
    rw [checkVisit_cache]
    exact .of_same rfl rfl

theorem play_accounts (events : List (Event catalog size)) (tally : Tally catalog) :
    SchemaCache.Accounts
      (SchemaCache.withRegistry context.registry (context.playBuilds schemas events tally))
      tally.cache (context.play schemas events tally).2.cache := by
  induction events generalizing tally with
  | nil => exact .of_same rfl rfl
  | cons event rest ih =>
    have here := context.act_accounts schemas event tally
    unfold playBuilds play SchemaCache.withRegistry
    rw [List.map_append]
    cases acted : context.act schemas event tally with
    | mk result after =>
      rw [acted] at here
      cases result with
      | error error => exact here.trans (.of_same rfl rfl)
      | ok flow =>
        cases flow with
        | stop => exact here.trans (.of_same rfl rfl)
        | «continue» => exact here.trans (ih after)

end WalkContext

/-! ## Histories -/

inductive Action (catalog : Catalog) where
  | register (function : Function)
  | validate (request : Request catalog)

/-- The functions that are registered in the course of a history, the first one first. -/
def registrations {catalog : Catalog} (history : List (Action catalog)) : List Function :=
  history.filterMap fun
    | .register function => some function
    | .validate _ => none

namespace Validator

section

variable [PatternLibrary] {catalog : Catalog}

def perform (validator : Validator catalog) : Action catalog → Validator catalog
  | .register function => validator.register function
  | .validate request => (validator.serve request).validator

def performAll (validator : Validator catalog) (history : List (Action catalog)) :
    Validator catalog :=
  history.foldl perform validator

/-- The builds in the course of a request, which plays the itinerary of its root, all of them with
what is registered then. -/
def requestBuilds (validator : Validator catalog) (request : Request catalog) :
    List (Build catalog) :=
  SchemaCache.withRegistry validator.registry
    (WalkContext.playBuilds ⟨request.heap, validator.registry, request.collectAll⟩
      (validator.cache.schemaOf validator.registry) (request.heap.itinerary .start request.root)
      ⟨validator.cache, .start validator.patterns, []⟩)

def actionBuilds (validator : Validator catalog) : Action catalog → List (Build catalog)
  | .register _ => []
  | .validate request => validator.requestBuilds request

/-- The builds in the course of a history, in their order. -/
def journal (validator : Validator catalog) : List (Action catalog) → List (Build catalog)
  | [] => []
  | action :: rest => validator.actionBuilds action ++ (validator.perform action).journal rest

variable {validator : Validator catalog}

theorem journal_append (validator : Validator catalog) (history later : List (Action catalog)) :
    validator.journal (history ++ later) =
      validator.journal history ++ (validator.performAll history).journal later := by
  induction history generalizing validator with
  | nil => rfl
  | cons action rest ih =>
    rw [List.cons_append, journal, journal, ih, List.append_assoc]
    rfl

/-- Each build in a journal was made at some action of the history. -/
theorem exists_of_mem_journal {history : List (Action catalog)} {build : Build catalog}
    (listed : build ∈ validator.journal history) :
    ∃ earlier action later, history = earlier ++ action :: later ∧
      build ∈ (validator.performAll earlier).actionBuilds action := by
  induction history generalizing validator with
  | nil => cases listed
  | cons action rest ih =>
    rcases List.mem_append.mp listed with here | below
    · exact ⟨[], action, rest, rfl, here⟩
    · obtain ⟨earlier, other, later, same, made⟩ := ih below
      exact ⟨action :: earlier, other, later, by rw [same, List.cons_append], made⟩

/-! ### What a history does -/

theorem validate_registry {size : Nat} (validator : Validator catalog) (heap : Heap catalog size)
    (root : Value size) (collectAll : Bool) :
    (validator.validate heap root collectAll).validator.registry = validator.registry := by
  unfold validate
  dsimp only
  split <;> rfl

theorem validate_separator {size : Nat} (validator : Validator catalog) (heap : Heap catalog size)
    (root : Value size) (collectAll : Bool) :
    (validator.validate heap root collectAll).validator.separator = validator.separator := by
  unfold validate
  dsimp only
  split <;> rfl

/-- After a history what is registered is what was registered in its course. -/
theorem performAll_registry (validator : Validator catalog) (history : List (Action catalog)) :
    (validator.performAll history).registry =
      (registrations history).foldl Registry.register validator.registry := by
  induction history generalizing validator with
  | nil => rfl
  | cons action rest ih =>
    show ((validator.perform action).performAll rest).registry = _
    rw [ih]
    cases action with
    | register function => rfl
    | validate request =>
      show (registrations rest).foldl _ (validator.serve request).validator.registry = _
      rw [serve, validate_registry]
      rfl

theorem performAll_separator (validator : Validator catalog) (history : List (Action catalog)) :
    (validator.performAll history).separator = validator.separator := by
  induction history generalizing validator with
  | nil => rfl
  | cons action rest ih =>
    show ((validator.perform action).performAll rest).separator = _
    rw [ih]
    cases action with
    | register function => rfl
    | validate request => exact validate_separator _ _ _ _

theorem perform_reached (reached : validator.cache.Reached) (action : Action catalog) :
    (validator.perform action).cache.Reached := by
  cases action with
  | register function => exact reached
  | validate request => exact validate_reached reached _ _ _

/-- A request changes the cache by its builds alone. -/
theorem perform_accounts (reached : validator.cache.Reached) (action : Action catalog) :
    SchemaCache.Accounts (validator.actionBuilds action) validator.cache
      (validator.perform action).cache := by
  cases action with
  | register function => exact .of_same rfl rfl
  | validate request =>
    show SchemaCache.Accounts (validator.requestBuilds request) validator.cache
      (validator.validate request.heap request.root request.collectAll).validator.cache
    have played := WalkContext.play_accounts
      ⟨request.heap, validator.registry, request.collectAll⟩
      (validator.cache.schemaOf validator.registry) (request.heap.itinerary .start request.root)
      ⟨validator.cache, .start validator.patterns, []⟩
    by_cases absent : request.root = .nil
    · have nothing : request.heap.itinerary .start request.root = [] := by
        simp [absent, Heap.itinerary]
      rw [requestBuilds, nothing, absent]
      exact .of_same rfl rfl
    · rw [validate_eq_played reached request.heap absent]
      exact played

/-- A history changes the cache by the builds of its journal alone. -/
theorem journal_accounts (history : List (Action catalog)) (reached : validator.cache.Reached) :
    SchemaCache.Accounts (validator.journal history) validator.cache
        (validator.performAll history).cache ∧
      (validator.performAll history).cache.Reached := by
  induction history generalizing validator with
  | nil => exact ⟨.of_same rfl rfl, reached⟩
  | cons action rest ih =>
    obtain ⟨onward, still_reached⟩ := ih (perform_reached reached action)
    exact ⟨(perform_accounts reached action).trans onward, still_reached⟩

/-! ## Answers -/

/-- The answer to a request when the types have these schemas.  No function is registered for it,
so those that matter are the ones that the schemas hold. -/
def answerBy (validator : Validator catalog) (schemas : catalog.TypeId → Except CompileError Schema)
    (request : Request catalog) : Except ValidationError Unit :=
  if request.root = .nil then .error .unsupported
  else
    let course := WalkContext.course request.collectAll
      ((request.heap.itinerary .start request.root).map
        (WalkContext.finding ⟨request.heap, .empty, request.collectAll⟩ schemas))
    validator.outcome course.1 course.2.reverse

/-- A validator answers by the schemas of the types, and by nothing else that it keeps. -/
theorem serve_eq_answerBy (reached : validator.cache.Reached) (request : Request catalog) :
    (validator.serve request).outcome =
      validator.answerBy (validator.cache.schemaOf validator.registry) request := by
  unfold answerBy
  by_cases absent : request.root = .nil
  · rw [if_pos absent, serve, absent]
    rfl
  · rw [if_neg absent, serve, validate_outcome reached request.heap absent]
    rfl

theorem answerBy_eq_of_separator {other : Validator catalog}
    (same : validator.separator = other.separator)
    (schemas : catalog.TypeId → Except CompileError Schema) (request : Request catalog) :
    validator.answerBy schemas request = other.answerBy schemas request := by
  unfold answerBy outcome
  rw [same]

/-- **What was built stays, and what is registered later is not seen.**  Take any history of
registrations and requests, from a validator that has no schemas yet.  The schema of no type is built
twice.  Each build is made in the course of a request, with what is registered at that moment, each
name being bound to the last function that was registered under it.  What is kept for a type is what
came of its build.  And whatever comes later, the schema that a type has is the one that was built
for it, and every request is answered by the schemas that the types have. -/
theorem schemas_stay_as_built (options : ValidatorOptions) (registry : Registry)
    (history : List (Action catalog)) :
    let start := fresh catalog options registry
    let builds := start.journal history
    (builds.map (·.type)).Nodup ∧
      (∀ build ∈ builds, ∃ earlier request later,
        history = earlier ++ .validate request :: later ∧
        build ∈ (start.performAll earlier).requestBuilds request ∧
        build.registry = (start.performAll earlier).registry ∧
        ∀ name, build.registry.lookup? name =
          ((registrations earlier).reverse.find? (·.name == name)).or (registry.lookup? name)) ∧
      (∀ type, (start.performAll history).cache.schemas.get type =
        (builds.find? (·.type == type)).map (·.result options.tag)) ∧
      ∀ later,
        let now := start.performAll (history ++ later)
        let schemas := now.cache.schemaOf now.registry
        (∀ build ∈ builds, schemas build.type = build.result options.tag) ∧
          ∀ request, (now.serve request).outcome = start.answerBy schemas request := by
  intro start builds
  have reached : start.cache.Reached := .empty options.tag
  obtain ⟨accounts, -⟩ := journal_accounts history reached
  refine ⟨accounts.distinct, ?_, ?_, ?_⟩
  · intro build listed
    obtain ⟨earlier, action, later, same, made⟩ := exists_of_mem_journal listed
    cases action with
    | register function => cases made
    | validate request =>
      have with_registry : build.registry = (start.performAll earlier).registry := by
        obtain ⟨type, -, rfl⟩ := List.mem_map.mp made
        rfl
      refine ⟨earlier, request, later, same, made, with_registry, fun name => ?_⟩
      rw [with_registry, performAll_registry, Registry.lookup?_registerAll]
      rfl
  · intro type
    have empty_before : start.cache.schemas.get type = none := by
      simp [start, fresh, SchemaCache.empty, Vector.get]
    rw [accounts.entries, empty_before, Option.none_or]
    rfl
  · intro later now schemas
    obtain ⟨all_accounts, still_reached⟩ := journal_accounts (history ++ later) reached
    refine ⟨fun build listed => ?_, fun request => ?_⟩
    · have kept := all_accounts.entry
        (journal_append start history later ▸ List.mem_append_left _ listed)
      show (now.cache.schemas.get build.type).getD _ = _
      rw [kept]
      rfl
    · rw [serve_eq_answerBy still_reached]
      exact answerBy_eq_of_separator (performAll_separator start (history ++ later)) schemas request

end

attribute [local instance] Pattern.library

-- The closure of the outer type ends in the error of the inner one.  Both schemas are built in its
-- course, and neither is built again for a record of the inner type.
example : ((fresh brokenCatalog .default .builtins).journal
    [.validate ⟨1, emptyHeap, .object 0, true⟩, .register .len,
      .validate ⟨3, nestedHeap, .object 2, true⟩]).map (·.type.val) = [0, 1] := by
  decide +kernel

end Validator

end Proviso
