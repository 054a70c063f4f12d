/- # Proviso.Proofs.Walk.Play -- a walk plays the itinerary

What a walk does to the cache, the ledger and the failures can be said event by event: entering a
record looks its rules up, and visiting a field checks its rule.  `play` does one event after
another, until one of them stops.  `descend_plays` is the link to the walk: from any state the walk
of a value comes to what playing its itinerary comes to, and leaves the path and the guard as it
found them. -/
import Proviso.Proofs.Rule.Message
import Proviso.Proofs.Schema.Lookup
import Proviso.Proofs.Walk.Itinerary
import Proviso.Walk.Traversal

namespace Proviso

set_option autoImplicit false

/-! ## Fields of records -/

namespace Walk

theorem zipIdx_map_zipIdx {α β : Type} (f : α × Nat → β) (items : List α) (first : Nat) :
    ((items.zipIdx first).map f).zipIdx first =
      (items.zipIdx first).map fun place => (f place, place.2) := by
  induction items generalizing first with
  | nil => rfl
  | cons item rest ih => simp [List.zipIdx_cons, ih]

/-- The positions that a schema gives to fields are their places in it. -/
theorem index_of_fields_eq {catalog : Catalog} {schema : Schema} {type : catalog.TypeId}
    (fields_eq : schema.fields.map (fun rule => (rule.name, rule.index)) =
      (catalog.type type).fields.zipIdx.map fun place => (place.1.name, place.2))
    {field : FieldRule} (listed : field ∈ schema.fields) :
    schema.fields[field.index]? = some field := by
  obtain ⟨place, inside, rfl⟩ := List.mem_iff_getElem.mp listed
  have same := congrArg (·[place]?) fields_eq
  simp only [List.getElem?_map, List.getElem?_zipIdx, List.getElem?_eq_getElem inside,
    Option.map_some] at same
  cases declared : (catalog.type type).fields[place]? with
  | none => simp [declared] at same
  | some declaration =>
    simp only [declared, Option.map_some, Option.some.injEq, Prod.mk.injEq] at same
    rw [same.2, Nat.zero_add]
    exact List.getElem?_eq_getElem inside

/-- The steps that lead on from a record are those to the fields of its schema. -/
theorem moves_record {catalog : Catalog} {size : Nat} {heap : Heap catalog size} {id : Fin size}
    {type : catalog.TypeId} {values : List (Value size)} (holds : heap.object id = .record type values) {schema : Schema}
    (fields_eq : schema.fields.map (fun rule => (rule.name, rule.index)) =
      (catalog.type type).fields.zipIdx.map fun place => (place.1.name, place.2)) :
    (heap.moves id).zipIdx = schema.fields.map fun field =>
      ((.field field.name, (heap.object id).get (.field field.index)), field.index) := by
  unfold Heap.moves
  rw [holds]
  dsimp only
  rw [zipIdx_map_zipIdx]
  have mapped := congrArg (List.map fun place : String × Nat =>
    ((Segment.field place.1, (heap.object id).get (.field place.2)), place.2)) fields_eq
  rw [List.map_map, List.map_map, holds] at mapped
  exact mapped.symm

end Walk

variable [PatternLibrary]

/-! ## Playing events -/

/-- What a walk leaves behind. -/
structure Tally (catalog : Catalog) where
  cache : SchemaCache catalog
  ledger : Ledger
  /-- The failures found, the latest first. -/
  failures : List FieldError

namespace WalkState

variable {catalog : Catalog} {size : Nat}

def tally (state : WalkState catalog size) : Tally catalog :=
  ⟨state.cache, state.ledger, state.failures⟩

def withTally (state : WalkState catalog size) (tally : Tally catalog) : WalkState catalog size :=
  ⟨tally.cache, tally.ledger, state.path, state.guard, tally.failures⟩

end WalkState

/-- The rule of the field at a position, by the schema of its type. -/
def Schema.rule? (schema : Schema) (position : Nat) : Option Rule :=
  schema.fields[position]?.bind (·.rule)

namespace WalkContext

variable {catalog : Catalog} {size : Nat} (context : WalkContext catalog size)
  (schemas : catalog.TypeId → Except CompileError Schema)

/-- The rule of a field of an object, if the object is a record and the field has a rule. -/
def ruleAt (record : Fin size) (position : Nat) : Option Rule :=
  match context.heap.object record with
  | .record type _ => (schemas type).toOption.bind (·.rule? position)
  | _ => none

/-- Checks a field, as a function of what a walk leaves behind. -/
def checkVisit (visit : Visit size) (tally : Tally catalog) : Flow × Tally catalog :=
  let value := (context.heap.object visit.record).get (.field visit.position)
  match context.ruleAt schemas visit.record visit.position with
  | none => (.continue, tally)
  | some rule =>
    if Walk.applies rule value then
      match rule.check context.heap ⟨value, visit.record⟩ tally.ledger with
      | (.pass, ledger) => (.continue, ⟨tally.cache, ledger, tally.failures⟩)
      | (.fail message, ledger) =>
        (if context.collectAll then .continue else .stop,
          ⟨tally.cache, ledger, ⟨visit.path, message⟩ :: tally.failures⟩)
    else (.continue, tally)

def act (event : Event catalog size) (tally : Tally catalog) :
    Except CompileError Flow × Tally catalog :=
  match event with
  | .enter type =>
    let (result, cache) := tally.cache.schemaForRecord context.registry type
    (result.map fun _ => .continue, ⟨cache, tally.ledger, tally.failures⟩)
  | .check visit =>
    let (flow, tally) := context.checkVisit schemas visit tally
    (.ok flow, tally)

/-- Does one event after another, until one of them stops. -/
def play : List (Event catalog size) → Tally catalog → Except CompileError Flow × Tally catalog
  | [], tally => (.ok .continue, tally)
  | event :: rest, tally =>
    match context.act schemas event tally with
    | (.ok .continue, tally) => play rest tally
    | stopped => stopped

theorem play_append (first second : List (Event catalog size)) (tally : Tally catalog) :
    context.play schemas (first ++ second) tally =
      match context.play schemas first tally with
      | (.ok .continue, tally) => context.play schemas second tally
      | stopped => stopped := by
  induction first generalizing tally with
  | nil => rfl
  | cons event rest ih =>
    rw [List.cons_append, play, play]
    cases acted : context.act schemas event tally with
    | mk result after =>
      cases result with
      | error error => rfl
      | ok flow =>
        cases flow with
        | stop => rfl
        | «continue» => exact ih after

theorem play_enter (type : catalog.TypeId) (rest : List (Event catalog size))
    (tally : Tally catalog) :
    context.play schemas (.enter type :: rest) tally =
      match tally.cache.schemaForRecord context.registry type with
      | (.ok _, cache) => context.play schemas rest ⟨cache, tally.ledger, tally.failures⟩
      | (.error error, cache) => (.error error, ⟨cache, tally.ledger, tally.failures⟩) := by
  rw [play, act]
  cases tally.cache.schemaForRecord context.registry type with
  | mk result cache => cases result <;> rfl

theorem play_check (visit : Visit size) (rest : List (Event catalog size))
    (tally : Tally catalog) :
    context.play schemas (.check visit :: rest) tally =
      match context.checkVisit schemas visit tally with
      | (.continue, tally) => context.play schemas rest tally
      | (.stop, tally) => (.ok .stop, tally) := by
  rw [play, act]
  cases context.checkVisit schemas visit tally with
  | mk flow tally => cases flow <;> rfl

/-- Checking a field leaves the cache alone. -/
theorem checkVisit_cache (visit : Visit size) (tally : Tally catalog) :
    (context.checkVisit schemas visit tally).2.cache = tally.cache := by
  unfold checkVisit
  cases context.ruleAt schemas visit.record visit.position with
  | none => rfl
  | some rule =>
    dsimp only
    split
    · split <;> rfl
    · rfl

/-- No event changes the schema of a type. -/
theorem act_grows (event : Event catalog size) (tally : Tally catalog) :
    tally.cache.Grows context.registry (context.act schemas event tally).2.cache := by
  cases event with
  | enter type => exact tally.cache.schemaForRecord_grows type
  | check visit =>
    show tally.cache.Grows context.registry (context.checkVisit schemas visit tally).2.cache
    rw [checkVisit_cache]
    exact .refl _

theorem play_grows (events : List (Event catalog size)) (tally : Tally catalog) :
    tally.cache.Grows context.registry (context.play schemas events tally).2.cache := by
  induction events generalizing tally with
  | nil => exact .refl _
  | cons event rest ih =>
    have first := context.act_grows schemas event tally
    rw [play]
    split
    · rename_i after acted
      rw [acted] at first
      exact first.trans (ih after)
    · exact first

end WalkContext

/-! ## Walks that play events -/

namespace Walk

variable {catalog : Catalog} {size : Nat} (context : WalkContext catalog size)
  (schemas : catalog.TypeId → Except CompileError Schema)

/-! ### Runs of the parts of a walk -/

theorem run_within (segment : Segment) (visit : Walk catalog size Flow)
    (state : WalkState catalog size) :
    (within segment visit).run state =
      match visit.run (state.withPath (state.path.push segment)) with
      | (flow, after) => (flow, after.withPath after.path.pop) := rfl

theorem run_guarded (id : Fin size) (visit : Walk catalog size Flow)
    (state : WalkState catalog size) :
    (guarded id visit).run state =
      match state.guard.enter? id with
      | none => (.ok .continue, state)
      | some guard =>
        match visit.run (state.withGuard guard) with
        | (flow, after) => (flow, after.withGuard (after.guard.leave id)) := by
  show (match state.guard.enter? id with
    | none => pure (.ok .continue)
    | some guard => _ : StateM (WalkState catalog size) (Except CompileError Flow)) state = _
  cases state.guard.enter? id <;> rfl

theorem run_schemaFor (registry : Registry) (type : catalog.TypeId)
    (state : WalkState catalog size) :
    (schemaFor registry type).run state =
      ((state.cache.schemaForRecord registry type).1,
        state.withCache (state.cache.schemaForRecord registry type).2) := rfl

/-- Checking a field does to the state what it does to what the walk leaves behind. -/
theorem run_checkField {context : WalkContext catalog size}
    {schemas : catalog.TypeId → Except CompileError Schema} (visit : Visit size)
    {rule : Option Rule} (has_rule : context.ruleAt schemas visit.record visit.position = rule)
    {state : WalkState catalog size} (at_path : state.path = visit.path) :
    (checkField context
        ⟨(context.heap.object visit.record).get (.field visit.position), visit.record⟩ rule).run state =
      (.ok (context.checkVisit schemas visit state.tally).1,
        state.withTally (context.checkVisit schemas visit state.tally).2) := by
  unfold checkField WalkContext.checkVisit
  rw [has_rule]
  cases rule with
  | none => rfl
  | some rule =>
    dsimp only
    by_cases asked : applies rule ((context.heap.object visit.record).get (.field visit.position))
    · simp only [if_pos asked]
      rw [run_bind, show (get : Walk catalog size _).run state = (.ok state, state) from rfl]
      dsimp only [WalkState.tally]
      rcases rule.check context.heap
        ⟨(context.heap.object visit.record).get (.field visit.position), visit.record⟩
        state.ledger with ⟨_ | message, ledger⟩
      · rfl
      · rw [run_bind, ← at_path]
        rfl
    · simp only [if_neg asked]
      rfl

/-! ### Playing -/

/-- At a path, with the objects entered, a walk comes to what playing the events comes to, and
leaves the path and the guard as they are. -/
def Plays (path : FieldPath) (entered : List (Fin size)) (walk : Walk catalog size Flow)
    (events : List (Event catalog size)) : Prop :=
  ∀ state : WalkState catalog size, state.path = path → state.guard.entered = entered →
    state.cache.schemaOf context.registry = schemas →
    walk.run state = ((context.play schemas events state.tally).1,
      state.withTally (context.play schemas events state.tally).2)

variable {context schemas} {path : FieldPath} {entered : List (Fin size)}

theorem Plays.return : Plays context schemas path entered (return .continue) [] :=
  fun _ _ _ _ => rfl

theorem Plays.within {segment : Segment} {visit : Walk catalog size Flow}
    {events : List (Event catalog size)}
    (plays : Plays context schemas (path.push segment) entered visit events) :
    Plays context schemas path entered (within segment visit) events := by
  intro state at_path with_entered with_schemas
  have ran := plays (state.withPath (state.path.push segment)) (by rw [← at_path]; rfl)
    with_entered with_schemas
  rw [run_within, ran]
  rfl

theorem Plays.guarded {id : Fin size} {visit : Walk catalog size Flow}
    {events : List (Event catalog size)} (unentered : id ∉ entered)
    (plays : Plays context schemas path (id :: entered) visit events) :
    Plays context schemas path entered (Walk.guarded id visit) events := by
  intro state at_path with_entered with_schemas
  cases entering : state.guard.enter? id with
  | none =>
    simp only [Guard.enter?, with_entered, unentered, dite_false] at entering
    cases entering
  | some inner =>
    have left := Guard.leave_of_enter? entering
    have now_entered : inner.entered = id :: entered := by
      simp only [Guard.enter?, with_entered, unentered, dite_false] at entering
      cases entering
      rfl
    have ran := plays (state.withGuard inner) at_path now_entered with_schemas
    have restored : ∀ tally : Tally catalog,
        ((state.withGuard inner).withTally tally).withGuard (inner.leave id) =
          state.withTally tally := by
      intro tally
      rw [left]
      rfl
    simp only [run_guarded, entering, ran]
    exact Prod.ext rfl (restored _)

theorem Plays.again {id : Fin size} {visit : Walk catalog size Flow}
    (again : id ∈ entered) : Plays context schemas path entered (Walk.guarded id visit) [] := by
  intro state at_path with_entered with_schemas
  have refused : state.guard.enter? id = none := by
    simp [Guard.enter?, with_entered, again]
  rw [run_guarded, refused]
  rfl

/-- A walk that goes on where another one does not stop. -/
theorem Plays.bind {first : Walk catalog size Flow} {next : Flow → Walk catalog size Flow}
    {events later : List (Event catalog size)}
    (plays : Plays context schemas path entered first events)
    (stops : next .stop = return .stop)
    (onward : Plays context schemas path entered (next .continue) later) :
    Plays context schemas path entered (first >>= next) (events ++ later) := by
  intro state at_path with_entered with_schemas
  have grows := context.play_grows schemas events state.tally
  rw [run_bind, plays state at_path with_entered with_schemas, context.play_append]
  cases played : context.play schemas events state.tally with
  | mk result tally =>
    rw [played] at grows
    cases result with
    | error error => rfl
    | ok flow =>
      cases flow with
      | stop =>
        dsimp only
        rw [stops]
        rfl
      | «continue» =>
        exact onward (state.withTally tally) at_path with_entered
          (grows.schemaOf_eq.trans with_schemas)

theorem Plays.each {α : Type} {visit : α → Walk catalog size Flow}
    {events : α → List (Event catalog size)} {items : List α}
    (plays : ∀ item ∈ items, Plays context schemas path entered (visit item) (events item)) :
    Plays context schemas path entered (Walk.each visit items) (items.flatMap events) := by
  induction items with
  | nil => exact .return
  | cons item rest ih =>
    have rest_plays := ih fun other member => plays other (List.mem_cons_of_mem _ member)
    rw [Walk.each, List.flatMap_cons]
    exact (plays item List.mem_cons_self).bind rfl rest_plays

/-- A record is entered by looking its rules up. -/
theorem Plays.enter {type : catalog.TypeId} {next : Schema → Walk catalog size Flow}
    {events : List (Event catalog size)}
    (plays : ∀ schema, schemas type = .ok schema →
      Plays context schemas path entered (next schema) events) :
    Plays context schemas path entered (schemaFor context.registry type >>= next)
      (.enter type :: events) := by
  intro state at_path with_entered with_schemas
  have grows : state.cache.Grows context.registry _ := state.cache.schemaForRecord_grows type
  have found : ∀ schema, (state.cache.schemaForRecord context.registry type).1 = .ok schema →
      schemas type = .ok schema := by
    intro schema given
    rw [← with_schemas]
    exact SchemaCache.schemaForRecord_eq_ok given
  have enters := context.play_enter schemas type events state.tally
  rw [show state.tally.cache = state.cache from rfl] at enters
  rw [run_bind, run_schemaFor, enters]
  cases looked : state.cache.schemaForRecord context.registry type with
  | mk result cache =>
    rw [looked] at grows found
    cases result with
    | error error => rfl
    | ok schema =>
      exact plays schema (found schema rfl) (state.withCache cache) at_path with_entered
        (grows.schemaOf_eq.trans with_schemas)

/-- A field is visited by checking its rule, and then what it holds is walked. -/
theorem Plays.field {id : Fin size} {position : Nat} {address : List Nat}
    {rule : Option Rule} {next : Walk catalog size Flow} {events : List (Event catalog size)}
    (has_rule : context.ruleAt schemas id position = rule)
    (plays : Plays context schemas path entered next events) :
    Plays context schemas path entered
      (do
        match ← checkField context ⟨(context.heap.object id).get (.field position), id⟩ rule with
        | .stop => return .stop
        | .continue => next)
      (.check ⟨address, path, id, position⟩ :: events) := by
  intro state at_path with_entered with_schemas
  have kept := context.checkVisit_cache schemas ⟨address, path, id, position⟩ state.tally
  have ran := run_checkField ⟨address, path, id, position⟩ has_rule at_path
  rw [run_bind, ran, context.play_check]
  cases checked : context.checkVisit schemas ⟨address, path, id, position⟩ state.tally with
  | mk flow tally =>
    rw [checked] at kept
    cases flow with
    | stop => rfl
    | «continue» =>
      refine plays (state.withTally tally) at_path with_entered ?_
      show tally.cache.schemaOf context.registry = schemas
      rw [kept]
      exact with_schemas

/-! ### The walk of a value -/

theorem each_map {α β : Type} (visit : β → Walk catalog size Flow) (f : α → β) (items : List α) :
    Walk.each visit (items.map f) = Walk.each (fun item => visit (f item)) items := by
  induction items with
  | nil => rfl
  | cons item rest ih => rw [List.map_cons, Walk.each, Walk.each, ih]

/-- The walk of a value plays its itinerary, if there are levels enough for all objects that have
not been entered. -/
theorem descend_plays
    (fields_eq : ∀ type schema, schemas type = .ok schema →
      schema.fields.map (fun rule => (rule.name, rule.index)) =
        (catalog.type type).fields.zipIdx.map fun place => (place.1.name, place.2))
    (levels : Nat) (trail : Trail size) (value : Value size) (enough : trail.fresh < levels) :
    Plays context schemas trail.path trail.entered (descend context levels value)
      (context.heap.itinerary trail value) := by
  induction levels generalizing trail value with
  | zero => omega
  | succ levels ih =>
    cases value with
    | object id =>
      rw [Heap.itinerary, descend]
      by_cases again : id ∈ trail.entered
      · rw [dif_pos again]
        exact .again again
      · rw [dif_neg again]
        refine .guarded again ?_
        have below : ∀ position segment child,
            Plays context schemas (trail.path.push segment) (id :: trail.entered)
              (descend context levels child)
              (context.heap.itinerary (trail.down id position segment) child) := by
          intro position segment child
          have fewer := Trail.fresh_down_lt again position segment
          exact ih (trail.down id position segment) child (by omega)
        unfold visit Heap.arrival
        cases holds : context.heap.object id with
        | record type values =>
          refine .enter fun schema found => ?_
          rw [moves_record holds (fields_eq type schema found), List.flatMap_map]
          refine .each fun field listed => ?_
          have has_rule : context.ruleAt schemas id field.index = field.rule := by
            have at_index := index_of_fields_eq (fields_eq type schema found) listed
            simp [WalkContext.ruleAt, holds, found, Except.toOption, Schema.rule?, at_index]
          exact (Plays.field has_rule (below _ _ _)).within
        | sequence items =>
          unfold Heap.moves
          simp only [holds]
          rw [zipIdx_map_zipIdx, List.flatMap_map, List.nil_append]
          exact .each fun place _ => (below _ _ _).within
        | map values =>
          unfold Heap.moves
          simp only [holds]
          have counted : values = values.zipIdx.map Prod.fst := by rw [List.zipIdx_map_fst]
          rw [List.zipIdx_map, List.flatMap_map, List.nil_append]
          conv in Walk.each _ values => rw [counted, each_map]
          exact .each fun place _ => (below _ _ _).within
    | nil | bool | int | uint | float | str =>
      simp only [Heap.itinerary, descend]
      exact .return

end Walk

end Proviso
