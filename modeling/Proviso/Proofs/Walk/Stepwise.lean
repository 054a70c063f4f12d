/- # Proviso.Proofs.Walk.Stepwise -- a walk, moment by moment

The walk of a value is spelled out here as a machine that keeps a stack of the visits that are open
and goes on by one small step at a time.  The machine comes to what the walk comes to
(`reaches_descend`), so that its moments are those of the walk, and what is true at every moment can
be said: the guard holds the objects whose visits are open, each once (`Moment.Guarded`).  From this,
and from what is known of a walk that has ended, the two sides of the same matter are put together
in `walk_leaves_as_found`. -/
import Mathlib.Data.Fintype.Card
import Mathlib.Logic.Relation
import Proviso.Proofs.Walk.Restoration

namespace Proviso

set_option autoImplicit false

variable [PatternLibrary] {catalog : Catalog} {size : Nat}

/-! ## Moments -/

/-- A step down that is to be made from an object. -/
structure Task (size : Nat) where
  segment : Segment
  /-- The rule to check first, if there is one. -/
  rule : Option Rule
  value : Value size

/-- The visit of an object that has been entered and not left. -/
structure OpenVisit (size : Nat) where
  id : Fin size
  /-- What is still to be visited. -/
  tasks : List (Task size)

/-- What a walk is about to do. -/
inductive Phase (size : Nat) where
  /-- To walk a value. -/
  | descending (value : Value size)
  /-- To find out what there is to visit at the object just entered. -/
  | arriving
  /-- To go on with the next task of the innermost visit. -/
  | proceeding
  /-- To leave the object of the innermost visit. -/
  | leaving (result : Except CompileError Flow)
  /-- To go back to where the walk of a value was asked for. -/
  | returning (result : Except CompileError Flow)

structure Moment (catalog : Catalog) (size : Nat) where
  phase : Phase size
  /-- The visits that are open, the innermost first. -/
  visits : List (OpenVisit size)
  state : WalkState catalog size

namespace Moment

/-- The objects whose visits are open, the innermost first. -/
def openIds (moment : Moment catalog size) : List (Fin size) := moment.visits.map OpenVisit.id

/-- The guard holds the objects that were on the way at first and those whose visits are open. -/
def Guarded (entered : List (Fin size)) (moment : Moment catalog size) : Prop :=
  moment.state.guard.entered = moment.openIds ++ entered

end Moment

namespace Walk

variable (context : WalkContext catalog size)

/-! ## Steps -/

def fieldTask (record : Fin size) (field : FieldRule) : Task size :=
  ⟨.field field.name, field.rule, (context.heap.object record).get (.field field.index)⟩

/-- What there is to visit at an object.  Only for a record a schema is needed. -/
def tasks (id : Fin size) : Walk catalog size (List (Task size)) :=
  match context.heap.object id with
  | .record type _ => do
    let schema ← schemaFor context.registry type
    return schema.fields.map (fieldTask context id)
  | .sequence items => return items.zipIdx.map fun item => ⟨.index item.2, none, item.1⟩
  | .map values => return values.map fun value => ⟨.mapValue, none, value⟩

/-- What comes after a moment; nothing does after the return from the outermost value. -/
def next (moment : Moment catalog size) : Option (Moment catalog size) :=
  match moment with
  | ⟨.descending (.object id), visits, state⟩ =>
    match state.guard.enter? id with
    | none => some ⟨.returning (.ok .continue), visits, state⟩
    | some guard => some ⟨.arriving, ⟨id, []⟩ :: visits, state.withGuard guard⟩
  | ⟨.descending _, visits, state⟩ => some ⟨.returning (.ok .continue), visits, state⟩
  | ⟨.arriving, visit :: outer, state⟩ =>
    match (tasks context visit.id).run state with
    | (.ok tasks, after) => some ⟨.proceeding, ⟨visit.id, tasks⟩ :: outer, after⟩
    | (.error error, after) => some ⟨.leaving (.error error), visit :: outer, after⟩
  | ⟨.proceeding, ⟨id, []⟩ :: outer, state⟩ =>
    some ⟨.leaving (.ok .continue), ⟨id, []⟩ :: outer, state⟩
  | ⟨.proceeding, ⟨id, task :: rest⟩ :: outer, state⟩ =>
    match (checkField context ⟨task.value, id⟩ task.rule).run
        (state.withPath (state.path.push task.segment)) with
    | (.ok .continue, after) => some ⟨.descending task.value, ⟨id, rest⟩ :: outer, after⟩
    | (stopped, after) => some ⟨.returning stopped, ⟨id, rest⟩ :: outer, after⟩
  | ⟨.leaving result, visit :: outer, state⟩ =>
    some ⟨.returning result, outer, state.withGuard (state.guard.leave visit.id)⟩
  | ⟨.returning (.ok .continue), visit :: outer, state⟩ =>
    some ⟨.proceeding, visit :: outer, state.withPath state.path.pop⟩
  | ⟨.returning stopped, visit :: outer, state⟩ =>
    some ⟨.leaving stopped, visit :: outer, state.withPath state.path.pop⟩
  | ⟨_, [], _⟩ => none

/-- A later moment of the walk that an earlier one belongs to. -/
def Reaches : Moment catalog size → Moment catalog size → Prop :=
  Relation.ReflTransGen fun before after => next context before = some after

/-! ## What is true at every moment -/

theorem restores_tasks (id : Fin size) : Restores (tasks context id) := by
  unfold tasks
  cases context.heap.object id with
  | record type values => exact .bind (.schemaFor _ _) fun _ => .return _
  | sequence items => exact .return _
  | map values => exact .return _

/-- Checking a field leaves the cache alone. -/
theorem checkField_cache (scope : Scope size) (rule : Option Rule)
    (state : WalkState catalog size) :
    ((checkField context scope rule).run state).2.cache = state.cache := by
  cases rule with
  | none => rfl
  | some rule =>
    unfold checkField
    by_cases asked : applies rule scope.current
    · simp only [if_pos asked]
      rw [run_bind, show (get : Walk catalog size _).run state = (.ok state, state) from rfl]
      dsimp only
      rcases rule.check context.heap scope state.ledger with ⟨_ | message, ledger⟩ <;> rfl
    · simp only [if_neg asked]
      rfl

/-- What a step does to the visits that are open, to the guard and to the cache. -/
inductive Turn (context : WalkContext catalog size) :
    Moment catalog size → Moment catalog size → Prop where
  /-- An object is entered. -/
  | enter {id : Fin size} {visits : List (OpenVisit size)} {state : WalkState catalog size}
      {guard : Guard size} (entering : state.guard.enter? id = some guard) :
      Turn context ⟨.descending (.object id), visits, state⟩
        ⟨.arriving, ⟨id, []⟩ :: visits, state.withGuard guard⟩
  /-- What there is to visit is found out, or turns out to be impossible to find out. -/
  | survey {visit : OpenVisit size} {outer : List (OpenVisit size)}
      {state after : WalkState catalog size} {phase : Phase size} {todo : List (Task size)}
      (quiet : ∀ value, phase ≠ .descending value)
      (after_eq : after = ((tasks context visit.id).run state).2)
      (found : todo = visit.tasks ∨ ((tasks context visit.id).run state).1 = .ok todo) :
      Turn context ⟨.arriving, visit :: outer, state⟩ ⟨phase, ⟨visit.id, todo⟩ :: outer, after⟩
  /-- The next task is taken up. -/
  | take {id : Fin size} {task : Task size} {rest : List (Task size)}
      {outer : List (OpenVisit size)} {state after : WalkState catalog size} {phase : Phase size}
      (onward : ∀ value, phase = .descending value → value = task.value)
      (guard_eq : after.guard = state.guard) (cache_eq : after.cache = state.cache) :
      Turn context ⟨.proceeding, ⟨id, task :: rest⟩ :: outer, state⟩
        ⟨phase, ⟨id, rest⟩ :: outer, after⟩
  /-- The object of the innermost visit is left. -/
  | leave {result : Except CompileError Flow} {visit : OpenVisit size}
      {outer : List (OpenVisit size)} {state : WalkState catalog size} :
      Turn context ⟨.leaving result, visit :: outer, state⟩
        ⟨.returning result, outer, state.withGuard (state.guard.leave visit.id)⟩
  /-- The walk goes on where it is. -/
  | stay {before phase : Phase size} {visits : List (OpenVisit size)}
      {state after : WalkState catalog size} (quiet : ∀ value, phase ≠ .descending value)
      (guard_eq : after.guard = state.guard) (cache_eq : after.cache = state.cache) :
      Turn context ⟨before, visits, state⟩ ⟨phase, visits, after⟩

variable {context} in
theorem turn_of_next {before after : Moment catalog size}
    (stepped : next context before = some after) : Turn context before after := by
  obtain ⟨phase, visits, state⟩ := before
  cases phase with
  | descending value =>
    cases value with
    | object id =>
      rw [next] at stepped
      cases entering : state.guard.enter? id with
      | none =>
        rw [entering] at stepped
        cases stepped
        exact .stay (by simp) rfl rfl
      | some guard =>
        rw [entering] at stepped
        cases stepped
        exact .enter entering
    | nil | bool | int | uint | float | str =>
      cases stepped
      exact .stay (by simp) rfl rfl
  | arriving =>
    cases visits with
    | nil => cases stepped
    | cons visit outer =>
      rw [next] at stepped
      cases ran : (tasks context visit.id).run state with
      | mk result later =>
        rw [ran] at stepped
        cases result with
        | ok found =>
          cases stepped
          exact .survey (by simp) (by rw [ran]) (.inr (by rw [ran]))
        | error error =>
          cases stepped
          exact .survey (by simp) (by rw [ran]) (.inl rfl)
  | proceeding =>
    match visits with
    | [] => cases stepped
    | ⟨id, []⟩ :: outer =>
      cases stepped
      exact .stay (by simp) rfl rfl
    | ⟨id, task :: rest⟩ :: outer =>
      rw [next] at stepped
      have kept := Restores.checkField context ⟨task.value, id⟩ task.rule
        (state.withPath (state.path.push task.segment))
      have cached := checkField_cache context ⟨task.value, id⟩ task.rule
        (state.withPath (state.path.push task.segment))
      cases ran : (checkField context ⟨task.value, id⟩ task.rule).run
          (state.withPath (state.path.push task.segment)) with
      | mk result later =>
        rw [ran] at stepped kept cached
        match result with
        | .ok .continue =>
          cases stepped
          exact .take (fun value same => (Phase.descending.inj same).symm) kept.guard_eq cached
        | .ok .stop | .error error =>
          cases stepped
          exact .take (by simp) kept.guard_eq cached
  | leaving result =>
    cases visits with
    | nil => cases stepped
    | cons visit outer =>
      cases stepped
      exact .leave
  | returning result =>
    cases visits with
    | nil => match result with
      | .ok .continue | .ok .stop | .error error => cases stepped
    | cons visit outer =>
      match result with
      | .ok .continue | .ok .stop | .error error =>
        cases stepped
        exact .stay (by simp) rfl rfl

/-- One step keeps the guard in line with the visits that are open. -/
theorem guarded_next {context : WalkContext catalog size} {entered : List (Fin size)}
    {before after : Moment catalog size} (guarded : before.Guarded entered)
    (stepped : next context before = some after) : after.Guarded entered := by
  unfold Moment.Guarded Moment.openIds at guarded ⊢
  cases turn_of_next stepped with
  | enter entering =>
    show _ = _ :: (_ ++ entered)
    rw [← guarded]
    exact Guard.entered_of_enter? entering
  | @survey visit outer state after phase todo quiet after_eq found =>
    rw [after_eq, (restores_tasks context visit.id state).guard_eq]
    exact guarded
  | take onward guard_eq cache_eq =>
    rw [guard_eq]
    exact guarded
  | @leave result visit outer state =>
    show state.guard.entered.erase visit.id = _
    rw [guarded, List.map_cons, List.cons_append, List.erase_cons_head]
  | stay quiet guard_eq cache_eq =>
    rw [guard_eq]
    exact guarded

/-- At every moment of a walk the guard is in line with the visits that are open. -/
theorem guarded_of_reaches {context : WalkContext catalog size} {entered : List (Fin size)}
    {first moment : Moment catalog size} (guarded : first.Guarded entered)
    (reached : Reaches context first moment) : moment.Guarded entered := by
  induction reached with
  | refl => exact guarded
  | tail _ stepped ih => exact guarded_next ih stepped

/-! ## The moments of a walk -/

def perform (descend : Value size → Walk catalog size Flow) (id : Fin size) (task : Task size) :
    Walk catalog size Flow :=
  within task.segment do
    match ← checkField context ⟨task.value, id⟩ task.rule with
    | .stop => return .stop
    | .continue => descend task.value

theorem restores_perform {descend : Value size → Walk catalog size Flow}
    (restores : ∀ value, Restores (descend value)) (id : Fin size) (task : Task size) :
    Restores (perform context descend id task) := by
  refine .within (.bind (.checkField _ _ _) fun flow => ?_) _
  cases flow with
  | «continue» => exact restores _
  | stop => exact .return _

/-- To visit an object is to find out what there is to visit, and to do one thing after another. -/
theorem visit_eq (descend : Value size → Walk catalog size Flow) (id : Fin size) :
    visit context descend id = (tasks context id >>= each (perform context descend id)) := by
  unfold visit tasks
  cases context.heap.object id with
  | record type values =>
    simp only [bind_assoc, pure_bind, each_map]
    rfl
  | sequence items =>
    simp only [pure_bind, each_map]
    rfl
  | map values =>
    simp only [pure_bind, each_map]
    rfl

/-- From the moment at which a value is to be walked with some guard, the moment is reached at which
what `descend` comes to is returned. -/
def Returns (context : WalkContext catalog size) (guard : Guard size)
    (descend : Value size → Walk catalog size Flow) : Prop :=
  ∀ (value : Value size) (visits : List (OpenVisit size)) (state : WalkState catalog size),
    state.guard = guard →
      Reaches context ⟨.descending value, visits, state⟩
        ⟨.returning ((descend value).run state).1, visits, ((descend value).run state).2⟩

section Visits

variable {context : WalkContext catalog size} {guard : Guard size}
  {descend : Value size → Walk catalog size Flow}

/-- One step down begins with a push and a check, and ends with a pop. -/
theorem reaches_perform (below : Returns context guard descend) (id : Fin size) (task : Task size)
    (rest : List (Task size)) (outer : List (OpenVisit size)) {state : WalkState catalog size}
    (with_guard : state.guard = guard) :
    ∃ inner : WalkState catalog size,
      ((perform context descend id task).run state).2 = inner.withPath inner.path.pop ∧
        Reaches context ⟨.proceeding, ⟨id, task :: rest⟩ :: outer, state⟩
          ⟨.returning ((perform context descend id task).run state).1, ⟨id, rest⟩ :: outer,
            inner⟩ := by
  have kept := Restores.checkField context ⟨task.value, id⟩ task.rule
    (state.withPath (state.path.push task.segment))
  rw [perform, run_within, run_bind]
  cases ran : (checkField context ⟨task.value, id⟩ task.rule).run
      (state.withPath (state.path.push task.segment)) with
  | mk result after =>
    rw [ran] at kept
    match result with
    | .error error =>
      refine ⟨after, rfl, .single ?_⟩
      rw [next, ran]
    | .ok .stop =>
      refine ⟨after, rfl, .single ?_⟩
      rw [next, ran]
      rfl
    | .ok .continue =>
      refine ⟨((descend task.value).run after).2, rfl, ?_⟩
      refine .head (b := ⟨.descending task.value, ⟨id, rest⟩ :: outer, after⟩) ?_ ?_
      · rw [next, ran]
      · exact below task.value _ after (kept.guard_eq.trans with_guard)

/-- One thing after another is done at the innermost visit, until one of them does not go on. -/
theorem reaches_each (below : Returns context guard descend)
    (restores : ∀ value, Restores (descend value)) (id : Fin size) (todo : List (Task size))
    (outer : List (OpenVisit size)) (state : WalkState catalog size)
    (with_guard : state.guard = guard) :
    ∃ rest, Reaches context ⟨.proceeding, ⟨id, todo⟩ :: outer, state⟩
      ⟨.leaving ((each (perform context descend id) todo).run state).1, ⟨id, rest⟩ :: outer,
        ((each (perform context descend id) todo).run state).2⟩ := by
  induction todo generalizing state with
  | nil => exact ⟨[], .single rfl⟩
  | cons task rest ih =>
    obtain ⟨inner, popped, reached⟩ := reaches_perform below id task rest outer with_guard
    have kept := restores_perform context restores id task state
    rw [each, run_bind]
    cases ran : (perform context descend id task).run state with
    | mk result after =>
      rw [ran] at popped reached kept
      cases popped
      rcases result with error | _ | _
      · exact ⟨rest, reached.tail rfl⟩
      · obtain ⟨left, onward⟩ := ih _ (kept.guard_eq.trans with_guard)
        exact ⟨left, (reached.tail rfl).trans onward⟩
      · exact ⟨rest, reached.tail rfl⟩

/-- An object that has been entered is visited, and then it is to be left. -/
theorem reaches_visit (below : Returns context guard descend)
    (restores : ∀ value, Restores (descend value)) (id : Fin size) (outer : List (OpenVisit size))
    (state : WalkState catalog size) (with_guard : state.guard = guard) :
    ∃ rest, Reaches context ⟨.arriving, ⟨id, []⟩ :: outer, state⟩
      ⟨.leaving ((visit context descend id).run state).1, ⟨id, rest⟩ :: outer,
        ((visit context descend id).run state).2⟩ := by
  have kept := restores_tasks context id state
  rw [visit_eq, run_bind]
  cases ran : (tasks context id).run state with
  | mk result after =>
    rw [ran] at kept
    cases result with
    | error error =>
      refine ⟨[], .single ?_⟩
      rw [next, ran]
    | ok todo =>
      obtain ⟨rest, reached⟩ :=
        reaches_each below restores id todo outer after (kept.guard_eq.trans with_guard)
      refine ⟨rest, .head (b := ⟨.proceeding, ⟨id, todo⟩ :: outer, after⟩) ?_ ?_⟩
      · rw [next, ran]
      · exact reached

end Visits

/-- The moment is reached at which what the walk of a value comes to is returned, if there are levels
enough for all objects that are not on the way. -/
theorem returns_descend (context : WalkContext catalog size) (levels : Nat) (guard : Guard size)
    (enough : size < levels + guard.depth) : Returns context guard (descend context levels) := by
  induction levels generalizing guard with
  | zero =>
    have distinct := guard.distinct.length_le_card
    rw [Fintype.card_fin] at distinct
    unfold Guard.depth at enough
    omega
  | succ levels ih =>
    intro value visits state with_guard
    cases value with
    | object id =>
      rw [descend, run_guarded]
      cases entering : state.guard.enter? id with
      | none =>
        refine .single ?_
        rw [next, entering]
      | some inner =>
        have deeper : inner.depth = guard.depth + 1 := by
          rw [Guard.depth, Guard.entered_of_enter? entering, with_guard, List.length_cons,
            Guard.depth]
        obtain ⟨rest, visited⟩ := reaches_visit (ih inner (by omega))
          (restores_descend context levels) id visits (state.withGuard inner) rfl
        refine .head (b := ⟨.arriving, ⟨id, []⟩ :: visits, state.withGuard inner⟩) ?_ ?_
        · rw [next, entering]
        · exact visited.tail rfl
    | nil | bool | int | uint | float | str => exact .single rfl

/-! ## The walk of a value -/

/-- **A walk leaves its context as it found it.**  For every context, every value and every state,
and whatever the walk comes to, the path and the guard are what they were, and the failures that were
noted before are the first of those noted after.  The walk is the run of the machine from the value
to the return, after which nothing comes; and at every moment of the run the guard holds the objects
whose visits are open, each of them once and none that was on the way before, so that to leave the
innermost one takes away none of the others. -/
theorem walk_leaves_as_found (context : WalkContext catalog size) (value : Value size)
    (state : WalkState catalog size) :
    let result := ((walk context value).run state).1
    let after := ((walk context value).run state).2
    let first : Moment catalog size := ⟨.descending value, [], state⟩
    let last : Moment catalog size := ⟨.returning result, [], after⟩
    after.path.segments = state.path.segments ∧
      after.guard.entered = state.guard.entered ∧
      state.failures.reverse <+: after.failures.reverse ∧
      Reaches context first last ∧ next context last = none ∧
      ∀ moment, Reaches context first moment →
        moment.state.guard.entered = moment.openIds ++ state.guard.entered ∧
          (moment.openIds ++ state.guard.entered).Nodup ∧
          ∀ visit outer, moment.visits = visit :: outer →
            (moment.state.guard.leave visit.id).entered =
              outer.map OpenVisit.id ++ state.guard.entered := by
  intro result after first last
  have kept := restores_descend context (size + 1) value state
  have reached : Reaches context first last :=
    returns_descend context (size + 1) state.guard (by omega) value [] state rfl
  refine ⟨congrArg FieldPath.segments kept.path_eq, congrArg Guard.entered kept.guard_eq,
    List.reverse_prefix.mpr kept.failures_suffix, reached, ?_, fun moment came => ?_⟩
  · show next context ⟨.returning result, [], after⟩ = none
    match result with
    | .ok .continue | .ok .stop | .error error => rfl
  · have at_first : first.Guarded state.guard.entered := rfl
    have guarded : moment.state.guard.entered = moment.openIds ++ state.guard.entered :=
      guarded_of_reaches at_first came
    refine ⟨guarded, guarded ▸ moment.state.guard.distinct, fun visit outer is_open => ?_⟩
    show moment.state.guard.entered.erase visit.id = _
    rw [guarded, Moment.openIds, is_open, List.map_cons, List.cons_append, List.erase_cons_head]

end Walk

end Proviso
