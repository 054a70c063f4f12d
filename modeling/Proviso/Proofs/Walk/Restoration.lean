/- # Proviso.Proofs.Walk.Restoration -- walks leave the path and the guard as they found them

Every part of a walk gives back the path and the guard that it was handed, whatever it comes to, and
adds failures to those that were noted before and takes none away.  This is shown for each way of
putting walks together, and needs nothing of the state that a walk starts in. -/
import Proviso.Proofs.Rule.Message
import Proviso.Proofs.Walk.Play

namespace Proviso

set_option autoImplicit false

variable [PatternLibrary] {catalog : Catalog} {size : Nat}

/-- A later state has the path and the guard of an earlier one, and its failures as the first
ones noted. -/
structure WalkState.Kept (before after : WalkState catalog size) : Prop where
  path_eq : after.path = before.path
  guard_eq : after.guard = before.guard
  failures_suffix : before.failures <:+ after.failures

namespace WalkState.Kept

theorem refl (state : WalkState catalog size) : state.Kept state :=
  ⟨rfl, rfl, List.suffix_refl _⟩

theorem trans {first second third : WalkState catalog size} (one : first.Kept second)
    (two : second.Kept third) : first.Kept third :=
  ⟨two.path_eq.trans one.path_eq, two.guard_eq.trans one.guard_eq,
    one.failures_suffix.trans two.failures_suffix⟩

end WalkState.Kept

namespace Walk

/-- A part of a walk leaves the path and the guard as it found them, and forgets no failure. -/
def Restores {α : Type} (body : Walk catalog size α) : Prop :=
  ∀ state : WalkState catalog size, state.Kept (body.run state).2

theorem Restores.return {α : Type} (value : α) :
    Restores (pure value : Walk catalog size α) :=
  .refl

theorem Restores.bind {α β : Type} {body : Walk catalog size α} {next : α → Walk catalog size β}
    (first : Restores body) (second : ∀ value, Restores (next value)) : Restores (body >>= next) := by
  intro state
  have kept := first state
  rw [run_bind]
  cases ran : body.run state with
  | mk result after =>
    rw [ran] at kept
    cases result with
    | error error => exact kept
    | ok value => exact kept.trans (second value after)

theorem Restores.within {visit : Walk catalog size Flow} (inner : Restores visit)
    (segment : Segment) : Restores (within segment visit) := by
  intro state
  rw [run_within]
  have kept := inner (state.withPath (state.path.push segment))
  cases ran : visit.run (state.withPath (state.path.push segment)) with
  | mk flow after =>
    rw [ran] at kept
    refine ⟨?_, kept.guard_eq, kept.failures_suffix⟩
    show after.path.pop = state.path
    rw [kept.path_eq]
    exact state.path.pop_push segment

/-- An object that is left is the one that was entered, so the guard is what it was before. -/
theorem Restores.guarded {visit : Walk catalog size Flow} (inner : Restores visit) (id : Fin size) :
    Restores (guarded id visit) := by
  intro state
  rw [run_guarded]
  cases entering : state.guard.enter? id with
  | none => exact .refl state
  | some guard =>
    have kept := inner (state.withGuard guard)
    dsimp only
    cases ran : visit.run (state.withGuard guard) with
    | mk flow after =>
      rw [ran] at kept
      refine ⟨kept.path_eq, ?_, kept.failures_suffix⟩
      show after.guard.leave id = state.guard
      rw [kept.guard_eq]
      exact Guard.leave_of_enter? entering

theorem Restores.each {α : Type} {visit : α → Walk catalog size Flow}
    (inner : ∀ item, Restores (visit item)) (items : List α) : Restores (each visit items) := by
  induction items with
  | nil => exact .return _
  | cons item rest ih =>
    refine (inner item).bind fun flow => ?_
    cases flow with
    | «continue» => exact ih
    | stop => exact .return _

theorem Restores.schemaFor (registry : Registry) (type : catalog.TypeId) :
    Restores (schemaFor registry type : Walk catalog size Schema) := by
  intro state
  rw [run_schemaFor]
  exact ⟨rfl, rfl, List.suffix_refl _⟩

variable (context : WalkContext catalog size)

/-- Checking a rule adds one failure at most. -/
theorem Restores.checkField (scope : Scope size) (rule : Option Rule) :
    Restores (checkField context scope rule) := by
  intro state
  cases rule with
  | none => exact .refl state
  | some rule =>
    unfold Walk.checkField
    by_cases asked : applies rule scope.current
    · simp only [if_pos asked]
      rw [run_bind, show (get : Walk catalog size _).run state = (.ok state, state) from rfl]
      dsimp only
      cases rule.check context.heap scope state.ledger with
      | mk verdict ledger =>
        cases verdict with
        | pass => exact ⟨rfl, rfl, List.suffix_refl _⟩
        | fail message => exact ⟨rfl, rfl, List.suffix_cons _ _⟩
    · simp only [if_neg asked]
      exact .refl state

variable {context}

theorem Restores.visitField {descend : Value size → Walk catalog size Flow}
    (below : ∀ value, Restores (descend value)) (record : Fin size) (field : FieldRule) :
    Restores (visitField context descend record field) := by
  refine .within (.bind (.checkField _ _ _) fun flow => ?_) _
  cases flow with
  | «continue» => exact below _
  | stop => exact .return _

theorem Restores.visit {descend : Value size → Walk catalog size Flow}
    (below : ∀ value, Restores (descend value)) (id : Fin size) :
    Restores (visit context descend id) := by
  unfold Walk.visit
  cases context.heap.object id with
  | record type values =>
    exact .bind (.schemaFor _ _) fun schema => .each (fun field => .visitField below id field) _
  | sequence items => exact .each (fun item => .within (below _) _) _
  | map values => exact .each (fun value => .within (below _) _) _

/-- The walk of a value restores the path and the guard, with any number of levels. -/
theorem restores_descend (context : WalkContext catalog size) (levels : Nat) (value : Value size) :
    Restores (descend context levels value) := by
  induction levels generalizing value with
  | zero => exact .return _
  | succ levels ih =>
    cases value with
    | object id => exact .guarded (.visit ih id) id
    | nil | bool | int | uint | float | str => exact .return _

end Walk

end Proviso
