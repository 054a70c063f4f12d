/- # Proviso.Proofs.Walk.Termination -- walks end, cycles or not

The objects of a heap may refer to each other in circles, so nothing about a value itself gets
smaller on the way down.  What gets smaller is how many of the objects below the value have not been
entered (`unentered_lt`), and so the recursion of a walk is well founded, whatever the heap.

The bound on levels that the walk is defined with is shown to be of no account: the walk is the one
solution of its recursion without a bound (`eq_walk_iff`).  The moments of a run then show that it
is this recursion which is run, one call inside the other, and that no more visits are open at a
time than there are objects below the value that have not been entered before. -/
import Proviso.Proofs.Walk.Reachability
import Proviso.Proofs.Walk.Stepwise

namespace Proviso

set_option autoImplicit false

variable {catalog : Catalog} {size : Nat}

/-! ## Calls -/

/-- A value to be walked while some objects are on the way, the latest first. -/
structure Descent (size : Nat) where
  value : Value size
  entered : List (Fin size)

namespace Heap

variable (heap : Heap catalog size)

/-- The first descent is made in the course of the second one: an object that is not on the way is
entered, and the value one step from it is walked. -/
inductive Calls : Descent size → Descent size → Prop where
  | step {id : Fin size} {entered : List (Fin size)} {segment : Segment} {child : Value size}
      (unentered : id ∉ entered) (move : (segment, child) ∈ heap.moves id) :
      Calls ⟨child, id :: entered⟩ ⟨.object id, entered⟩

/-- The first descent is made in the course of the second one, directly or not. -/
def Within : Descent size → Descent size → Prop := Relation.ReflTransGen heap.Calls

/-- The value is an object from which the other one is reached. -/
def Below (value : Value size) (id : Fin size) : Prop :=
  ∃ root, value = .object root ∧ heap.Reachable root id

open scoped Classical in
/-- The objects below a value that are not on the way. -/
noncomputable def unentered (descent : Descent size) : Finset (Fin size) :=
  Finset.univ.filter (heap.Below descent.value) \ descent.entered.toFinset

variable {heap}

theorem mem_unentered {descent : Descent size} {id : Fin size} :
    id ∈ heap.unentered descent ↔ heap.Below descent.value id ∧ id ∉ descent.entered := by
  simp only [unentered, Finset.mem_sdiff, Finset.mem_filter, Finset.mem_univ, true_and,
    List.mem_toFinset]

theorem Reachable.of_move {id child last : Fin size} {segment : Segment}
    (move : (segment, .object child) ∈ heap.moves id) (reachable : heap.Reachable child last) :
    heap.Reachable id last := by
  induction reachable with
  | root => exact .step .root move
  | step _ onward ih => exact .step ih onward

theorem Below.of_move {id last : Fin size} {segment : Segment} {child : Value size}
    (move : (segment, child) ∈ heap.moves id) (below : heap.Below child last) :
    heap.Below (.object id) last := by
  obtain ⟨root, rfl, reachable⟩ := below
  exact ⟨id, rfl, reachable.of_move move⟩

/-- A descent that another one calls has fewer objects before it: the one that was entered is gone,
and nothing is below the child that is not below the object. -/
theorem unentered_lt {inner outer : Descent size} (calls : heap.Calls inner outer) :
    (heap.unentered inner).card < (heap.unentered outer).card := by
  cases calls with
  | @step id entered segment child fresh move =>
    refine Finset.card_lt_card ((Finset.ssubset_iff_of_subset ?_).mpr ⟨id, ?_, ?_⟩)
    · intro last listed
      obtain ⟨below, unmet⟩ := mem_unentered.mp listed
      exact mem_unentered.mpr ⟨below.of_move move, fun met => unmet (List.mem_cons_of_mem _ met)⟩
    · exact mem_unentered.mpr ⟨⟨id, rfl, .root⟩, fresh⟩
    · exact fun listed => (mem_unentered.mp listed).2 List.mem_cons_self

/-- No descent calls others without end. -/
theorem wellFounded_calls (heap : Heap catalog size) : WellFounded heap.Calls :=
  Subrelation.wf unentered_lt (measure fun descent => (heap.unentered descent).card).wf

/-- What is walked for the sake of a value is below the value. -/
theorem Within.below {inner outer : Descent size} (within : heap.Within inner outer)
    {last : Fin size} (below : heap.Below inner.value last) : heap.Below outer.value last := by
  induction within with
  | refl => exact below
  | tail _ calls ih =>
    obtain ⟨-, move⟩ := calls
    exact ih.of_move move

/-- Objects that are on the way stay there for all that is walked meanwhile. -/
theorem Within.entered {inner outer : Descent size} (within : heap.Within inner outer)
    {id : Fin size} (entered : id ∈ outer.entered) : id ∈ inner.entered := by
  induction within with
  | refl => exact entered
  | tail _ calls ih =>
    obtain ⟨-, -⟩ := calls
    exact ih (List.mem_cons_of_mem _ entered)

end Heap

namespace Walk

/-! ## Open visits -/

/-- The visits that are open, with the objects that are on the way: each object is walked for the
sake of the descent, was not on the way when it was entered, and what is still to be visited there is
one step from it. -/
inductive Opened (heap : Heap catalog size) (first : Descent size) :
    List (OpenVisit size) → List (Fin size) → Prop where
  | none : Opened heap first [] first.entered
  | visit {visit : OpenVisit size} {outer : List (OpenVisit size)} {entered : List (Fin size)}
      (earlier : Opened heap first outer entered)
      (within : heap.Within ⟨.object visit.id, entered⟩ first) (unentered : visit.id ∉ entered)
      (onward : ∀ task ∈ visit.tasks, (task.segment, task.value) ∈ heap.moves visit.id) :
      Opened heap first (visit :: outer) (visit.id :: entered)

namespace Opened

variable {heap : Heap catalog size} {first : Descent size} {visits : List (OpenVisit size)}
  {entered : List (Fin size)}

theorem entered_eq (opened : Opened heap first visits entered) :
    entered = visits.map OpenVisit.id ++ first.entered := by
  induction opened with
  | none => rfl
  | visit earlier within unentered onward ih => rw [List.map_cons, List.cons_append, ← ih]

theorem id_mem_unentered (opened : Opened heap first visits entered) :
    ∀ visit ∈ visits, visit.id ∈ heap.unentered first := by
  induction opened with
  | none => exact fun visit listed => absurd listed List.not_mem_nil
  | visit earlier within unentered onward ih =>
    intro other listed
    rcases List.mem_cons.mp listed with rfl | outer
    · exact Heap.mem_unentered.mpr
        ⟨within.below ⟨_, rfl, .root⟩, fun met => unentered (within.entered met)⟩
    · exact ih other outer

/-- Distinct objects below the value are visited, none of which was on the way before. -/
theorem length_le (opened : Opened heap first visits entered) (distinct : entered.Nodup) :
    visits.length ≤ (heap.unentered first).card := by
  rw [opened.entered_eq] at distinct
  have ids_distinct := (List.nodup_append.mp distinct).1
  calc
    visits.length = (visits.map OpenVisit.id).toFinset.card := by
      rw [List.toFinset_card_of_nodup ids_distinct, List.length_map]
    _ ≤ (heap.unentered first).card := by
      refine Finset.card_le_card fun id listed => ?_
      obtain ⟨visit, is_open, rfl⟩ := List.mem_map.mp (List.mem_toFinset.mp listed)
      exact opened.id_mem_unentered visit is_open

end Opened

section

variable [PatternLibrary] (context : WalkContext catalog size)

/-! ## The recursion without a bound -/

/-- The first level of a walk; what the objects hold is walked as is given. -/
def level (inner : Value size → Walk catalog size Flow) : Value size → Walk catalog size Flow
  | .object id => guarded id (visit context inner id)
  | _ => return .continue

def rest (_ : Value size) : Walk catalog size Flow := return .continue

/-- With a bound on the levels, a walk is so many levels over no walk at all. -/
theorem descend_eq_iterate (levels : Nat) : descend context levels = (level context)^[levels] rest := by
  induction levels with
  | zero => rfl
  | succ levels ih =>
    rw [Function.iterate_succ_apply', ← ih]
    funext value
    cases value <;> rfl

theorem restores_level {inner : Value size → Walk catalog size Flow}
    (restores : ∀ value, Restores (inner value)) (value : Value size) :
    Restores (level context inner value) := by
  cases value with
  | object id => exact .guarded (.visit restores id) id
  | nil | bool | int | uint | float | str => exact .return _

/-- Two ways to walk agree when at least so many objects are on the way. -/
def AgreeFrom (depth : Nat) (one other : Value size → Walk catalog size Flow) : Prop :=
  ∀ (value : Value size) (state : WalkState catalog size), depth ≤ state.guard.depth →
    (one value).run state = (other value).run state

/-- No more objects can be on the way than there are. -/
theorem agreeFrom_of_lt {depth : Nat} (above : size < depth)
    (one other : Value size → Walk catalog size Flow) : AgreeFrom depth one other := by
  intro value state deep
  have distinct := state.guard.distinct.length_le_card
  rw [Fintype.card_fin] at distinct
  unfold Guard.depth at deep
  omega

section Agreement

variable {context} {depth : Nat} {one other : Value size → Walk catalog size Flow}

theorem run_perform_of_agree (agree : AgreeFrom depth one other) (id : Fin size) (task : Task size)
    {state : WalkState catalog size} (deep : depth ≤ state.guard.depth) :
    (perform context one id task).run state = (perform context other id task).run state := by
  have kept := Restores.checkField context ⟨task.value, id⟩ task.rule
    (state.withPath (state.path.push task.segment))
  rw [perform, perform, run_within, run_within, run_bind, run_bind]
  cases ran : (checkField context ⟨task.value, id⟩ task.rule).run
      (state.withPath (state.path.push task.segment)) with
  | mk result after =>
    rw [ran] at kept
    rcases result with error | _ | _
    · rfl
    · have same := agree task.value after (kept.guard_eq ▸ deep)
      dsimp only
      rw [same]
    · rfl

theorem run_each_of_agree (agree : AgreeFrom depth one other)
    (restores : ∀ value, Restores (other value)) (id : Fin size) (todo : List (Task size))
    {state : WalkState catalog size} (deep : depth ≤ state.guard.depth) :
    (each (perform context one id) todo).run state =
      (each (perform context other id) todo).run state := by
  induction todo generalizing state with
  | nil => rfl
  | cons task rest ih =>
    have kept := restores_perform context restores id task state
    rw [each, each, run_bind, run_bind, run_perform_of_agree agree id task deep]
    cases ran : (perform context other id task).run state with
    | mk result after =>
      rw [ran] at kept
      rcases result with error | _ | _
      · rfl
      · exact ih (kept.guard_eq ▸ deep)
      · rfl

theorem run_visit_of_agree (agree : AgreeFrom depth one other)
    (restores : ∀ value, Restores (other value)) (id : Fin size)
    {state : WalkState catalog size} (deep : depth ≤ state.guard.depth) :
    (visit context one id).run state = (visit context other id).run state := by
  have kept := restores_tasks context id state
  rw [visit_eq, visit_eq, run_bind, run_bind]
  cases ran : (tasks context id).run state with
  | mk result after =>
    rw [ran] at kept
    cases result with
    | error error => rfl
    | ok todo => exact run_each_of_agree agree restores id todo (kept.guard_eq ▸ deep)

/-- Ways to walk that agree below an object agree on the object. -/
theorem AgreeFrom.level (agree : AgreeFrom (depth + 1) one other)
    (restores : ∀ value, Restores (other value)) :
    AgreeFrom depth (level context one) (level context other) := by
  intro value state deep
  cases value with
  | object id =>
    rw [Walk.level, Walk.level, run_guarded, run_guarded]
    cases entering : state.guard.enter? id with
    | none => rfl
    | some inner =>
      have deeper : depth + 1 ≤ (state.withGuard inner).guard.depth := by
        show depth + 1 ≤ inner.entered.length
        rw [Guard.entered_of_enter? entering]
        exact Nat.succ_le_succ deep
      dsimp only
      rw [run_visit_of_agree agree restores id deeper]
  | nil | bool | int | uint | float | str => rfl

end Agreement

theorem restores_iterate {inner : Value size → Walk catalog size Flow}
    (restores : ∀ value, Restores (inner value)) (levels : Nat) (value : Value size) :
    Restores ((level context)^[levels] inner value) := by
  induction levels generalizing value with
  | zero => exact restores value
  | succ levels ih =>
    rw [Function.iterate_succ_apply']
    exact restores_level context ih value

variable {context} in
/-- Below one level for each object that is not on the way, nothing is left to walk. -/
theorem agreeFrom_iterate (one : Value size → Walk catalog size Flow)
    {other : Value size → Walk catalog size Flow} (restores : ∀ value, Restores (other value))
    (levels depth : Nat) (enough : size < levels + depth) :
    AgreeFrom depth ((level context)^[levels] one) ((level context)^[levels] other) := by
  induction levels generalizing depth with
  | zero => exact agreeFrom_of_lt (by omega) _ _
  | succ levels ih =>
    rw [Function.iterate_succ_apply', Function.iterate_succ_apply']
    exact (ih (depth + 1) (by omega)).level (restores_iterate context restores levels)

variable {context} in
theorem iterate_eq (one : Value size → Walk catalog size Flow)
    {other : Value size → Walk catalog size Flow} (restores : ∀ value, Restores (other value)) :
    (level context)^[size + 1] one = (level context)^[size + 1] other := by
  funext value
  refine funext fun state => ?_
  exact agreeFrom_iterate one restores (size + 1) 0 (by omega) value state (Nat.zero_le _)

/-- The walk is the one solution of its recursion. -/
theorem eq_walk_iff (inner : Value size → Walk catalog size Flow) :
    inner = walk context ↔ inner = level context inner := by
  have walk_eq : walk context = (level context)^[size + 1] rest :=
    descend_eq_iterate context (size + 1)
  have restores_rest (value : Value size) : Restores (rest value : Walk catalog size Flow) :=
    .return _
  constructor
  · rintro rfl
    rw [walk_eq, ← Function.iterate_succ_apply' (level context),
      Function.iterate_succ_apply (level context) (size + 1)]
    exact iterate_eq rest (restores_level context restores_rest)
  · intro solves
    rw [walk_eq, ← iterate_eq inner restores_rest, Function.iterate_fixed solves.symm]

/-! ## The moments of a walk -/

section Moments

variable {context}

/-- What there is to visit at an object are the steps that lead on from it. -/
theorem tasks_eq_moves {id : Fin size} {state : WalkState catalog size}
    (reached : state.cache.Reached) {todo : List (Task size)}
    (found : ((tasks context id).run state).1 = .ok todo) :
    todo.map (fun task => (task.segment, task.value)) = context.heap.moves id := by
  unfold tasks at found
  unfold Heap.moves
  cases holds : context.heap.object id with
  | record type values =>
    simp only [holds] at found
    rw [run_bind, run_schemaFor] at found
    cases given : (state.cache.schemaForRecord context.registry type).1 with
    | error error =>
      rw [given] at found
      cases found
    | ok schema =>
      rw [given] at found
      cases found
      have listed := congrArg
        (List.map fun place : String × Nat =>
          (Segment.field place.1, (context.heap.object id).get (.field place.2)))
        (reached.fields_eq (SchemaCache.schemaForRecord_eq_ok given))
      rw [List.map_map, List.map_map, holds] at listed
      rw [List.map_map]
      unfold fieldTask
      rw [holds]
      exact listed
  | sequence items =>
    simp only [holds] at found
    cases found
    rw [List.map_map]
    rfl
  | map values =>
    simp only [holds] at found
    cases found
    rw [List.map_map]
    rfl

theorem reached_tasks (id : Fin size) {state : WalkState catalog size}
    (reached : state.cache.Reached) : ((tasks context id).run state).2.cache.Reached := by
  unfold tasks
  cases context.heap.object id with
  | record type values =>
    dsimp only
    rw [run_bind, run_schemaFor]
    cases (state.cache.schemaForRecord context.registry type).1 with
    | error error => exact .schemaForRecord _ _ reached
    | ok schema => exact .schemaForRecord _ _ reached
  | sequence items => exact reached
  | map values => exact reached

end Moments

/-- What is true at every moment of the walk of a value. -/
structure InCourse (heap : Heap catalog size) (first : Descent size)
    (moment : Moment catalog size) : Prop where
  reached : moment.state.cache.Reached
  opened : Opened heap first moment.visits moment.state.guard.entered
  within : ∀ value, moment.phase = .descending value →
    heap.Within ⟨value, moment.state.guard.entered⟩ first

section Course

variable {context} {first : Descent size}

/-- One step of a walk keeps to the recursion: what is walked next is one step from the object of
the innermost visit. -/
theorem inCourse_next {before after : Moment catalog size}
    (course : InCourse context.heap first before) (stepped : next context before = some after) :
    InCourse context.heap first after := by
  obtain ⟨reached, opened, within⟩ := course
  cases turn_of_next stepped with
  | @enter id visits state guard entering =>
    have entered := Guard.entered_of_enter? entering
    have unentered : id ∉ state.guard.entered :=
      (List.nodup_cons.mp (entered ▸ guard.distinct)).1
    refine ⟨reached, ?_, by simp⟩
    show Opened context.heap first (⟨id, []⟩ :: visits) guard.entered
    rw [entered]
    exact .visit opened (within _ rfl) unentered (by simp)
  | @survey visit outer state after phase todo quiet after_eq found =>
    have same := (restores_tasks context visit.id state).guard_eq
    subst after_eq
    refine ⟨reached_tasks visit.id reached, ?_, fun value is => absurd is (quiet value)⟩
    show Opened context.heap first (⟨visit.id, todo⟩ :: outer) _
    rw [same]
    generalize state.guard.entered = entered at opened
    cases opened with
    | visit earlier asked unentered onward =>
      refine .visit earlier asked unentered fun task listed => ?_
      rcases found with rfl | found
      · exact onward task listed
      · rw [← tasks_eq_moves reached found]
        exact List.mem_map_of_mem listed
  | @take id task rest outer state after phase onward guard_eq cache_eq =>
    dsimp only at opened
    rw [← guard_eq] at opened
    refine ⟨cache_eq ▸ reached, ?_, fun value is => ?_⟩
    · dsimp only
      generalize after.guard.entered = entered at opened
      cases opened with
      | visit earlier asked unentered moves =>
        exact .visit earlier asked unentered fun task listed =>
          moves task (List.mem_cons_of_mem _ listed)
    · rw [onward value is]
      dsimp only
      generalize after.guard.entered = entered at opened
      cases opened with
      | visit earlier asked unentered moves =>
        exact .head (.step unentered (moves task List.mem_cons_self)) asked
  | @leave result visit outer state =>
    refine ⟨reached, ?_, by simp⟩
    show Opened context.heap first outer (state.guard.entered.erase visit.id)
    generalize state.guard.entered = entered at opened
    cases opened with
    | visit earlier asked unentered moves =>
      rw [List.erase_cons_head]
      exact earlier
  | stay quiet guard_eq cache_eq =>
    refine ⟨cache_eq ▸ reached, ?_, fun value is => absurd is (quiet value)⟩
    dsimp only
    rw [guard_eq]
    exact opened

theorem inCourse_of_reaches {start moment : Moment catalog size}
    (course : InCourse context.heap first start) (came : Reaches context start moment) :
    InCourse context.heap first moment := by
  induction came with
  | refl => exact course
  | tail _ stepped ih => exact inCourse_next ih stepped

/-- A run that comes to a moment after which nothing comes has no other way to go. -/
theorem acc_of_reaches {start last : Moment catalog size} (came : Reaches context start last)
    (ends : next context last = none) :
    Acc (fun after before => next context before = some after) start := by
  induction came using Relation.ReflTransGen.head_induction_on with
  | refl =>
    refine ⟨_, fun after stepped => ?_⟩
    rw [ends] at stepped
    cases stepped
  | head stepped _ ih =>
    refine ⟨_, fun after other => ?_⟩
    cases stepped.symm.trans other
    exact ih

end Course

/-- **Every walk ends, and opens no more visits than there are objects.**  For every heap, with
whatever cycles and sharing, no descent calls for others without end, and the walk is the one
solution of the recursion that is given by its first level.  From every value and every state the
run of the walk is finite and comes to what the walk comes to.  At each of its moments what is to be
walked is called for by the walk of the value, one descent inside the other; the objects on the way
are those of the open visits and those that were there before; and there are no more open visits
than objects that can be reached from the value and were not on the way at first. -/
theorem walk_terminates (context : WalkContext catalog size) (value : Value size)
    (state : WalkState catalog size) (reached : state.cache.Reached) :
    let ran := (walk context value).run state
    let descent : Descent size := ⟨value, state.guard.entered⟩
    let first : Moment catalog size := ⟨.descending value, [], state⟩
    WellFounded context.heap.Calls ∧
      (∀ inner, inner = walk context ↔ inner = level context inner) ∧
      Acc (fun after before => next context before = some after) first ∧
      Reaches context first ⟨.returning ran.1, [], ran.2⟩ ∧
      ∀ moment, Reaches context first moment →
        (∀ inner, moment.phase = .descending inner →
          context.heap.Within ⟨inner, moment.state.guard.entered⟩ descent) ∧
        moment.state.guard.depth = moment.visits.length + state.guard.depth ∧
        moment.visits.length ≤ (context.heap.unentered descent).card := by
  intro ran descent first
  have came : Reaches context first ⟨.returning ran.1, [], ran.2⟩ :=
    returns_descend context (size + 1) state.guard (by omega) value [] state rfl
  have ends : next context ⟨.returning ran.1, [], ran.2⟩ = none := by
    match ran.1 with
    | .ok .continue | .ok .stop | .error error => rfl
  refine ⟨context.heap.wellFounded_calls, eq_walk_iff context, acc_of_reaches came ends, came,
    fun moment later => ?_⟩
  have at_first : InCourse context.heap descent first := by
    refine ⟨reached, .none, ?_⟩
    rintro _ ⟨⟩
    exact .refl
  obtain ⟨-, opened, within⟩ := inCourse_of_reaches at_first later
  refine ⟨within, ?_, opened.length_le moment.state.guard.distinct⟩
  unfold Guard.depth
  rw [opened.entered_eq, List.length_append, List.length_map]

end

attribute [local instance] Pattern.library

open Validator in
/-- In a ring of two records, one of which also refers to itself, two visits are open at most. -/
theorem ring_walk_terminates :
    let context : WalkContext ringCatalog 2 := ⟨ringHeap 1 1, .builtins, true⟩
    let state : WalkState ringCatalog 2 := .initial (.empty ringCatalog "vd") (.start .empty)
    let first : Moment ringCatalog 2 := ⟨.descending (.object 0), [], state⟩
    state.cache.Reached ∧
      Acc (fun after before => next context before = some after) first ∧
      ∀ moment, Reaches context first moment → moment.visits.length ≤ 2 := by
  intro context state first
  obtain ⟨-, -, finite, -, moments⟩ := walk_terminates context (.object 0) state (.empty "vd")
  refine ⟨.empty "vd", finite, fun moment came => (moments moment came).2.2.trans ?_⟩
  calc
    (context.heap.unentered ⟨.object 0, []⟩).card ≤ Fintype.card (Fin 2) := Finset.card_le_univ _
    _ = 2 := Fintype.card_fin 2

end Walk

end Proviso
