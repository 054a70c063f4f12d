/- # Proviso.Proofs.Walk.FailurePath -- the path of a failure selects its value

The path that is reported with a failure is written like a path of a condition, as long as it goes
through no map.  Put in parentheses before a `$` it is a condition: it can be parsed
(`FieldPath.parse_selector`), its names can be resolved by the type of the root
(`Heap.Route.resolves`), and it leads from the root to the value whose rule failed
(`Heap.Route.follow_eq`). -/
import Proviso.Proofs.Clause.RoundTrip
import Proviso.Proofs.Rule.Selector

namespace Proviso

set_option autoImplicit false

/-! ## Names and lengths -/

/-- The fields of each type have names that are identifiers, no two of them the same. -/
def Catalog.WellNamed (catalog : Catalog) : Prop :=
  ∀ type : catalog.TypeId, ((catalog.type type).fields.map (·.name)).Nodup ∧
    ∀ field ∈ (catalog.type type).fields, isIdentifier field.name.toList = true

/-- With distinct names, each field is the first one of its name. -/
theorem Catalog.WellNamed.fieldIndex?_eq {catalog : Catalog} (named : catalog.WellNamed)
    {type : catalog.TypeId} {position : Nat} {field : Field catalog.size}
    (declared : (catalog.type type).fields[position]? = some field) :
    (catalog.type type).fieldIndex? field.name = some position := by
  obtain ⟨inside, at_position⟩ := List.getElem?_eq_some_iff.mp declared
  refine List.findIdx?_eq_some_iff_getElem.mpr ⟨inside, by simp [at_position], ?_⟩
  intro earlier before same
  have apart := List.nodup_iff_getElem?_ne_getElem?.mp (named type).1 earlier position before
    (by simpa using inside)
  have earlier_inside := Nat.lt_trans before inside
  simp only [List.getElem?_map, declared, List.getElem?_eq_getElem earlier_inside, Option.map_some,
    ne_eq, Option.some.injEq] at apart
  exact apart (beq_iff_eq.mp same)

/-- The length of a sequence is a number of 64 bits. -/
def Heap.Addressable {catalog : Catalog} {size : Nat} (heap : Heap catalog size) : Prop :=
  ∀ id items, heap.object id = .sequence items → items.length < UInt64.size

/-! ## Paths as conditions write them -/

/-- A step of a condition that leads the same way, if there is one: none leads into a map. -/
def Segment.step? : Segment → Option PathStep
  | .field name => some (.field name)
  | .index position => some (.index position)
  | .mapValue => none

namespace FieldPath

def steps (path : FieldPath) : List PathStep := path.segments.filterMap Segment.step?

def selector (path : FieldPath) : String := "(" ++ path.render ++ ")$"

theorem stepsWritten_segments {segments : List Segment} (no_map : .mapValue ∉ segments) :
    StepsWritten (segments.filterMap Segment.step?) (segments.flatMap segmentText) := by
  induction segments with
  | nil => rfl
  | cons segment rest ih =>
    have written := ih fun listed => no_map (List.mem_cons_of_mem _ listed)
    cases segment with
    | field name => exact ⟨_, _, rfl, written, rfl⟩
    | index position =>
      have are_digits (c : Char) (digit : c ∈ Nat.toDigits 10 position) : c.isDigit = true :=
        Nat.isDigit_of_mem_toDigits (by decide) (by decide) digit
      exact ⟨_, _, ⟨_, ⟨Nat.toDigits_ne_nil, are_digits, Nat.ofDigitChars_ten_toDigits⟩, rfl⟩,
        written, rfl⟩
    | mapValue => exact absurd List.mem_cons_self no_map

/-- The condition of a path that starts with a field and goes through no map is parsed as the path. -/
theorem parse_selector {path : FieldPath} {name : String} {rest : List Segment}
    (segments : path.segments = .field name :: rest) (no_map : .mapValue ∉ path.segments)
    (printable : ∀ step ∈ path.steps, step.Printable) :
    Clause.parse path.selector = .ok ⟨.sibling path.steps, none⟩ := by
  have steps_eq : path.steps = .field name :: rest.filterMap Segment.step? := by
    rw [steps, segments]
    rfl
  have path_printable : PathPrintable path.steps := by
    rw [steps_eq] at printable ⊢
    exact ⟨printable _ List.mem_cons_self, fun step listed =>
      printable step (List.mem_cons_of_mem _ listed)⟩
  have path_written : PathWritten path.steps (textOf path.segments) := by
    rw [segments] at no_map
    rw [steps_eq, segments]
    exact ⟨_, stepsWritten_segments fun listed => no_map (List.mem_cons_of_mem _ listed), rfl⟩
  have text_eq : path.selector =
      String.ofList ('(' :: (textOf path.segments ++ [')', '$'])) := by
    apply String.toList_inj.mp
    simp [selector, render]
  have laid : LaidOut (inParentheses [textOf path.segments] ++ [['$']])
      ('(' :: (textOf path.segments ++ [')', '$'])) := by
    have none_blank : ∀ c ∈ ([] : List Char), Phrase.isBlank c = true := by simp
    exact ⟨[], _, none_blank, rfl, [], _, none_blank, rfl, [], _, none_blank, rfl,
      [], _, none_blank, rfl, none_blank⟩
  have printable_clause : Clause.Printable ⟨.sibling path.steps, none⟩ := ⟨path_printable, nofun⟩
  obtain ⟨tree, last, derives, read⟩ :=
    Phrase.exists_derivation printable_clause ⟨_, path_written, rfl⟩ laid
  rw [text_eq]
  exact Phrase.parse_of_derivation derives read

end FieldPath

/-! ## Routes -/

namespace Heap

variable {catalog : Catalog} {size : Nat} {heap : Heap catalog size}

/-- From a value to another one by fields of records and items of sequences. -/
inductive Route (heap : Heap catalog size) : Value size → List Segment → Value size → Prop where
  | here (value : Value size) : Route heap value [] value
  | field {id : Fin size} {type : catalog.TypeId} {values : List (Value size)} {position : Nat}
      {field : Field catalog.size} {segments : List Segment} {last : Value size}
      (holds : heap.object id = .record type values)
      (declared : (catalog.type type).fields[position]? = some field)
      (onward : Route heap ((heap.object id).get (.field position)) segments last) :
      Route heap (.object id) (.field field.name :: segments) last
  | item {id : Fin size} {items : List (Value size)} {position : Nat} {item : Value size}
      {segments : List Segment} {last : Value size} (holds : heap.object id = .sequence items)
      (placed : items[position]? = some item) (onward : Route heap item segments last) :
      Route heap (.object id) (.index position :: segments) last

/-- Where a trail goes on through no map, it goes on by a route. -/
theorem Leads.route {first last : Trail size} {value arrived : Value size}
    (leads : heap.Leads first value last arrived) :
    ∃ segments, last.path.segments = first.path.segments ++ segments ∧
      (.mapValue ∉ segments → heap.Route value segments arrived) := by
  induction leads with
  | refl trail value => exact ⟨[], by simp, fun _ => .here value⟩
  | @step trail last id position segment child value _ move _ ih =>
    obtain ⟨segments, at_end, route⟩ := ih
    refine ⟨segment :: segments, ?_, fun no_map => ?_⟩
    · rw [at_end]
      simp [Trail.down, FieldPath.segments_push]
    · have onward := route fun listed => no_map (List.mem_cons_of_mem _ listed)
      have listed := List.fst_mem_of_mem_zipIdx move
      cases holds : heap.object id with
      | record type values =>
        obtain ⟨place, field, declared, same⟩ := (mem_moves_record holds).mp listed
        cases same
        exact .field holds declared onward
      | sequence items =>
        obtain ⟨place, item, placed, same⟩ := (mem_moves_sequence holds).mp listed
        cases same
        exact .item holds placed onward
      | map values =>
        obtain ⟨_, _, same⟩ := (mem_moves_map holds).mp listed
        cases same
        exact absurd List.mem_cons_self no_map

variable {value last : Value size} {segments : List Segment}

theorem Route.eq_nil (route : heap.Route .nil segments last) : last = .nil := by
  cases route
  rfl

/-- A route leads where its names lead. -/
theorem Route.follow_eq (named : catalog.WellNamed) (route : heap.Route value segments last) :
    heap.follow value (segments.filterMap Segment.step?) = last := by
  induction route with
  | here value => rfl
  | @field id type values position field segments last holds declared onward ih =>
    have by_name : heap.stepByName? (.object id) (.field field.name) = values[position]? :=
      named?_record holds (named.fieldIndex?_eq declared)
    show heap.follow _ (.field field.name :: segments.filterMap Segment.step?) = _
    rw [holds, Object.get] at onward ih
    cases at_position : values[position]? with
    | some next =>
      rw [at_position] at ih
      rw [follow_of_step (by_name.trans at_position)]
      exact ih
    | none =>
      rw [at_position] at onward
      rw [follow_of_no_step (by_name.trans at_position)]
      exact onward.eq_nil.symm
  | @item id items position item segments last holds placed onward ih =>
    have at_index : heap.stepByName? (.object id) (.index position) = some item := by
      rw [stepByName?, holds]
      exact placed
    show heap.follow _ (.index position :: segments.filterMap Segment.step?) = _
    rw [follow_of_step at_index]
    exact ih

/-- A route can be resolved, from what the value carries on. -/
theorem Route.resolves (named : catalog.WellNamed) {root : Fin size} {type : catalog.TypeId}
    (conforms : heap.Conforms root type) (route : heap.Route value segments last)
    {declared : Option catalog.TypeId} (holds_only : heap.HoldsOnly root (declared = some ·) value)
    (owner : String) :
    ∃ steps, resolvePath catalog owner declared (segments.filterMap Segment.step?) = .ok steps := by
  induction route generalizing declared owner with
  | here value => exact ⟨[], rfl⟩
  | @field id inner values position field segments last holds at_position onward ih =>
    obtain ⟨reachable, record_type⟩ := holds_only id (.here rfl)
    cases record_type inner values holds
    have behind : heap.HoldsOnly root (field.element = some ·)
        ((heap.object id).get (.field position)) :=
      holdsOnly_field reachable holds at_position
        (conforms.declared id reachable inner values holds position field at_position)
    obtain ⟨later, resolved⟩ := ih behind (ownerBehind catalog owner field.name field.element)
    exact ⟨_, resolvePath_field.mpr
      ⟨position, field, later, named.fieldIndex?_eq at_position, at_position, resolved, rfl⟩⟩
  | @item id items position item segments last holds placed onward ih =>
    have at_index : heap.step (.object id) (.index position) = item := by
      rw [step, holds, Object.get, placed]
      rfl
    obtain ⟨later, resolved⟩ := ih (at_index ▸ holds_only.index position) owner
    exact ⟨_, resolvePath_index.mpr ⟨later, resolved, rfl⟩⟩

/-- The steps of a route have texts. -/
theorem Route.printable (named : catalog.WellNamed) (addressable : heap.Addressable)
    (route : heap.Route value segments last) :
    ∀ step ∈ segments.filterMap Segment.step?, step.Printable := by
  induction route with
  | here value => simp
  | @field id type values position field segments last holds declared onward ih =>
    exact List.forall_mem_cons.mpr ⟨(named type).2 field (List.mem_of_getElem? declared), ih⟩
  | @item id items position item segments last holds placed onward ih =>
    have inside := (List.getElem?_eq_some_iff.mp placed).1
    exact List.forall_mem_cons.mpr ⟨Nat.lt_trans inside (addressable id items holds), ih⟩

/-- The first step of a route from a record is to a field. -/
theorem Route.starts_with_field {id : Fin size} {type : catalog.TypeId}
    {values : List (Value size)} (record : heap.object id = .record type values)
    (route : heap.Route (.object id) segments last) (going : segments ≠ []) :
    ∃ name rest, segments = .field name :: rest := by
  cases route with
  | here => exact absurd rfl going
  | field => exact ⟨_, _, rfl⟩
  | item holds =>
    rw [record] at holds
    cases holds

/-- A field that a descent leads to through no map is at the end of a route by the path of the
visit. -/
theorem Visits.route {root : Fin size} {visit : Visit size}
    (visits : heap.Visits .start (.object root) visit) (no_map : .mapValue ∉ visit.path.segments) :
    heap.Route (.object root) visit.path.segments
      ((heap.object visit.record).get (.field visit.position)) := by
  obtain ⟨trail, name, child, leads, unentered, move, -, path⟩ := visits
  obtain ⟨segments, at_end, route⟩ := (leads.down unentered move).route
  have same_path : visit.path.segments = segments := by
    rw [path]
    exact at_end
  rw [same_path] at no_map ⊢
  rw [get_of_move (List.mem_zipIdx_iff_getElem?.mp move)]
  exact route no_map

/-- The path of a visit ends with the visited field. -/
theorem Visits.segments_ne_nil {root : Value size} {visit : Visit size}
    (visits : heap.Visits .start root visit) : visit.path.segments ≠ [] := by
  obtain ⟨trail, name, -, -, -, -, -, path⟩ := visits
  rw [path, FieldPath.segments_push]
  exact List.append_ne_nil_of_right_ne_nil _ (List.cons_ne_nil _ _)

end Heap

/-! ## Reported failures -/

/-- A text that is read as a path is compiled to what the path is resolved to. -/
theorem Rule.compile_sibling {catalog : Catalog} {type : catalog.TypeId} {source : String}
    {path : List PathStep} {steps : List Step} (registry : Registry)
    (parsed : Clause.parse source = .ok ⟨.sibling path, none⟩)
    (resolved : resolvePath catalog (catalog.type type).name (some type) path = .ok steps) :
    compile catalog type registry source = .ok ⟨source, .sibling steps, none, false⟩ := by
  delta compile
  rw [parsed]
  show ofClause catalog type registry source ⟨.sibling path, none⟩ = _
  rw [ofClause, Expr.resolve, resolved]
  rfl

/-- The value of a path is the one that it selects. -/
theorem Node.run_sibling [PatternLibrary] {catalog : Catalog} {size : Nat}
    (heap : Heap catalog size) (scope : Scope size) (steps : List Step) (ledger : Ledger) :
    ((Node.sibling steps).run heap scope ledger).1 =
      .ok (heap.datum (heap.select (.object scope.record) steps)) := by
  rw [run_fst, account]
  rfl

namespace Validator

section

variable [PatternLibrary] {catalog : Catalog} {size : Nat}

/-- A failure is noted at the path of its visit. -/
theorem failure?_path {context : WalkContext catalog size}
    {schemas : catalog.TypeId → Except CompileError Schema} {visit : Visit size}
    {error : FieldError} (fails : context.failure? schemas visit = some error) :
    visit.path = error.path := by
  obtain ⟨rule, -, failed⟩ := Option.bind_eq_some_iff.mp fails
  split at failed
  · split at failed
    · cases failed
    · cases failed
      rfl
  · cases failed

theorem errors_of_outcome {validator : Validator catalog} {flow : Flow}
    {failures : List FieldError} {errors : FieldErrors}
    (invalid : validator.outcome (.ok flow) failures = .error (.invalid errors)) :
    errors.errors = failures.reverse := by
  cases failures with
  | nil => cases invalid
  | cons failure rest =>
    cases invalid
    rfl

/-- A failure that is reported is that of a visit, at its path. -/
theorem exists_failing_visit {validator : Validator catalog} (reached : validator.cache.Reached)
    {heap : Heap catalog size} {root : Value size} {errors : FieldErrors}
    (invalid : (validator.validate heap root true).outcome = .error (.invalid errors))
    {error : FieldError} (listed : error ∈ errors.errors) :
    ∃ visit, heap.Visits .start root visit ∧ visit.path = error.path ∧
      validator.failing? heap visit = some (error.path.render, error.message) := by
  have present : root ≠ .nil := by
    rintro rfl
    cases invalid
  rcases outcome_collectAll reached heap present with ⟨broken, came⟩ | came
  · rw [came] at invalid
    cases invalid
  · rw [came] at invalid
    rw [errors_of_outcome invalid, List.reverse_reverse] at listed
    obtain ⟨visit, visited, fails⟩ := List.mem_filterMap.mp listed
    refine ⟨visit, (heap.mem_visits_iff root visit).mp visited, failure?_path fails, ?_⟩
    rw [validator.failing?_eq heap true visit, fails]
    rfl

/-- **The path of a failure selects its value.**  Let all fields be well named, and the root be a
record of a type over a heap that conforms to it.  Take any failure that is reported with a path
through no map.  Its path, in parentheses before a `$`, is parsed as the condition that selects by
the path, and compiled for the type of the root, whatever is registered.  The failure is that of a
visit at the path; and for each visit at the path, what the condition selects from the root is the
value of the visited field, so this is also what the condition has as its value there. -/
theorem failure_path_selects (validator : Validator catalog) (reached : validator.cache.Reached)
    (heap : Heap catalog size) (root : Fin size) (type : catalog.TypeId)
    (named : catalog.WellNamed) (addressable : heap.Addressable)
    (conforms : heap.Conforms root type) (errors : FieldErrors)
    (invalid : (validator.validate heap (.object root) true).outcome = .error (.invalid errors))
    (error : FieldError) (listed : error ∈ errors.errors)
    (no_map : .mapValue ∉ error.path.segments) (registry : Registry) :
    Clause.parse error.path.selector = .ok ⟨.sibling error.path.steps, none⟩ ∧
      ∃ steps, Rule.compile catalog type registry error.path.selector =
          .ok ⟨error.path.selector, .sibling steps, none, false⟩ ∧
        (∃ visit ∈ heap.visits (.object root), visit.path = error.path ∧
          validator.failing? heap visit = some (error.path.render, error.message)) ∧
        ∀ visit ∈ heap.visits (.object root), visit.path = error.path →
          let value := (heap.object visit.record).get (.field visit.position)
          heap.select (.object root) steps = value ∧
            ∀ current ledger, ((Node.sibling steps).run heap ⟨current, root⟩ ledger).1 =
              .ok (heap.datum value) := by
  obtain ⟨visit, visits, path, fails⟩ := exists_failing_visit reached invalid listed
  obtain ⟨values, holds⟩ := conforms.root_record
  have route := visits.route (path ▸ no_map)
  have going := visits.segments_ne_nil
  rw [path] at route going
  obtain ⟨name, rest, segments⟩ := route.starts_with_field holds going
  have parsed := FieldPath.parse_selector segments no_map (route.printable named addressable)
  have from_root : heap.HoldsOnly root (some type = some ·) (.object root) :=
    Heap.holdsOnly_root holds rfl
  obtain ⟨steps, resolved⟩ := route.resolves named conforms from_root (catalog.type type).name
  refine ⟨parsed, steps, Rule.compile_sibling registry parsed resolved,
    ⟨visit, (heap.mem_visits_iff _ visit).mpr visits, path, fails⟩, ?_⟩
  intro other visited same_path value
  have other_route := ((heap.mem_visits_iff _ other).mp visited).route (same_path ▸ no_map)
  rw [same_path] at other_route
  have selected : heap.select (.object root) steps = value :=
    (conforms.respects.select_eq_follow conforms.respects.holdsOnly_root resolved).trans
      (other_route.follow_eq named)
  refine ⟨selected, fun current ledger => ?_⟩
  rw [Node.run_sibling, selected]

end

attribute [local instance] Pattern.library

def ringType : Fin 1 := ⟨0, Nat.one_pos⟩

/-- A record that leads to another one through two sequences, which leads back to it. -/
def ringRow : Heap ringCatalog 4 :=
  ⟨#v[.record ringType [.int 1, .object 1, .nil], .sequence [.nil, .object 2],
    .sequence [.object 3], .record ringType [.int 0, .object 0, .object 3]]⟩

theorem ringCatalog_wellNamed : ringCatalog.WellNamed := by
  have ring : ((ringCatalog.type ringType).fields.map (·.name)).Nodup ∧
      ∀ field ∈ (ringCatalog.type ringType).fields, isIdentifier field.name.toList = true := by
    decide +kernel
  exact fun type => Subsingleton.elim ringType type ▸ ring

theorem ringRow_addressable : ringRow.Addressable := by
  intro id items holds
  match id with
  | 0 | 3 => cases holds
  | 1 | 2 =>
    cases holds
    decide

theorem ringRow_conforms : ringRow.Conforms 0 ringType := by
  refine ⟨⟨_, rfl⟩, ?_⟩
  intro id _ outer values holds position field at_position child carries inner others _
  -- there is one type, so all that is to see is that a field of no type holds no object
  have only (element : Fin 1) : some element = some inner := congrArg some (Subsingleton.elim _ _)
  match id, position with
  | 0, 0 | 3, 0 =>
    obtain ⟨first, found⟩ := carries.exists_object
    cases found
  | 0, 1 | 0, 2 | 3, 1 | 3, 2 =>
    cases holds
    cases at_position
    exact only ringType
  | 0, position + 3 | 3, position + 3 =>
    cases holds
    cases at_position
  | 1, position | 2, position => cases holds

theorem ringRow_report :
    (match ((new ringCatalog .default).validate ringRow (.object 0) true).outcome with
      | .error (.invalid errors) => errors.errors.map (·.path)
      | _ => []) = [⟨[.field "Value", .index 0, .index 1, .field "Next"]⟩] := by
  decide +kernel

/-- The zero behind the sequences is selected by the path that it is reported with. -/
theorem failure_path_selects_behind_indices :
    ∃ steps, Rule.compile ringCatalog ringType .empty "(Next[1][0].Value)$" =
        .ok ⟨"(Next[1][0].Value)$", .sibling steps, none, false⟩ ∧
      ∃ visit ∈ ringRow.visits (.object 0), ∃ message,
        (new ringCatalog .default).failing? ringRow visit = some ("Next[1][0].Value", message) ∧
        ringRow.select (.object 0) steps =
          (ringRow.object visit.record).get (.field visit.position) := by
  have report := ringRow_report
  split at report
  next errors invalid =>
    obtain ⟨error, same, path⟩ := List.map_eq_singleton_iff.mp report
    have listed : error ∈ errors.errors := by simp [same]
    obtain ⟨-, steps, compiled, ⟨visit, visited, at_path, fails⟩, selects⟩ :=
      failure_path_selects (new ringCatalog .default) (.empty "vd") ringRow 0 ringType
        ringCatalog_wellNamed ringRow_addressable ringRow_conforms errors invalid error listed
        (by rw [path]; decide) .empty
    rw [path] at compiled fails
    exact ⟨steps, compiled, visit, visited, error.message, fails, (selects visit visited at_path).1⟩
  · cases report

end Validator

end Proviso
