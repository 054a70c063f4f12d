/- # Proviso.Proofs.Walk.Typing -- compile errors are a matter of the type

In a heap that conforms to a type, each field leads only to records of the type that it declares.
Then a walk meets no type that the type of its root does not lead to (`Heap.Conforms.leadsTo`), and
all of these are compiled when the root is entered.  So either that look-up fails, and the walk ends
before any field is visited (`Validator.played_broken`), or no later one does
(`Validator.course_compiled`); and which of the two it is depends on the type of the root alone
(`Validator.compile_error_of_type`). -/
import Proviso.Proofs.Walk.FirstFailure
import Proviso.Proofs.Walk.History
import Proviso.Proofs.Walk.Reachability

namespace Proviso

set_option autoImplicit false

/-! ## Heaps that conform to a type -/

namespace Heap

variable {catalog : Catalog} {size : Nat} {heap : Heap catalog size}

/-- A value is an object, or leads to it through sequences and maps alone. -/
inductive Carries (heap : Heap catalog size) (value : Value size) : Fin size → Prop where
  | here {id : Fin size} (same : value = .object id) : Carries heap value id
  | item {id child : Fin size} {items : List (Value size)} (before : Carries heap value id)
      (holds : heap.object id = .sequence items) (listed : .object child ∈ items) :
      Carries heap value child
  | entry {id child : Fin size} {values : List (Value size)} (before : Carries heap value id)
      (holds : heap.object id = .map values) (listed : .object child ∈ values) :
      Carries heap value child

theorem Carries.exists_object {value : Value size} {id : Fin size} (carries : heap.Carries value id) :
    ∃ first, value = .object first := by
  induction carries with
  | here same => exact ⟨_, same⟩
  | item _ _ _ ih => exact ih
  | entry _ _ _ ih => exact ih

/-- The root is a record of the type, and below it each field leads, through however many sequences
and maps, only to records of the type that the field declares.  A field that declares none leads to
no records. -/
structure Conforms (heap : Heap catalog size) (root : Fin size) (type : catalog.TypeId) : Prop where
  root_record : ∃ values, heap.object root = .record type values
  declared : ∀ id, heap.Reachable root id →
    ∀ outer values, heap.object id = .record outer values →
      ∀ position field, (catalog.type outer).fields[position]? = some field →
        ∀ child, heap.Carries ((heap.object id).get (.field position)) child →
          ∀ inner others, heap.object child = .record inner others → field.element = some inner

/-- An object below a root is the root, or a field of a record whose type is led to carries it. -/
inductive Owned (heap : Heap catalog size) (root : Fin size) (type : catalog.TypeId) :
    Fin size → Prop where
  | root : Owned heap root type root
  | field {owner id : Fin size} {outer : catalog.TypeId} {values : List (Value size)}
      {position : Nat} {field : Field catalog.size} (reachable : heap.Reachable root owner)
      (holds : heap.object owner = .record outer values) (led : catalog.LeadsTo type outer)
      (at_position : (catalog.type outer).fields[position]? = some field)
      (carries : heap.Carries ((heap.object owner).get (.field position)) id) :
      Owned heap root type id

variable {root id : Fin size} {type inner : catalog.TypeId} {values : List (Value size)}

/-- The type of a record that is owned is led to. -/
theorem Conforms.leadsTo_of_owned (conforms : heap.Conforms root type)
    (owned : heap.Owned root type id) (holds : heap.object id = .record inner values) :
    catalog.LeadsTo type inner := by
  cases owned with
  | root =>
    obtain ⟨fields, same⟩ := conforms.root_record
    rw [holds] at same
    cases same
    exact .root
  | field reachable at_owner led at_position carries =>
    have element := conforms.declared _ reachable _ _ at_owner _ _ at_position id carries _ _ holds
    exact led.field (List.mem_of_getElem? at_position) element

/-- What an owned collection holds is owned as well. -/
theorem Conforms.owned_of_carries (conforms : heap.Conforms root type) {child : Fin size}
    (owned : heap.Owned root type id)
    (no_record : ∀ inner values, heap.object id ≠ .record inner values)
    (onward : ∀ value, heap.Carries value id → heap.Carries value child) :
    heap.Owned root type child := by
  cases owned with
  | root =>
    obtain ⟨fields, holds⟩ := conforms.root_record
    exact absurd holds (no_record type fields)
  | field reachable at_owner led at_position carries =>
    exact .field reachable at_owner led at_position (onward _ carries)

/-- All objects below a root are owned. -/
theorem Conforms.owned (conforms : heap.Conforms root type) (reachable : heap.Reachable root id) :
    heap.Owned root type id := by
  induction reachable with
  | root => exact .root
  | @step id child segment before move ih =>
    cases holds : heap.object id with
    | record outer fields =>
      obtain ⟨position, field, at_position, leads⟩ := (mem_moves_record holds).mp move
      obtain ⟨-, value_eq⟩ := Prod.mk.inj leads
      exact .field before holds (conforms.leadsTo_of_owned ih holds) at_position
        (.here value_eq.symm)
    | sequence items =>
      obtain ⟨position, item, placed, leads⟩ := (mem_moves_sequence holds).mp move
      obtain ⟨-, rfl⟩ := Prod.mk.inj leads
      exact conforms.owned_of_carries ih (by simp [holds]) fun value carries =>
        .item carries holds (List.mem_of_getElem? placed)
    | map entries =>
      obtain ⟨entry, listed, leads⟩ := (mem_moves_map holds).mp move
      obtain ⟨-, rfl⟩ := Prod.mk.inj leads
      exact conforms.owned_of_carries ih (by simp [holds]) fun value carries =>
        .entry carries holds listed

/-- The types of all records below a root are led to by the type of the root. -/
theorem Conforms.leadsTo (conforms : heap.Conforms root type) (reachable : heap.Reachable root id)
    (holds : heap.object id = .record inner values) : catalog.LeadsTo type inner :=
  conforms.leadsTo_of_owned (conforms.owned reachable) holds

/-! ## Entries -/

/-- The records that are entered lie at the end of descents. -/
theorem leads_of_enter_mem {trail : Trail size} {value : Value size}
    (listed : .enter inner ∈ heap.itinerary trail value) :
    ∃ last id values, heap.Leads trail value last (.object id) ∧
      heap.object id = .record inner values := by
  fun_induction heap.itinerary trail value with
  | case1 trail id again => cases listed
  | case2 trail id unentered ih =>
    rcases List.mem_append.mp listed with arrives | below
    · unfold arrival at arrives
      cases holds : heap.object id with
      | record outer values =>
        rw [holds] at arrives
        cases List.mem_singleton.mp arrives
        exact ⟨trail, id, values, .refl _ _, holds⟩
      | sequence items => simp [holds] at arrives
      | map entries => simp [holds] at arrives
    · obtain ⟨⟨⟨segment, child⟩, position⟩, move, met⟩ := List.mem_flatMap.mp below
      rcases List.mem_append.mp met with stops | lower
      · cases segment <;> simp [Trail.stop] at stops
      · obtain ⟨last, inside, values, leads, holds⟩ := ih _ lower
        exact ⟨last, inside, values, .step unentered move leads, holds⟩
  | case3 trail value scalar => cases listed

/-- Only types that the type of the root leads to are entered. -/
theorem Conforms.leadsTo_of_enter (conforms : heap.Conforms root type)
    (listed : .enter inner ∈ heap.itinerary .start (.object root)) : catalog.LeadsTo type inner := by
  obtain ⟨last, id, values, leads, holds⟩ := leads_of_enter_mem listed
  exact conforms.leadsTo (reachable_of_leads leads) holds

/-- The first thing that is met at a record is its type. -/
theorem itinerary_record (holds : heap.object root = .record type values) :
    ∃ rest, heap.itinerary .start (.object root) = .enter type :: rest := by
  have unentered : root ∉ (Trail.start : Trail size).entered := List.not_mem_nil
  rw [itinerary, dif_neg unentered, arrival, holds]
  exact ⟨_, rfl⟩

end Heap

/-! ## Compile errors -/

namespace Validator

section

variable [PatternLibrary] {catalog : Catalog} {size : Nat} {validator : Validator catalog}
  {heap : Heap catalog size} {root : Fin size} {type : catalog.TypeId}

/-- When something that the type of the root leads to is broken, the walk ends where it begins. -/
theorem played_broken (reached : validator.cache.Reached) (conforms : heap.Conforms root type)
    (collectAll : Bool) {error : CompileError}
    (broken : SchemaCache.answer (validator.cache.schemaOf validator.registry) type = .error error) :
    (validator.played heap (.object root) collectAll).1 = .error error ∧
      (validator.played heap (.object root) collectAll).2.ledger = .start validator.patterns ∧
      (validator.played heap (.object root) collectAll).2.failures = [] := by
  obtain ⟨values, holds⟩ := conforms.root_record
  obtain ⟨rest, starts⟩ := Heap.itinerary_record holds
  have answered : (validator.cache.schemaForRecord validator.registry type).1 = .error error :=
    (SchemaCache.schemaForRecord_fst reached.consistent type).trans broken
  rw [played, starts, WalkContext.play_enter]
  dsimp only
  cases looked : validator.cache.schemaForRecord validator.registry type with
  | mk result cache =>
    rw [looked] at answered
    cases answered
    exact ⟨rfl, rfl, rfl⟩

/-- When the type of the root and all it leads to can be compiled, no record below it is broken. -/
theorem course_compiled (conforms : heap.Conforms root type) (collectAll : Bool) {schema : Schema}
    (compiled : SchemaCache.answer (validator.cache.schemaOf validator.registry) type = .ok schema)
    (error : CompileError) : (validator.course heap (.object root) collectAll).1 ≠ .error error := by
  intro broken
  have all_compiled := SchemaCache.exists_answer_iff.mp ⟨schema, compiled⟩
  obtain ⟨event, listed, found⟩ := List.mem_map.mp (WalkContext.error_mem_of_course broken)
  cases event with
  | check visit => cases found
  | enter inner =>
    have led : catalog.LeadsTo type inner := conforms.leadsTo_of_enter listed
    obtain ⟨inner_schema, inner_compiled⟩ := SchemaCache.exists_answer_iff.mpr
      fun further link => all_compiled further (led.trans link)
    rw [WalkContext.finding, inner_compiled] at found
    cases found

/-- The compile errors of a root are the error of its type. -/
theorem outcome_compile_iff (reached : validator.cache.Reached) (conforms : heap.Conforms root type)
    (collectAll : Bool) (error : CompileError) :
    (validator.validate heap (.object root) collectAll).outcome = .error (.compile error) ↔
      SchemaCache.answer (validator.cache.schemaOf validator.registry) type = .error error := by
  have present : Value.object root ≠ .nil := by simp
  cases answered : SchemaCache.answer (validator.cache.schemaOf validator.registry) type with
  | error other =>
    obtain ⟨ends, -, -⟩ := played_broken reached conforms collectAll answered
    rw [validate_eq_played reached heap present, ends]
    simp [outcome]
  | ok schema =>
    have compiled := course_compiled conforms collectAll answered
    rw [validate_outcome reached heap present]
    cases came : (validator.course heap (.object root) collectAll).1 with
    | error other => exact absurd came (compiled other)
    | ok flow =>
      cases (validator.course heap (.object root) collectAll).2.reverse <;> simp [outcome]

theorem fresh_schemaOf (options : ValidatorOptions) (registry : Registry) :
    (fresh catalog options registry).cache.schemaOf registry =
      Schema.build catalog options.tag registry := by
  funext type
  simp [fresh, SchemaCache.schemaOf, SchemaCache.empty, Vector.get]

/-- **Compile errors are a matter of the type.**  Take two heaps that conform to a type at their
roots.  A fresh validator answers the one root with a compile error exactly when the type leads to
one with a broken annotation, whether all failures are wanted or not.  It then answers the other
root, in whichever mode, with the same error, and in neither case has it called a function or noted
a failure. -/
theorem compile_error_of_type (options : ValidatorOptions) (registry : Registry)
    (type : catalog.TypeId) {other_size : Nat} (heap : Heap catalog size)
    (other_heap : Heap catalog other_size) (root : Fin size) (other_root : Fin other_size)
    (collectAll other_collectAll : Bool) (conforms : heap.Conforms root type)
    (other_conforms : other_heap.Conforms other_root type) :
    let validator := fresh catalog options registry
    let validation := validator.validate heap (.object root) collectAll
    let other_validation := validator.validate other_heap (.object other_root) other_collectAll
    ((∃ error, validation.outcome = .error (.compile error)) ↔
        ∃ inner, catalog.LeadsTo type inner ∧ Schema.Broken catalog options.tag registry inner) ∧
      ∀ error, validation.outcome = .error (.compile error) →
        other_validation.outcome = .error (.compile error) ∧
          validation.ledger.calls = [] ∧ validator.noted heap (.object root) collectAll = [] := by
  intro validator validation other_validation
  have reached : validator.cache.Reached := .empty options.tag
  have schemas : validator.cache.schemaOf validator.registry =
      Schema.build catalog options.tag registry := fresh_schemaOf options registry
  have by_type := outcome_compile_iff reached conforms collectAll
  constructor
  · calc (∃ error, validation.outcome = .error (.compile error))
      _ ↔ ∃ error, SchemaCache.answer (validator.cache.schemaOf validator.registry) type =
            .error error := exists_congr by_type
      _ ↔ ¬∃ schema, SchemaCache.answer (validator.cache.schemaOf validator.registry) type =
            .ok schema := by
        cases SchemaCache.answer (validator.cache.schemaOf validator.registry) type <;> simp
      _ ↔ ¬∀ inner, catalog.LeadsTo type inner →
            ¬Schema.Broken catalog options.tag registry inner := by
        rw [SchemaCache.exists_answer_iff, schemas]
        simp only [Schema.exists_build_iff]
      _ ↔ ∃ inner, catalog.LeadsTo type inner ∧
            Schema.Broken catalog options.tag registry inner := by
        simp only [not_forall, not_not, exists_prop]
  · intro error broken
    have answered := (by_type error).mp broken
    obtain ⟨-, ledger, failures⟩ := played_broken reached conforms collectAll answered
    have present : Value.object root ≠ .nil := by simp
    refine ⟨(outcome_compile_iff reached other_conforms other_collectAll error).mpr answered, ?_, ?_⟩
    · show (validator.validate heap (.object root) collectAll).ledger.calls = []
      rw [validate_eq_played reached heap present, ledger]
      rfl
    · rw [noted_eq reached]
      have came := (played_course reached heap (.object root) collectAll).2
      rw [failures] at came
      exact List.reverse_eq_nil_iff.mp came.symm

end

attribute [local instance] Pattern.library

def outerType : Fin 2 := ⟨0, Nat.zero_lt_two⟩

def innerType : Fin 2 := ⟨1, Nat.one_lt_two⟩

/-- Outer records lead to inner ones, which have an unfinished rule. -/
def brokenCatalog : Catalog :=
  ⟨2, #v[⟨"Outer", "Outer", [⟨"Inners", [], some innerType⟩]⟩,
    ⟨"Inner", "Inner", [⟨"Value", [("vd", "$ >")], none⟩]⟩]⟩

def emptyHeap : Heap brokenCatalog 1 :=
  ⟨#v[.record outerType [.nil]]⟩

/-- An outer record that holds a sequence of one inner record. -/
def nestedHeap : Heap brokenCatalog 3 :=
  ⟨#v[.record outerType [.object 1], .sequence [.object 2], .record innerType [.int 7]]⟩

theorem emptyHeap_conforms : emptyHeap.Conforms 0 outerType := by
  refine ⟨⟨_, rfl⟩, ?_⟩
  intro id _ outer values holds position field at_position child carries
  obtain ⟨first, found⟩ := carries.exists_object
  match id, position with
  | 0, 0 => cases found
  | 0, position + 1 =>
    cases holds
    cases at_position

theorem nestedHeap_conforms : nestedHeap.Conforms 0 outerType := by
  have carried (child : Fin 3) (carries : nestedHeap.Carries (.object 1) child) :
      child = 1 ∨ child = 2 := by
    induction carries with
    | here same =>
      cases same
      exact .inl rfl
    | item before holds listed ih =>
      rcases ih with rfl | rfl
      · cases holds
        exact .inr (by simpa using listed)
      · cases holds
    | entry before holds listed ih =>
      rcases ih with rfl | rfl
      · cases holds
      · cases holds
  refine ⟨⟨_, rfl⟩, ?_⟩
  intro id _ outer values holds position field at_position child carries inner others at_child
  match id, position with
  | 0, 0 =>
    cases holds
    cases at_position
    rcases carried child carries with rfl | rfl
    · cases at_child
    · cases at_child
      rfl
  | 0, position + 1 =>
    cases holds
    cases at_position
  | 1, position => cases holds
  | 2, 0 =>
    obtain ⟨first, found⟩ := carries.exists_object
    cases found
  | 2, position + 1 =>
    cases holds
    cases at_position

/-- The broken rule of the inner records is met also where there are none. -/
theorem nested_compile_error :
    emptyHeap.Conforms 0 outerType ∧ nestedHeap.Conforms 0 outerType ∧ ∃ error,
      ((fresh brokenCatalog .default .builtins).validate emptyHeap (.object 0) false).outcome =
        .error (.compile error) ∧
      ((fresh brokenCatalog .default .builtins).validate nestedHeap (.object 0) true).outcome =
        .error (.compile error) := by
  have led : brokenCatalog.LeadsTo outerType innerType :=
    .step .root (List.mem_singleton_self innerType)
  have broken : Schema.Broken brokenCatalog "vd" .builtins innerType := by
    refine ⟨⟨"Value", [("vd", "$ >")], none⟩, by decide, "$ >", ?_⟩
    have refused : (Rule.compile brokenCatalog innerType .builtins "$ >").isOk = false := by
      decide +kernel
    cases compiled : Rule.compile brokenCatalog innerType .builtins "$ >" with
    | error error => exact ⟨error, by decide, rfl⟩
    | ok rule =>
      rw [compiled] at refused
      cases refused
  obtain ⟨met, same⟩ := compile_error_of_type .default .builtins outerType emptyHeap nestedHeap
    0 0 false true emptyHeap_conforms nestedHeap_conforms
  obtain ⟨error, came⟩ := met.mpr ⟨innerType, led, broken⟩
  exact ⟨emptyHeap_conforms, nestedHeap_conforms, error, came, (same error came).1⟩

end Validator

end Proviso
