/- # Proviso.Proofs.Rule.Selector -- positions stand for names

A path of a condition is resolved once: each name becomes the position of a field in the type that
the fields before it declare.  Followed by name instead, each step looks the name up in the type that
the record at hand has of its own (`Heap.follow`).

Where records have the types that fields declare, all records that a value carries are of the type
that resolution keeps track of (`Heap.HoldsOnly`), also behind indices, which leave that type as it
is.  So both ways lead to the same value (`Heap.select_resolved`). -/
import Proviso.Proofs.Walk.Typing

namespace Proviso

set_option autoImplicit false

/-! ## Resolved paths -/

section Resolved

variable {catalog : Catalog}

theorem resolvePath_index {owner : String} {type : Option catalog.TypeId} {position : Nat}
    {rest : List PathStep} {steps : List Step} :
    resolvePath catalog owner type (.index position :: rest) = .ok steps ↔
      ∃ later, resolvePath catalog owner type rest = .ok later ∧ steps = .index position :: later := by
  rw [resolvePath]
  cases resolvePath catalog owner type rest with
  | error error => exact iff_of_false nofun (by simp)
  | ok later =>
    constructor
    · rintro ⟨⟩
      exact ⟨later, rfl, rfl⟩
    · rintro ⟨_, ⟨⟩, rfl⟩
      rfl

/-- What an unknown field behind a field is said to be missing from. -/
def ownerBehind (catalog : Catalog) (owner name : String) : Option catalog.TypeId → String
  | some next => (catalog.type next).name
  | none => owner ++ "." ++ name

/-- A name is resolved to its first position, and the rest of the path by what the field declares. -/
theorem resolvePath_field {owner name : String} {type : catalog.TypeId} {rest : List PathStep}
    {steps : List Step} :
    resolvePath catalog owner (some type) (.field name :: rest) = .ok steps ↔
      ∃ position field later, (catalog.type type).fieldIndex? name = some position ∧
        (catalog.type type).fields[position]? = some field ∧
        resolvePath catalog (ownerBehind catalog owner name field.element) field.element rest =
          .ok later ∧
        steps = .field position :: later := by
  rw [resolvePath]
  cases found : (catalog.type type).fieldIndex? name with
  | none => exact iff_of_false nofun (by simp)
  | some position =>
    obtain ⟨inside, -⟩ := List.findIdx?_eq_some_iff_getElem.mp found
    have declared := List.getElem?_eq_getElem inside
    simp only [declared, Option.bind_some]
    show (resolvePath catalog (ownerBehind catalog owner name _) _ rest >>= fun later =>
      pure (.field position :: later)) = _ ↔ _
    constructor
    · intro resolved
      cases onward : resolvePath catalog (ownerBehind catalog owner name
          ((catalog.type type).fields[position]).element)
          ((catalog.type type).fields[position]).element rest with
      | error error =>
        rw [onward] at resolved
        cases resolved
      | ok later =>
        rw [onward] at resolved
        cases resolved
        exact ⟨position, _, later, rfl, declared, onward, rfl⟩
    · rintro ⟨_, field, later, ⟨⟩, same, onward, rfl⟩
      cases declared.symm.trans same
      rw [onward]
      rfl

end Resolved

/-! ## Following names -/

/-- Among entries with keys, the first one whose key passes is at the position of that key. -/
theorem find?_zip {α β : Type} {p : α → Bool} {keys : List α} {position : Nat}
    (found : keys.findIdx? p = some position) (values : List β) :
    ((keys.zip values).find? fun entry => p entry.1).map (·.2) = values[position]? := by
  induction keys generalizing values position with
  | nil => cases found
  | cons key rest ih =>
    cases values with
    | nil => simp
    | cons value values =>
      rw [List.findIdx?_cons] at found
      rw [List.zip_cons_cons, List.find?_cons]
      cases hit : p key with
      | true =>
        rw [hit] at found
        cases found
        rfl
      | false =>
        rw [hit] at found
        obtain ⟨later, at_later, rfl⟩ := Option.map_eq_some_iff.mp found
        exact ih at_later values

namespace Object

variable {catalog : Catalog} {size : Nat}

/-- The value of the first field of a name, among the fields that the type of a record declares. -/
def named? (object : Object catalog size) (name : String) : Option (Value size) :=
  match object with
  | .record type values =>
    (((catalog.type type).fields.zip values).find? (·.1.name == name)).map (·.2)
  | _ => none

/-- The item of a sequence at a position. -/
def item? (object : Object catalog size) (position : Nat) : Option (Value size) :=
  match object with
  | .sequence items => items[position]?
  | _ => none

end Object

namespace Heap

variable {catalog : Catalog} {size : Nat} (heap : Heap catalog size)

/-- The value one step away from a value, if the step leads anywhere. -/
def stepByName? : Value size → PathStep → Option (Value size)
  | .object id, .field name => (heap.object id).named? name
  | .object id, .index position => (heap.object id).item? position
  | _, _ => none

/-- The value at the end of a path.  Once a step leads nowhere, so does the rest of the path. -/
def follow : Value size → List PathStep → Value size
  | value, [] => value
  | value, step :: rest =>
    match heap.stepByName? value step with
    | some next => follow next rest
    | none => .nil

variable {heap}

/-- In a record, the name of a field stands for the first position of that name. -/
theorem named?_record {id : Fin size} {type : catalog.TypeId} {values : List (Value size)}
    (holds : heap.object id = .record type values) {name : String} {position : Nat}
    (found : (catalog.type type).fieldIndex? name = some position) :
    (heap.object id).named? name = values[position]? := by
  rw [holds]
  exact find?_zip found values

theorem select_nil (path : List Step) : heap.select .nil path = .nil := by
  induction path with
  | nil => rfl
  | cons step rest ih => exact ih

theorem follow_of_step {value next : Value size} {step : PathStep}
    (leads : heap.stepByName? value step = some next) (rest : List PathStep) :
    heap.follow value (step :: rest) = heap.follow next rest := by
  rw [follow, leads]

theorem follow_of_no_step {value : Value size} {step : PathStep}
    (nowhere : heap.stepByName? value step = none) (rest : List PathStep) :
    heap.follow value (step :: rest) = .nil := by
  rw [follow, nowhere]

/-- Two steps that come to the same value come to the same one with the same rest behind them. -/
theorem select_cons_eq_follow {value : Value size} {step : Step} {named : PathStep}
    {later : List Step} {rest : List PathStep}
    (same : heap.step value step = (heap.stepByName? value named).getD .nil)
    (onward : heap.select (heap.step value step) later = heap.follow (heap.step value step) rest) :
    heap.select value (step :: later) = heap.follow value (named :: rest) := by
  show heap.select (heap.step value step) later = _
  cases next : heap.stepByName? value named with
  | some child =>
    rw [next] at same
    rw [follow_of_step next, onward, same]
    rfl
  | none =>
    rw [next] at same
    rw [follow_of_no_step next, same]
    exact select_nil later

theorem step_index (value : Value size) (position : Nat) :
    heap.step value (.index position) = (heap.stepByName? value (.index position)).getD .nil := by
  cases value with
  | object id =>
    rw [step, stepByName?]
    cases heap.object id <;> rfl
  | nil | bool | int | uint | float | str => rfl

/-- A step to a field comes to the same by position as by name, if the position is that of the name
in the type of the record. -/
theorem step_field {value : Value size} {name : String} {position : Nat}
    (at_position : ∀ id type values, value = .object id → heap.object id = .record type values →
      (catalog.type type).fieldIndex? name = some position) :
    heap.step value (.field position) = (heap.stepByName? value (.field name)).getD .nil := by
  cases value with
  | object id =>
    rw [step, stepByName?]
    cases holds : heap.object id with
    | record type values =>
      have by_name := named?_record holds (at_position id type values rfl holds)
      rw [← holds, by_name, holds]
      rfl
    | sequence items => rfl
    | map values => rfl
  | nil | bool | int | uint | float | str => rfl

/-! ## The types of what a value carries -/

theorem Carries.trans {value : Value size} {id child : Fin size} (early : heap.Carries value id)
    (late : heap.Carries (.object id) child) : heap.Carries value child := by
  induction late with
  | here same =>
    cases same
    exact early
  | item _ holds listed ih => exact .item ih holds listed
  | entry _ holds listed ih => exact .entry ih holds listed

/-- What is carried by a value below the root is below the root. -/
theorem Carries.reachable {root child : Fin size} {value : Value size}
    (carries : heap.Carries value child)
    (below : ∀ id, value = .object id → heap.Reachable root id) : heap.Reachable root child := by
  induction carries with
  | here same => exact below _ same
  | item _ holds listed ih =>
    obtain ⟨position, placed⟩ := List.mem_iff_getElem?.mp listed
    exact .step ih ((mem_moves_sequence holds).mpr ⟨position, _, placed, rfl⟩)
  | entry _ holds listed ih => exact .step ih ((mem_moves_map holds).mpr ⟨_, listed, rfl⟩)

/-- A record carries nothing but itself. -/
theorem Carries.eq_of_record {id child : Fin size} {type : catalog.TypeId}
    {values : List (Value size)} (carries : heap.Carries (.object id) child)
    (holds : heap.object id = .record type values) : child = id := by
  induction carries with
  | here same =>
    cases same
    rfl
  | item _ sequence _ ih =>
    rw [ih, holds] at sequence
    cases sequence
  | entry _ map _ ih =>
    rw [ih, holds] at map
    cases map

/-- What a value carries is below the root, and its records are of admitted types. -/
def HoldsOnly (heap : Heap catalog size) (root : Fin size) (admitted : catalog.TypeId → Prop)
    (value : Value size) : Prop :=
  ∀ child, heap.Carries value child → heap.Reachable root child ∧
    ∀ type values, heap.object child = .record type values → admitted type

variable {root : Fin size} {admitted : catalog.TypeId → Prop}

/-- A record of an admitted type holds only what is admitted. -/
theorem holdsOnly_root {type : catalog.TypeId} {values : List (Value size)}
    (holds : heap.object root = .record type values) (admits : admitted type) :
    heap.HoldsOnly root admitted (.object root) := by
  intro child carries
  rw [carries.eq_of_record holds]
  refine ⟨.root, fun other others same => ?_⟩
  cases holds.symm.trans same
  exact admits

theorem holdsOnly_nil : heap.HoldsOnly root admitted .nil := by
  intro child carries
  obtain ⟨first, same⟩ := carries.exists_object
  cases same

/-- What is one index away holds only what the value does. -/
theorem HoldsOnly.index {value : Value size} (holds_only : heap.HoldsOnly root admitted value)
    (position : Nat) : heap.HoldsOnly root admitted (heap.step value (.index position)) := by
  intro child carries
  refine holds_only child ?_
  obtain ⟨first, at_step⟩ := carries.exists_object
  cases value with
  | object id =>
    rw [step] at at_step carries
    cases holds : heap.object id with
    | sequence items =>
      rw [holds, Object.get] at at_step carries
      have listed : .object first ∈ items := by
        cases placed : items[position]? with
        | none =>
          rw [placed] at at_step
          cases at_step
        | some item =>
          rw [placed] at at_step
          cases at_step
          exact List.mem_of_getElem? placed
      rw [at_step] at carries
      exact .trans (.item (.here rfl) holds listed) carries
    | record type values =>
      rw [holds] at at_step
      cases at_step
    | map values =>
      rw [holds] at at_step
      cases at_step
  | nil | bool | int | uint | float | str => cases at_step

/-- What a field of a record holds is admitted, if its records are. -/
theorem holdsOnly_field {id : Fin size} {type : catalog.TypeId} {values : List (Value size)}
    {position : Nat} {field : Field catalog.size} (reachable : heap.Reachable root id)
    (holds : heap.object id = .record type values)
    (declared : (catalog.type type).fields[position]? = some field)
    (admits : ∀ child, heap.Carries ((heap.object id).get (.field position)) child →
      ∀ inner others, heap.object child = .record inner others → admitted inner) :
    heap.HoldsOnly root admitted ((heap.object id).get (.field position)) := by
  intro child carries
  refine ⟨carries.reachable fun first same => ?_, admits child carries⟩
  exact .step reachable ((mem_moves_record holds).mpr ⟨position, field, declared, by rw [same]⟩)

/-! ## Selecting -/

/-- Where a type of records is declared, records of another type are not permitted. -/
def Permitted (declared : Option catalog.TypeId) (type : catalog.TypeId) : Prop :=
  ∀ element ∈ declared, type = element

/-- The root is a record of the type, and below it each field leads, through however many sequences
and maps, only to records that are permitted by what the field declares. -/
structure Respects (heap : Heap catalog size) (root : Fin size) (type : catalog.TypeId) : Prop where
  root_record : ∃ values, heap.object root = .record type values
  permitted : ∀ id, heap.Reachable root id →
    ∀ outer values, heap.object id = .record outer values →
      ∀ position field, (catalog.type outer).fields[position]? = some field →
        ∀ child, heap.Carries ((heap.object id).get (.field position)) child →
          ∀ inner others, heap.object child = .record inner others → Permitted field.element inner

/-- A record is of the type that is declared, if that is all it is permitted to be. -/
theorem HoldsOnly.type_eq {id : Fin size} {element inner : catalog.TypeId}
    {values : List (Value size)}
    (holds_only : heap.HoldsOnly root (Permitted (some element)) (.object id))
    (holds : heap.object id = .record inner values) : inner = element :=
  (holds_only id (.here rfl)).2 inner values holds element rfl

/-- One field further on, what the value holds is what the field permits. -/
theorem Respects.holdsOnly_step {type element : catalog.TypeId} {value : Value size}
    {position : Nat} {field : Field catalog.size} (respects : heap.Respects root type)
    (holds_only : heap.HoldsOnly root (Permitted (some element)) value)
    (declared : (catalog.type element).fields[position]? = some field) :
    heap.HoldsOnly root (Permitted field.element) (heap.step value (.field position)) := by
  cases value with
  | object id =>
    rw [step]
    cases holds : heap.object id with
    | record inner values =>
      obtain rfl := holds_only.type_eq holds
      have reachable := (holds_only id (.here rfl)).1
      rw [← holds]
      exact holdsOnly_field reachable holds declared
        (respects.permitted id reachable inner values holds position field declared)
    | sequence items => exact holdsOnly_nil
    | map values => exact holdsOnly_nil
  | nil | bool | int | uint | float | str => exact holdsOnly_nil

/-- A path that is resolved by the type of what a value carries leads where its names lead. -/
theorem Respects.select_eq_follow {type : catalog.TypeId} (respects : heap.Respects root type)
    {owner : String} {declared : Option catalog.TypeId} {value : Value size}
    (holds_only : heap.HoldsOnly root (Permitted declared) value)
    {path : List PathStep} {steps : List Step}
    (resolved : resolvePath catalog owner declared path = .ok steps) :
    heap.select value steps = heap.follow value path := by
  induction path generalizing owner declared value steps with
  | nil =>
    cases resolved
    rfl
  | cons named rest ih =>
    cases named with
    | index position =>
      obtain ⟨later, onward, rfl⟩ := resolvePath_index.mp resolved
      exact select_cons_eq_follow (step_index value position)
        (ih (holds_only.index position) onward)
    | field name =>
      cases declared with
      | none => cases resolved
      | some element =>
        obtain ⟨position, field, later, found, at_position, onward, rfl⟩ :=
          resolvePath_field.mp resolved
        refine select_cons_eq_follow (step_field fun id inner values same holds => ?_)
          (ih (respects.holdsOnly_step holds_only at_position) onward)
        subst same
        rw [holds_only.type_eq holds]
        exact found

theorem Respects.holdsOnly_root {type : catalog.TypeId} (respects : heap.Respects root type) :
    heap.HoldsOnly root (Permitted (some type)) (.object root) := by
  obtain ⟨values, holds⟩ := respects.root_record
  refine Heap.holdsOnly_root holds ?_
  rintro element ⟨⟩
  rfl

theorem Conforms.respects {type : catalog.TypeId} (conforms : heap.Conforms root type) :
    heap.Respects root type := by
  refine ⟨conforms.root_record, ?_⟩
  intro id reachable outer values holds position field at_position child carries inner others record
    element declares
  have element_eq := conforms.declared id reachable outer values holds position field at_position
    child carries inner others record
  exact Option.some.inj (element_eq.symm.trans declares)

/-- **Positions stand for names.**  For every path that resolution by a type accepts, and every
record of the type whose nested records have the types that their fields declare, the value at the
end of the resolved path is the value at the end of the path by name. -/
theorem select_resolved (heap : Heap catalog size) (root : Fin size) (type : catalog.TypeId)
    (respects : heap.Respects root type) (owner : String) (path : List PathStep)
    (steps : List Step) (resolved : resolvePath catalog owner (some type) path = .ok steps) :
    heap.select (.object root) steps = heap.follow (.object root) path :=
  respects.select_eq_follow respects.holdsOnly_root resolved

/-- The value of an inner record is found through a field and an index. -/
theorem select_resolved_nested :
    Validator.nestedHeap.Respects 0 Validator.outerType ∧
      resolvePath Validator.brokenCatalog "Outer" (some Validator.outerType)
        [.field "Inners", .index 0, .field "Value"] = .ok [.field 0, .index 0, .field 0] ∧
      Validator.nestedHeap.select (.object 0) [.field 0, .index 0, .field 0] =
        Validator.nestedHeap.follow (.object 0) [.field "Inners", .index 0, .field "Value"] ∧
      Validator.nestedHeap.select (.object 0) [.field 0, .index 0, .field 0] = .int 7 := by
  have respects := Validator.nestedHeap_conforms.respects
  have resolved : resolvePath Validator.brokenCatalog "Outer" (some Validator.outerType)
      [.field "Inners", .index 0, .field "Value"] = .ok [.field 0, .index 0, .field 0] := rfl
  exact ⟨respects, resolved, select_resolved Validator.nestedHeap 0 Validator.outerType respects
    "Outer" _ _ resolved, rfl⟩

end Heap

end Proviso
