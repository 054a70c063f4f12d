/- # Proviso.Proofs.Schema.Lookup -- what a look-up in the schema cache gives

Under a registry every type has one schema, `SchemaCache.schemaOf`: the one that was kept, or the one
that would be built.  Whatever is looked up, the schema of no type changes (`Grows.schemaOf_eq`), and
a look-up that succeeds gives it (`schemaForRecord_eq_ok`).

A cache that was filled by look-ups holds for each type only schemas that were built for it, with
whatever was registered at the time (`Reached.built`).  So a schema lists the fields that its type
declares, in their order (`Reached.fields_eq`). -/
import Proviso.Proofs.Schema.Journal

namespace Proviso

set_option autoImplicit false

/-! ## Building -/

namespace Schema

variable {catalog : Catalog} {tag : String} {registry : Registry} {type : catalog.TypeId}

def annotatedRule (catalog : Catalog) (tag : String) (registry : Registry) (type : catalog.TypeId)
    (field : Field catalog.size) : Except CompileError (Option Rule) :=
  match field.annotationFor? tag with
  | some text => (Rule.compile catalog type registry text).map some
  | none => .ok none

/-- The rule of the first field is compiled before the rules of the others. -/
theorem buildFields_cons (field : Field catalog.size) (rest : List (Field catalog.size))
    (index : Nat) :
    buildFields catalog tag registry type index (field :: rest) =
      (annotatedRule catalog tag registry type field).bind fun rule =>
        (buildFields catalog tag registry type (index + 1) rest).map
          (⟨field.name, index, rule⟩ :: ·) := by
  rw [buildFields, annotatedRule]
  cases field.annotationFor? tag with
  | none => cases buildFields catalog tag registry type (index + 1) rest <;> rfl
  | some text =>
    dsimp only
    cases Rule.compile catalog type registry text with
    | error error => rfl
    | ok rule => cases buildFields catalog tag registry type (index + 1) rest <;> rfl

/-- The rules of fields keep the names of the fields, and count them from the first position. -/
theorem buildFields_eq {fields : List (Field catalog.size)} {index : Nat} {rules : List FieldRule}
    (built : buildFields catalog tag registry type index fields = .ok rules) :
    rules.map (fun rule => (rule.name, rule.index)) =
      (fields.zipIdx index).map fun place => (place.1.name, place.2) := by
  induction fields generalizing index rules with
  | nil =>
    cases built
    rfl
  | cons field rest ih =>
    rw [buildFields_cons] at built
    cases first : annotatedRule catalog tag registry type field with
    | error error =>
      rw [first] at built
      cases built
    | ok rule =>
      cases others : buildFields catalog tag registry type (index + 1) rest with
      | error error =>
        rw [first, others] at built
        cases built
      | ok later =>
        rw [first, others] at built
        cases built
        rw [List.map_cons, ih others, List.zipIdx_cons, List.map_cons]

/-- A schema lists the declared fields. -/
theorem build_fields {schema : Schema} (built : build catalog tag registry type = .ok schema) :
    schema.fields.map (fun rule => (rule.name, rule.index)) =
      (catalog.type type).fields.zipIdx.map fun place => (place.1.name, place.2) := by
  simp only [build] at built
  cases fields : buildFields catalog tag registry type 0 (catalog.type type).fields with
  | error error =>
    rw [fields] at built
    cases built
  | ok rules =>
    rw [fields] at built
    cases built
    exact buildFields_eq fields

/-- Some field of the type has an annotation that cannot be compiled. -/
def Broken (catalog : Catalog) (tag : String) (registry : Registry) (type : catalog.TypeId) : Prop :=
  ∃ field ∈ (catalog.type type).fields, ∃ text error,
    field.annotationFor? tag = some text ∧ Rule.compile catalog type registry text = .error error

theorem exists_annotatedRule_iff (field : Field catalog.size) :
    (∃ rule, annotatedRule catalog tag registry type field = .ok rule) ↔
      ¬∃ text error, field.annotationFor? tag = some text ∧
        Rule.compile catalog type registry text = .error error := by
  unfold annotatedRule
  cases field.annotationFor? tag with
  | none => simp
  | some text =>
    dsimp only
    cases compiled : Rule.compile catalog type registry text with
    | error error => simp [Except.map, compiled]
    | ok rule => simp [Except.map, compiled]

/-- Fields have rules when each annotation among them can be compiled. -/
theorem exists_buildFields_iff (fields : List (Field catalog.size)) (index : Nat) :
    (∃ rules, buildFields catalog tag registry type index fields = .ok rules) ↔
      ∀ field ∈ fields, ∃ rule, annotatedRule catalog tag registry type field = .ok rule := by
  induction fields generalizing index with
  | nil => simp [buildFields]
  | cons field rest ih =>
    rw [buildFields_cons, List.forall_mem_cons, ← ih (index + 1)]
    cases annotatedRule catalog tag registry type field with
    | error error => simp [Except.bind]
    | ok rule =>
      cases buildFields catalog tag registry type (index + 1) rest with
      | error error => simp [Except.bind, Except.map]
      | ok rules => simp [Except.bind, Except.map]

/-- A type has a schema unless one of its annotations is broken. -/
theorem exists_build_iff :
    (∃ schema, build catalog tag registry type = .ok schema) ↔
      ¬Broken catalog tag registry type := by
  have by_fields : (∃ schema, build catalog tag registry type = .ok schema) ↔
      ∃ rules, buildFields catalog tag registry type 0 (catalog.type type).fields = .ok rules := by
    rw [build]
    cases buildFields catalog tag registry type 0 (catalog.type type).fields with
    | error error =>
      constructor
      · rintro ⟨schema, ⟨⟩⟩
      · rintro ⟨rules, ⟨⟩⟩
    | ok rules => exact iff_of_true ⟨_, rfl⟩ ⟨_, rfl⟩
  rw [by_fields, exists_buildFields_iff, Broken]
  simp only [exists_annotatedRule_iff, not_exists, not_and]

end Schema

namespace SchemaCache

variable {catalog : Catalog} {registry : Registry}

/-! ## The schema of a type -/

/-- The schema of a type, kept or yet to be built, or the error that it has instead. -/
def schemaOf (cache : SchemaCache catalog) (registry : Registry) (type : catalog.TypeId) :
    Except CompileError Schema :=
  (cache.schemas.get type).getD (Schema.build catalog cache.tag registry type)

/-- What a look-up may do to a cache: what is kept stays, and what is added was built just now. -/
structure Grows (registry : Registry) (before after : SchemaCache catalog) : Prop where
  tag_eq : after.tag = before.tag
  schemas_eq : ∀ type : catalog.TypeId, after.schemas.get type = before.schemas.get type ∨
    before.schemas.get type = none ∧
      after.schemas.get type = some (Schema.build catalog before.tag registry type)

theorem Grows.refl (cache : SchemaCache catalog) : Grows registry cache cache :=
  ⟨rfl, fun _ => .inl rfl⟩

theorem Grows.trans {first second third : SchemaCache catalog}
    (early : Grows registry first second) (late : Grows registry second third) :
    Grows registry first third := by
  refine ⟨late.tag_eq.trans early.tag_eq, fun type => ?_⟩
  rcases late.schemas_eq type with same | ⟨missing, built⟩
  · rw [same]
    exact early.schemas_eq type
  · rcases early.schemas_eq type with same | ⟨absent, found⟩
    · rw [← same, built, early.tag_eq]
      exact .inr ⟨missing, rfl⟩
    · rw [missing] at found
      cases found

/-- Builds with what is registered now add to a cache what look-ups may add. -/
theorem Accounts.grows {types : List catalog.TypeId} {before after : SchemaCache catalog}
    (accounts : Accounts (withRegistry registry types) before after) :
    Grows registry before after := by
  refine ⟨accounts.tag_eq, fun type => ?_⟩
  cases found : (withRegistry registry types).find? (·.type == type) with
  | none =>
    left
    rw [accounts.entries, found]
    simp
  | some build =>
    right
    have listed := List.mem_of_find?_eq_some found
    have named := List.find?_some found
    obtain rfl : build.type = type := beq_iff_eq.mp named
    have added := accounts.entry listed
    obtain ⟨inner, -, same⟩ := List.mem_map.mp listed
    refine ⟨accounts.missing build listed, ?_⟩
    rw [added, Build.result, ← same]

/-- No look-up changes the schema of a type. -/
theorem Grows.schemaOf_eq {before after : SchemaCache catalog} (grows : Grows registry before after) :
    after.schemaOf registry = before.schemaOf registry := by
  funext type
  unfold schemaOf
  rw [grows.tag_eq]
  rcases grows.schemas_eq type with same | ⟨missing, built⟩
  · rw [same]
  · rw [missing, built]
    rfl

/-! ## Look-ups -/

theorem compileType_fst (cache : SchemaCache catalog) (type : catalog.TypeId) :
    (cache.compileType registry type).1 = cache.schemaOf registry type := by
  unfold compileType schemaOf
  split
  · rename_i result kept
    rw [kept]
    rfl
  · rename_i missing
    rw [missing]
    rfl

theorem compileType_grows (cache : SchemaCache catalog) (type : catalog.TypeId) :
    Grows registry cache (cache.compileType registry type).2 :=
  (cache.compileType_accounts type).grows

theorem compileAll_grows (types : List catalog.TypeId) (cache : SchemaCache catalog) :
    Grows registry cache (compileAll registry types cache).2 :=
  (compileAll_accounts types cache).grows

theorem compileReachable_grows (cache : SchemaCache catalog) (root : catalog.TypeId) :
    Grows registry cache (cache.compileReachable registry root).2 :=
  (cache.compileReachable_accounts root).grows

theorem schemaFor_grows (cache : SchemaCache catalog) (type : catalog.TypeId) :
    Grows registry cache (cache.schemaFor registry type).2 :=
  (cache.schemaFor_accounts type).grows

theorem schemaForRecord_grows (cache : SchemaCache catalog) (type : catalog.TypeId) :
    Grows registry cache (cache.schemaForRecord registry type).2 :=
  (cache.schemaForRecord_accounts type).grows

/-- A look-up that succeeds gives the schema of the type. -/
theorem schemaForRecord_eq_ok {cache : SchemaCache catalog} {type : catalog.TypeId} {schema : Schema}
    (found : (cache.schemaForRecord registry type).1 = .ok schema) :
    cache.schemaOf registry type = .ok schema := by
  unfold schemaForRecord at found
  split at found
  · rename_i result _ kept
    simp only [schemaOf, kept, Option.getD_some]
    exact found
  · have closed : Grows registry cache _ := cache.compileReachable_grows type
    unfold schemaFor at found
    cases compiled : cache.compileReachable registry type with
    | mk result after =>
      rw [compiled] at closed found
      cases result with
      | ok done =>
        rw [← closed.schemaOf_eq, ← after.compileType_fst]
        exact found
      | error error => cases found

/-! ## Caches that were filled by look-ups -/

/-- A cache that is empty, or came out of a look-up under whatever was registered at the time. -/
inductive Reached : SchemaCache catalog → Prop where
  | empty (tag : String) : Reached (empty catalog tag)
  | schemaFor {cache : SchemaCache catalog} (registry : Registry) (type : catalog.TypeId) :
      Reached cache → Reached (cache.schemaFor registry type).2
  | schemaForRecord {cache : SchemaCache catalog} (registry : Registry) (type : catalog.TypeId) :
      Reached cache → Reached (cache.schemaForRecord registry type).2

/-- Every schema that is kept was built for its type. -/
def Built (cache : SchemaCache catalog) : Prop :=
  ∀ (type : catalog.TypeId) (schema : Schema), cache.schemas.get type = some (.ok schema) →
    ∃ registry, Schema.build catalog cache.tag registry type = .ok schema

theorem Built.grows {before after : SchemaCache catalog} (built : Built before)
    (grows : Grows registry before after) : Built after := by
  intro type schema kept
  rw [grows.tag_eq]
  rcases grows.schemas_eq type with same | ⟨_, added⟩
  · exact built type schema (same ▸ kept)
  · rw [added] at kept
    exact ⟨registry, Option.some.inj kept⟩

theorem Reached.built {cache : SchemaCache catalog} (reached : Reached cache) : Built cache := by
  induction reached with
  | empty tag =>
    intro type schema kept
    simp [SchemaCache.empty, Vector.get] at kept
  | schemaFor registry type _ ih => exact ih.grows (schemaFor_grows _ type)
  | schemaForRecord registry type _ ih => exact ih.grows (schemaForRecord_grows _ type)

/-- The schema of a type lists the fields that the type declares. -/
theorem Reached.fields_eq {cache : SchemaCache catalog} (reached : Reached cache)
    {type : catalog.TypeId} {schema : Schema} (found : cache.schemaOf registry type = .ok schema) :
    schema.fields.map (fun rule => (rule.name, rule.index)) =
      (catalog.type type).fields.zipIdx.map fun place => (place.1.name, place.2) := by
  unfold schemaOf at found
  cases kept : cache.schemas.get type with
  | none =>
    rw [kept] at found
    exact Schema.build_fields found
  | some result =>
    rw [kept] at found
    cases found
    obtain ⟨earlier, built⟩ := reached.built type schema kept
    exact Schema.build_fields built

end SchemaCache

end Proviso
