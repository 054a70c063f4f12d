/- # Proviso.Proofs.Schema.Journal -- each schema is built once

Beside each operation of the cache stands the list of the types whose schemas it builds, in order:
it takes the course that the operation takes, and builds where the operation builds.  A journal of
builds accounts for a cache (`Accounts`) when no type stands in it twice, none of its types had an
entry before, and the entries afterwards are those from before and the results of the builds.  Each
operation is accounted for by its list. -/
import Proviso.Schema.Cache

namespace Proviso

set_option autoImplicit false

/-- That the schema of a type is built, with what is registered at the time. -/
structure Build (catalog : Catalog) where
  type : catalog.TypeId
  registry : Registry

/-- What comes of building it from the annotations under a tag. -/
def Build.result {catalog : Catalog} (build : Build catalog) (tag : String) :
    Except CompileError Schema :=
  Schema.build catalog tag build.registry build.type

namespace SchemaCache

variable {catalog : Catalog}

/-! ## What is built -/

/-- Compiling a type builds its schema unless there is an entry for it. -/
def compileTypeBuilds (cache : SchemaCache catalog) (type : catalog.TypeId) :
    List catalog.TypeId :=
  match cache.schemas.get type with
  | some _ => []
  | none => [type]

def compileAllBuilds (registry : Registry) :
    List catalog.TypeId → SchemaCache catalog → List catalog.TypeId
  | [], _ => []
  | type :: rest, cache =>
    cache.compileTypeBuilds type ++
      match cache.compileType registry type with
      | (.ok _, cache) => compileAllBuilds registry rest cache
      | (.error _, _) => []

def compileReachableBuilds (cache : SchemaCache catalog) (registry : Registry)
    (root : catalog.TypeId) : List catalog.TypeId :=
  match cache.closures.get root with
  | some _ => []
  | none => compileAllBuilds registry (catalog.reachable root) cache

def schemaForBuilds (cache : SchemaCache catalog) (registry : Registry) (type : catalog.TypeId) :
    List catalog.TypeId :=
  cache.compileReachableBuilds registry type ++
    match cache.compileReachable registry type with
    | (.ok (), cache) => cache.compileTypeBuilds type
    | (.error _, _) => []

def schemaForRecordBuilds (cache : SchemaCache catalog) (registry : Registry)
    (type : catalog.TypeId) : List catalog.TypeId :=
  match cache.closures.get type, cache.schemas.get type with
  | some (.ok ()), some _ => []
  | _, _ => cache.schemaForBuilds registry type

/-! ## Journals -/

/-- What lies between two states of a cache are these builds, each of a type that had no entry. -/
structure Accounts (builds : List (Build catalog)) (before after : SchemaCache catalog) : Prop where
  tag_eq : after.tag = before.tag
  distinct : (builds.map (·.type)).Nodup
  missing : ∀ build ∈ builds, before.schemas.get build.type = none
  entries : ∀ type, after.schemas.get type = (before.schemas.get type).or
    ((builds.find? (·.type == type)).map (·.result before.tag))

variable {builds later : List (Build catalog)} {first second third : SchemaCache catalog}

theorem Accounts.of_same (same_tag : second.tag = first.tag)
    (same_schemas : second.schemas = first.schemas) : Accounts [] first second :=
  ⟨same_tag, List.nodup_nil, nofun, fun _ => by simp [same_schemas]⟩

/-- What was built has an entry. -/
theorem Accounts.entry (accounts : Accounts builds first second) {build : Build catalog}
    (listed : build ∈ builds) :
    second.schemas.get build.type = some (build.result first.tag) := by
  obtain ⟨front, back, rfl⟩ := List.append_of_mem listed
  have apart := accounts.distinct
  rw [List.map_append, List.map_cons, List.nodup_append] at apart
  have none_before : front.find? (·.type == build.type) = none := by
    rw [List.find?_eq_none]
    intro other in_front same
    exact apart.2.2 other.type (List.mem_map_of_mem in_front) build.type List.mem_cons_self
      (beq_iff_eq.mp same)
  rw [accounts.entries, accounts.missing build listed, List.find?_append, none_before]
  simp

/-- Two journals in a row are one. -/
theorem Accounts.trans (early : Accounts builds first second) (late : Accounts later second third) :
    Accounts (builds ++ later) first third := by
  refine ⟨late.tag_eq.trans early.tag_eq, ?_, ?_, fun type => ?_⟩
  · rw [List.map_append, List.nodup_append]
    refine ⟨early.distinct, late.distinct, ?_⟩
    intro type in_early other in_late same
    obtain ⟨build, listed, rfl⟩ := List.mem_map.mp in_early
    obtain ⟨again, listed_again, rfl⟩ := List.mem_map.mp in_late
    have absent := late.missing again listed_again
    rw [← same, early.entry listed] at absent
    cases absent
  · intro build listed
    rcases List.mem_append.mp listed with in_early | in_late
    · exact early.missing build in_early
    · have absent := late.missing build in_late
      rw [early.entries, Option.or_eq_none_iff] at absent
      exact absent.1
  · rw [late.entries, early.entries, early.tag_eq, List.find?_append, Option.or_assoc,
      Option.map_or]

/-! ## Operations are accounted for -/

variable {registry : Registry}

def withRegistry (registry : Registry) (types : List catalog.TypeId) : List (Build catalog) :=
  types.map (⟨·, registry⟩)

theorem compileType_accounts (cache : SchemaCache catalog) (type : catalog.TypeId) :
    Accounts (withRegistry registry (cache.compileTypeBuilds type)) cache
      (cache.compileType registry type).2 := by
  unfold compileTypeBuilds compileType
  cases kept : cache.schemas.get type with
  | some result => exact .of_same rfl rfl
  | none =>
    refine ⟨rfl, List.pairwise_singleton _ _, ?_, fun other => ?_⟩
    · intro build listed
      cases List.mem_singleton.mp listed
      exact kept
    · dsimp only
      rw [get_replaced]
      by_cases same : other = type
      · subst same
        simp [withRegistry, kept, Build.result]
      · have apart : (type == other) = false := beq_false_of_ne (Ne.symm same)
        simp [withRegistry, same, apart]

theorem compileAll_accounts (types : List catalog.TypeId) (cache : SchemaCache catalog) :
    Accounts (withRegistry registry (compileAllBuilds registry types cache)) cache
      (compileAll registry types cache).2 := by
  induction types generalizing cache with
  | nil => exact .of_same rfl rfl
  | cons type rest ih =>
    have here : Accounts (withRegistry registry (cache.compileTypeBuilds type)) cache _ :=
      cache.compileType_accounts type
    unfold compileAllBuilds compileAll withRegistry
    rw [List.map_append]
    cases compiled : cache.compileType registry type with
    | mk result after =>
      rw [compiled] at here
      cases result with
      | ok schema => exact here.trans (ih after)
      | error error => exact here.trans (.of_same rfl rfl)

theorem compileReachable_accounts (cache : SchemaCache catalog) (root : catalog.TypeId) :
    Accounts (withRegistry registry (cache.compileReachableBuilds registry root)) cache
      (cache.compileReachable registry root).2 := by
  unfold compileReachableBuilds compileReachable
  cases cache.closures.get root with
  | some result => exact .of_same rfl rfl
  | none =>
    have all : Accounts (withRegistry registry (compileAllBuilds registry _ cache)) cache _ :=
      compileAll_accounts (catalog.reachable root) cache
    exact ⟨all.tag_eq, all.distinct, all.missing, all.entries⟩

theorem schemaFor_accounts (cache : SchemaCache catalog) (type : catalog.TypeId) :
    Accounts (withRegistry registry (cache.schemaForBuilds registry type)) cache
      (cache.schemaFor registry type).2 := by
  have closed : Accounts (withRegistry registry (cache.compileReachableBuilds registry type)) cache _ :=
    cache.compileReachable_accounts type
  unfold schemaForBuilds schemaFor withRegistry
  rw [List.map_append]
  cases compiled : cache.compileReachable registry type with
  | mk result after =>
    rw [compiled] at closed
    cases result with
    | ok done => exact closed.trans (after.compileType_accounts type)
    | error error => exact closed.trans (.of_same rfl rfl)

/-- A look-up for a record makes no other builds than those that it lists. -/
theorem schemaForRecord_accounts (cache : SchemaCache catalog) (type : catalog.TypeId) :
    Accounts (withRegistry registry (cache.schemaForRecordBuilds registry type)) cache
      (cache.schemaForRecord registry type).2 := by
  unfold schemaForRecordBuilds schemaForRecord
  cases cache.closures.get type with
  | none => exact cache.schemaFor_accounts type
  | some closure =>
    cases closure with
    | error error => exact cache.schemaFor_accounts type
    | ok done =>
      cases cache.schemas.get type with
      | none => exact cache.schemaFor_accounts type
      | some result => exact .of_same rfl rfl

end SchemaCache

end Proviso
