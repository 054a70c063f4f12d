/- # Proviso.Proofs.Schema.Closure -- what is kept of a closure agrees with the schemas

For a type the cache keeps, beside its schema, what came of compiling it with all it leads to.  That
is never more than what the kept schemas show already (`Shows`): they are all there up to the first
error, and without an error all of them.  Schemas that are kept stay, so a closure stays right
whatever is compiled or registered later (`Reached.consistent`).

So a look-up has one answer, whichever way it is found: the first error among the types that the type
leads to, nearest first, or the schema of the type (`schemaForRecord_fst`). -/
import Proviso.Proofs.Schema.Discovery
import Proviso.Proofs.Schema.Lookup

namespace Proviso

set_option autoImplicit false

namespace SchemaCache

variable {catalog : Catalog} {registry : Registry}

/-! ## Answers -/

/-- What comes of compiling types one after another, when it is known what comes of each. -/
def allOf (schemas : catalog.TypeId → Except CompileError Schema) :
    List catalog.TypeId → Except CompileError Unit
  | [] => .ok ()
  | type :: rest =>
    match schemas type with
    | .ok _ => allOf schemas rest
    | .error error => .error error

/-- The schema of a type, if it and all it leads to can be compiled, and else the first error. -/
def answer (schemas : catalog.TypeId → Except CompileError Schema) (type : catalog.TypeId) :
    Except CompileError Schema :=
  match allOf schemas (catalog.reachable type) with
  | .ok () => schemas type
  | .error error => .error error

theorem allOf_eq_ok_iff {schemas : catalog.TypeId → Except CompileError Schema}
    {types : List catalog.TypeId} :
    allOf schemas types = .ok () ↔ ∀ type ∈ types, ∃ schema, schemas type = .ok schema := by
  induction types with
  | nil => simp [allOf]
  | cons type rest ih =>
    rw [allOf, List.forall_mem_cons, ← ih]
    cases schemas type with
    | ok schema => simp
    | error error => simp

/-- A type has an answer without error exactly when each type that it leads to has a schema. -/
theorem exists_answer_iff {schemas : catalog.TypeId → Except CompileError Schema}
    {type : catalog.TypeId} :
    (∃ schema, answer schemas type = .ok schema) ↔
      ∀ inner, catalog.LeadsTo type inner → ∃ schema, schemas inner = .ok schema := by
  have compiled := @allOf_eq_ok_iff catalog schemas (catalog.reachable type)
  simp only [Catalog.mem_reachable_iff] at compiled
  rw [← compiled, answer]
  cases all : allOf schemas (catalog.reachable type) with
  | ok done => exact iff_of_true (compiled.mp all type .root) rfl
  | error error => simp

/-! ## What is kept -/

/-- The kept schemas show what comes of compiling types one after another. -/
inductive Shows (cache : SchemaCache catalog) :
    List catalog.TypeId → Except CompileError Unit → Prop where
  | done : Shows cache [] (.ok ())
  | compiled {type : catalog.TypeId} {rest : List catalog.TypeId} {schema : Schema}
      {result : Except CompileError Unit} (kept : cache.schemas.get type = some (.ok schema))
      (onward : Shows cache rest result) : Shows cache (type :: rest) result
  | broken {type : catalog.TypeId} {rest : List catalog.TypeId} {error : CompileError}
      (kept : cache.schemas.get type = some (.error error)) :
      Shows cache (type :: rest) (.error error)

theorem Grows.get_eq {before after : SchemaCache catalog} (grows : Grows registry before after)
    {type : catalog.TypeId} {result : Except CompileError Schema}
    (kept : before.schemas.get type = some result) : after.schemas.get type = some result := by
  rcases grows.schemas_eq type with same | ⟨missing, -⟩
  · rw [same, kept]
  · rw [kept] at missing
    cases missing

theorem Shows.grows {before after : SchemaCache catalog} {types : List catalog.TypeId}
    {result : Except CompileError Unit} (shows_before : Shows before types result)
    (grows : Grows registry before after) : Shows after types result := by
  induction shows_before with
  | done => exact .done
  | compiled kept _ ih => exact .compiled (grows.get_eq kept) ih
  | broken kept => exact .broken (grows.get_eq kept)

/-- What is shown is what comes of the schemas of the types, whatever is registered. -/
theorem Shows.allOf_eq {cache : SchemaCache catalog} {types : List catalog.TypeId}
    {result : Except CompileError Unit} (shown : Shows cache types result) :
    allOf (cache.schemaOf registry) types = result := by
  induction shown with
  | done => rfl
  | compiled kept _ ih =>
    rw [allOf, schemaOf, kept]
    exact ih
  | broken kept =>
    rw [allOf, schemaOf, kept]
    rfl

/-- Each closure that is kept agrees with the kept schemas. -/
def Consistent (cache : SchemaCache catalog) : Prop :=
  ∀ (root : catalog.TypeId) (result : Except CompileError Unit),
    cache.closures.get root = some result → Shows cache (catalog.reachable root) result

theorem Consistent.of_closures_eq {before after : SchemaCache catalog}
    (consistent : Consistent before) (grows : Grows registry before after)
    (same : after.closures = before.closures) : Consistent after := by
  intro root result kept
  rw [same] at kept
  exact (consistent root result kept).grows grows

/-! ## Look-ups -/

theorem compileType_closures (cache : SchemaCache catalog) (type : catalog.TypeId) :
    (cache.compileType registry type).2.closures = cache.closures := by
  unfold compileType
  split <;> rfl

theorem compileType_kept (cache : SchemaCache catalog) (type : catalog.TypeId) :
    (cache.compileType registry type).2.schemas.get type =
      some (cache.compileType registry type).1 := by
  unfold compileType
  split
  · assumption
  · dsimp only
    rw [get_replaced, if_pos rfl]

theorem compileAll_closures (types : List catalog.TypeId) (cache : SchemaCache catalog) :
    (compileAll registry types cache).2.closures = cache.closures := by
  induction types generalizing cache with
  | nil => rfl
  | cons type rest ih =>
    have same := @compileType_closures catalog registry cache type
    unfold compileAll
    cases compiled : cache.compileType registry type with
    | mk result after =>
      rw [compiled] at same
      cases result with
      | ok schema => exact (ih after).trans same
      | error error => exact same

/-- Once types are compiled one after another, the kept schemas show what came of it. -/
theorem compileAll_shows (types : List catalog.TypeId) (cache : SchemaCache catalog) :
    Shows (compileAll registry types cache).2 types (compileAll registry types cache).1 := by
  induction types generalizing cache with
  | nil => exact .done
  | cons type rest ih =>
    have kept : (cache.compileType registry type).2.schemas.get type = _ :=
      cache.compileType_kept type
    unfold compileAll
    cases compiled : cache.compileType registry type with
    | mk result after =>
      rw [compiled] at kept
      cases result with
      | error error => exact .broken kept
      | ok schema =>
        have grows : Grows registry after _ := compileAll_grows rest after
        exact .compiled (grows.get_eq kept) (ih after)

theorem compileReachable_consistent {cache : SchemaCache catalog} (consistent : Consistent cache)
    (root : catalog.TypeId) : Consistent (cache.compileReachable registry root).2 := by
  have shown : Shows (compileAll registry (catalog.reachable root) cache).2 _ _ :=
    compileAll_shows _ cache
  have all : Consistent (compileAll registry (catalog.reachable root) cache).2 :=
    consistent.of_closures_eq (compileAll_grows _ cache) (compileAll_closures _ cache)
  unfold compileReachable
  split
  · exact consistent
  · cases compiled : compileAll registry (catalog.reachable root) cache with
    | mk result after =>
      rw [compiled] at shown all
      have grows : Grows registry after
          ⟨after.tag, after.schemas, replaced after.closures root (some result)⟩ :=
        ⟨rfl, fun _ => .inl rfl⟩
      intro other other_result kept
      dsimp only at kept
      rw [get_replaced] at kept
      by_cases same : other = root
      · rw [if_pos same] at kept
        cases kept
        exact same ▸ shown.grows grows
      · rw [if_neg same] at kept
        exact (all other other_result kept).grows grows

theorem schemaFor_consistent {cache : SchemaCache catalog} (consistent : Consistent cache)
    (type : catalog.TypeId) : Consistent (cache.schemaFor registry type).2 := by
  have closed : Consistent (cache.compileReachable registry type).2 :=
    compileReachable_consistent consistent type
  unfold schemaFor
  cases compiled : cache.compileReachable registry type with
  | mk result after =>
    rw [compiled] at closed
    cases result with
    | ok done =>
      exact closed.of_closures_eq (after.compileType_grows type) (after.compileType_closures type)
    | error error => exact closed

theorem schemaForRecord_consistent {cache : SchemaCache catalog} (consistent : Consistent cache)
    (type : catalog.TypeId) : Consistent (cache.schemaForRecord registry type).2 := by
  unfold schemaForRecord
  split
  · exact consistent
  · exact schemaFor_consistent consistent type

/-- However a cache was filled, its closures agree with its schemas. -/
theorem Reached.consistent {cache : SchemaCache catalog} (reached : Reached cache) :
    Consistent cache := by
  induction reached with
  | empty tag =>
    intro root result kept
    simp [SchemaCache.empty, Vector.get] at kept
  | schemaFor registry type _ ih => exact schemaFor_consistent ih type
  | schemaForRecord registry type _ ih => exact schemaForRecord_consistent ih type

/-! ## The answers of look-ups -/

theorem compileAll_fst (types : List catalog.TypeId) (cache : SchemaCache catalog) :
    (compileAll registry types cache).1 = allOf (cache.schemaOf registry) types := by
  have grows : Grows registry cache _ := compileAll_grows types cache
  rw [← grows.schemaOf_eq]
  exact (compileAll_shows types cache).allOf_eq.symm

theorem compileReachable_fst {cache : SchemaCache catalog} (consistent : Consistent cache)
    (root : catalog.TypeId) :
    (cache.compileReachable registry root).1 =
      allOf (cache.schemaOf registry) (catalog.reachable root) := by
  unfold compileReachable
  split
  · rename_i result kept
    exact (consistent root result kept).allOf_eq.symm
  · exact compileAll_fst _ cache

theorem schemaFor_fst {cache : SchemaCache catalog} (consistent : Consistent cache)
    (type : catalog.TypeId) :
    (cache.schemaFor registry type).1 = answer (cache.schemaOf registry) type := by
  have grows : Grows registry cache _ := cache.compileReachable_grows type
  have closed := @compileReachable_fst catalog registry cache consistent type
  unfold schemaFor answer
  rw [← closed]
  cases compiled : cache.compileReachable registry type with
  | mk result after =>
    rw [compiled] at grows
    cases result with
    | ok done =>
      show (after.compileType registry type).1 = _
      rw [compileType_fst, grows.schemaOf_eq]
    | error error => rfl

/-- A look-up answers alike whether it finds the schema at hand or compiles what is missing. -/
theorem schemaForRecord_fst {cache : SchemaCache catalog} (consistent : Consistent cache)
    (type : catalog.TypeId) :
    (cache.schemaForRecord registry type).1 = answer (cache.schemaOf registry) type := by
  unfold schemaForRecord
  split
  · rename_i result closure kept
    rw [answer, (consistent type _ closure).allOf_eq, schemaOf, kept]
    rfl
  · exact schemaFor_fst consistent type

/-! ## Closures without error -/

/-- Without an error there is a schema for each of the types. -/
theorem Shows.exists_schema {cache : SchemaCache catalog} {types : List catalog.TypeId}
    (shown : Shows cache types (.ok ())) :
    ∀ type ∈ types, ∃ schema, cache.schemas.get type = some (.ok schema) := by
  generalize done : Except.ok () = result at shown
  induction shown with
  | done => simp
  | compiled kept _ ih => exact List.forall_mem_cons.mpr ⟨⟨_, kept⟩, ih done⟩
  | broken kept => cases done

/-- Where a type and its closure are kept without an error, nothing is left to compile. -/
theorem schemaFor_eq_of_kept {cache : SchemaCache catalog} {type : catalog.TypeId}
    {result : Except CompileError Schema} (closed : cache.closures.get type = some (.ok ()))
    (kept : cache.schemas.get type = some result) :
    cache.schemaFor registry type = (result, cache) := by
  have nothing_new : cache.compileReachable registry type = (.ok (), cache) := by
    rw [compileReachable, closed]
  rw [schemaFor, nothing_new]
  show cache.compileType registry type = _
  rw [compileType, kept]

/-- A record whose type is kept with its closure is answered at once. -/
theorem schemaForRecord_eq_of_kept {cache : SchemaCache catalog} {type : catalog.TypeId}
    {result : Except CompileError Schema} (closed : cache.closures.get type = some (.ok ()))
    (kept : cache.schemas.get type = some result) :
    cache.schemaForRecord registry type = (result, cache) := by
  rw [schemaForRecord, closed, kept]

/-- **A closure without error speaks for all that its type leads to.**  However a cache was filled,
and whatever was registered meanwhile: when the closure of a type is kept without an error, each
type that it leads to, itself included, has its schema in the cache.  So when a record is answered at
once, by what is kept for its type, the answer is a schema, it is the answer that the look-up for the
type gives, and that look-up leaves the cache as it is. -/
theorem Reached.closure_speaks_for_all {cache : SchemaCache catalog} (reached : Reached cache) :
    (∀ root, cache.closures.get root = some (.ok ()) →
      ∀ type, catalog.LeadsTo root type → ∃ schema, cache.schemas.get type = some (.ok schema)) ∧
    ∀ registry type result, cache.closures.get type = some (.ok ()) →
      cache.schemas.get type = some result →
        (∃ schema, result = .ok schema) ∧
          cache.schemaForRecord registry type = (result, cache) ∧
          cache.schemaFor registry type = (result, cache) := by
  have all_kept (root : catalog.TypeId) (closed : cache.closures.get root = some (.ok ()))
      (type : catalog.TypeId) (led : catalog.LeadsTo root type) :
      ∃ schema, cache.schemas.get type = some (.ok schema) :=
    (reached.consistent root (.ok ()) closed).exists_schema type (Catalog.mem_reachable_iff.mpr led)
  refine ⟨all_kept, fun registry type result closed kept => ?_⟩
  obtain ⟨schema, same⟩ := all_kept type closed type .root
  rw [kept] at same
  exact ⟨⟨schema, Option.some.inj same⟩, schemaForRecord_eq_of_kept closed kept,
    schemaFor_eq_of_kept closed kept⟩

def branchType : Fin 2 := ⟨0, Nat.zero_lt_two⟩

def leafType : Fin 2 := ⟨1, Nat.one_lt_two⟩

/-- Branches lead to leaves, which lead back to branches. -/
def treeCatalog : Catalog :=
  ⟨2, #v[⟨"Branch", "Branch", [⟨"Name", [("vd", "$")], none⟩, ⟨"Leaves", [], some leafType⟩]⟩,
    ⟨"Leaf", "Leaf", [⟨"Score", [("vd", "$ > 0")], none⟩, ⟨"Owner", [], some branchType⟩]⟩]⟩

/-- What is kept after a look-up for branches. -/
def treeCache : SchemaCache treeCatalog := ((empty treeCatalog "vd").schemaFor .builtins branchType).2

/-- After a look-up for branches the closure of leaves is not kept.  That of branches speaks for
them, and branches are answered at once, also when no function is registered any more. -/
theorem closure_of_branches_speaks_for_leaves :
    treeCache.closures.get branchType = some (.ok ()) ∧
      treeCache.closures.get leafType = none ∧
      (∃ schema, treeCache.schemas.get leafType = some (.ok schema)) ∧
      ∃ schema, treeCache.schemaForRecord .empty branchType = (.ok schema, treeCache) ∧
        treeCache.schemaFor .empty branchType = (.ok schema, treeCache) := by
  have reached : Reached treeCache := by
    apply Reached.schemaFor
    exact .empty "vd"
  have came : (treeCache.closures.get branchType).map Except.isOk = some true ∧
      (treeCache.closures.get leafType).isNone := by
    decide +kernel
  have closed : treeCache.closures.get branchType = some (.ok ()) := by
    obtain ⟨result, kept, went_well⟩ := Option.map_eq_some_iff.mp came.1
    cases result with
    | ok done => exact kept
    | error error => cases went_well
  have led : treeCatalog.LeadsTo branchType leafType := .step .root (List.mem_singleton_self leafType)
  obtain ⟨all_kept, answers⟩ := reached.closure_speaks_for_all
  obtain ⟨schema, kept⟩ := all_kept branchType closed branchType .root
  exact ⟨closed, Option.isNone_iff_eq_none.mp came.2, all_kept branchType closed leafType led,
    schema, (answers .empty branchType (.ok schema) closed kept).2⟩

end SchemaCache

end Proviso
