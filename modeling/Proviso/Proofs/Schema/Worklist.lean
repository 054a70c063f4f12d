/- # Proviso.Proofs.Schema.Worklist -- types are compiled as they are found

A type is compiled together with all it leads to by a search with a queue: the first type of the
queue is compiled, and then those that its fields lead to and that are new are added at the end.  The
search ends when the queue is empty, or at the first type that cannot be compiled.  It is spelled out
here step by step and without any bound (`Search.Step`).  Each step leaves one type less to be
handled, so every search comes to an end, and the types are handled in breadth-first order.

What a look-up compiles is what such a search compiles (`compileReachable_is_exact`): all that the
root leads to, or what comes before the first type that cannot be compiled, and that type. -/
import Proviso.Proofs.FirstFault
import Proviso.Proofs.Schema.BreadthFirst
import Proviso.Proofs.Schema.Closure

namespace Proviso

set_option autoImplicit false

variable {catalog : Catalog} {registry : Registry}

/-! ## Searching and compiling -/

structure Search (catalog : Catalog) where
  /-- The types that were compiled, in order. -/
  handled : List catalog.TypeId
  /-- The types that were found and are to be compiled, the next one first. -/
  queue : List catalog.TypeId
  cache : SchemaCache catalog

namespace Search

def start (cache : SchemaCache catalog) (root : catalog.TypeId) : Search catalog :=
  ⟨[], [root], cache⟩

def found (search : Search catalog) : List catalog.TypeId := search.handled ++ search.queue

/-- The first type of the queue is compiled, and what it leads to is added to the queue. -/
inductive Step (registry : Registry) : Search catalog → Search catalog → Prop where
  | handle {handled rest : List catalog.TypeId} {type : catalog.TypeId}
      {cache after : SchemaCache catalog} {schema : Schema}
      (compiled : cache.compileType registry type = (.ok schema, after)) :
      Step registry ⟨handled, type :: rest, cache⟩
        ⟨handled ++ [type],
          rest ++ Catalog.fresh (handled ++ type :: rest) (catalog.type type).elements, after⟩

/-- What a search comes to when it goes no further. -/
inductive Ends (registry : Registry) :
    Search catalog → Except CompileError Unit × SchemaCache catalog → Prop where
  | done {handled : List catalog.TypeId} {cache : SchemaCache catalog} :
      Ends registry ⟨handled, [], cache⟩ (.ok (), cache)
  | broken {handled rest : List catalog.TypeId} {type : catalog.TypeId}
      {cache after : SchemaCache catalog} {error : CompileError}
      (compiled : cache.compileType registry type = (.error error, after)) :
      Ends registry ⟨handled, type :: rest, cache⟩ (.error error, after)

def Onward (registry : Registry) : Search catalog → Search catalog → Prop :=
  Relation.ReflTransGen (Step registry)

theorem step_or_ends (search : Search catalog) :
    (∃ next, Step registry search next) ∨ ∃ outcome, Ends registry search outcome := by
  obtain ⟨handled, queue, cache⟩ := search
  cases queue with
  | nil => exact .inr ⟨_, .done⟩
  | cons type rest =>
    cases compiled : cache.compileType registry type with
    | mk result after =>
      cases result with
      | ok schema => exact .inl ⟨_, .handle compiled⟩
      | error error => exact .inr ⟨_, .broken compiled⟩

/-! ## Every search ends -/

/-- How many types there are to be handled: those in the queue and those not found so far. -/
def remaining (search : Search catalog) : Nat :=
  search.queue.length + (Finset.univ \ search.found.toFinset).card

/-- The types that are found are no longer among those not found. -/
theorem card_unfound (found new : List catalog.TypeId) :
    (Finset.univ \ (found ++ Catalog.fresh found new).toFinset).card +
        (Catalog.fresh found new).length =
      (Finset.univ \ found.toFinset).card := by
  have within : (Catalog.fresh found new).toFinset ⊆ Finset.univ \ found.toFinset := by
    intro type listed
    simp only [Finset.mem_sdiff, Finset.mem_univ, true_and, List.mem_toFinset]
    exact (Catalog.mem_fresh.mp (List.mem_toFinset.mp listed)).2
  rw [List.toFinset_append, ← Finset.sup_eq_union, ← sdiff_sdiff_left,
    ← List.toFinset_card_of_nodup (Catalog.nodup_fresh found new)]
  exact Finset.card_sdiff_add_card_eq_card within

theorem remaining_of_step {before after : Search catalog} (step : Step registry before after) :
    after.remaining + 1 = before.remaining := by
  cases step with
  | @handle handled rest type cache after schema compiled =>
    have counted := card_unfound (handled ++ type :: rest) (catalog.type type).elements
    unfold remaining found
    simp only [List.length_append, List.length_cons, List.append_assoc, List.cons_append,
      List.nil_append] at counted ⊢
    omega

/-- No search goes on without end. -/
theorem wellFounded_step (registry : Registry) :
    WellFounded fun after before : Search catalog => Step registry before after :=
  Subrelation.wf (fun step => Nat.lt_of_succ_le (remaining_of_step step).le) (measure remaining).wf

/-- Every search ends. -/
theorem exists_ends (search : Search catalog) :
    ∃ last outcome, Onward registry search last ∧ Ends registry last outcome := by
  induction search using (wellFounded_step registry).induction with
  | _ search ih =>
    rcases step_or_ends search with ⟨next, step⟩ | ⟨outcome, ends⟩
    · obtain ⟨last, outcome, onward, ends⟩ := ih next step
      exact ⟨last, outcome, .head step onward, ends⟩
    · exact ⟨search, outcome, .refl, ends⟩

/-! ## The order of a search -/

/-- A search goes along an order, and what is left to compile comes to what the whole comes to. -/
structure Follows (registry : Registry) (cache : SchemaCache catalog) (root : catalog.TypeId)
    (order : List catalog.TypeId) (search : Search catalog) : Prop where
  found_eq : search.found = Catalog.finds root search.handled
  in_order : search.handled <+: order
  ahead : SchemaCache.compileAll registry (order.drop search.handled.length) search.cache =
    SchemaCache.compileAll registry order cache

section Follows

variable {cache : SchemaCache catalog} {root : catalog.TypeId} {order : List catalog.TypeId}

theorem follows_start : Follows registry cache root order (start cache root) :=
  ⟨Catalog.finds_nil.symm, List.nil_prefix, rfl⟩

variable {search : Search catalog}

/-- What has been found is the beginning of the order. -/
theorem Follows.found_prefix (follows : Follows registry cache root order search)
    (breadth_first : catalog.BreadthFirst root order) : search.found <+: order := by
  rw [follows.found_eq]
  exact breadth_first.finds_prefix follows.in_order

/-- The type to be handled next is the next one in the order. -/
theorem Follows.drop_eq {handled rest : List catalog.TypeId} {type : catalog.TypeId}
    {now : SchemaCache catalog}
    (follows : Follows registry cache root order ⟨handled, type :: rest, now⟩)
    (breadth_first : catalog.BreadthFirst root order) :
    order.drop handled.length = type :: order.drop (handled ++ [type]).length := by
  obtain ⟨later, rfl⟩ := follows.found_prefix breadth_first
  simp [found, List.drop_append]

theorem Follows.step {next : Search catalog} (follows : Follows registry cache root order search)
    (breadth_first : catalog.BreadthFirst root order) (step : Step registry search next) :
    Follows registry cache root order next := by
  cases step with
  | @handle handled rest type now after schema compiled =>
    have drop_eq := follows.drop_eq breadth_first
    have found_prefix := follows.found_prefix breadth_first
    obtain ⟨found_eq, in_order, ahead⟩ := follows
    have all_found : handled ++ type :: rest = Catalog.finds root handled := found_eq
    refine ⟨?_, ?_, ?_⟩
    · show handled ++ [type] ++ (rest ++ _) = _
      rw [Catalog.finds_concat, ← all_found]
      simp
    · refine .trans ?_ found_prefix
      exact ⟨rest, by simp [found]⟩
    · rw [← ahead]
      dsimp only
      rw [drop_eq, SchemaCache.compileAll, compiled]

theorem Follows.onward {next : Search catalog} (follows : Follows registry cache root order search)
    (breadth_first : catalog.BreadthFirst root order) (onward : Onward registry search next) :
    Follows registry cache root order next := by
  induction onward with
  | refl => exact follows
  | tail _ step ih => exact ih.step breadth_first step

/-- A search along the order comes to what compiling the types in order comes to. -/
theorem Follows.outcome_eq {outcome : Except CompileError Unit × SchemaCache catalog}
    (follows : Follows registry cache root order search)
    (breadth_first : catalog.BreadthFirst root order) (ends : Ends registry search outcome) :
    outcome = SchemaCache.compileAll registry order cache := by
  cases ends with
  | @done handled now =>
    have closed : handled = Catalog.finds root handled := by
      have found_eq := follows.found_eq
      rwa [found, List.append_nil] at found_eq
    have all : handled = order := breadth_first.eq_of_finds_eq follows.in_order closed
    rw [← follows.ahead, all, List.drop_length, SchemaCache.compileAll]
  | @broken handled rest type now after error compiled =>
    rw [← follows.ahead]
    dsimp only
    rw [follows.drop_eq breadth_first, SchemaCache.compileAll, compiled]

end Follows

end Search

/-! ## The first error -/

namespace Schema

variable {tag : String} {type : catalog.TypeId}

/-- The error is that of the first field of the type whose annotation cannot be compiled. -/
def FirstBroken (catalog : Catalog) (tag : String) (registry : Registry) (type : catalog.TypeId)
    (error : CompileError) : Prop :=
  ∃ before field later text, (catalog.type type).fields = before ++ field :: later ∧
    (∀ earlier ∈ before, ∀ given, earlier.annotationFor? tag = some given →
      ∃ rule, Rule.compile catalog type registry given = .ok rule) ∧
    field.annotationFor? tag = some text ∧ Rule.compile catalog type registry text = .error error

theorem annotatedRule_eq_error_iff {field : Field catalog.size} {error : CompileError} :
    annotatedRule catalog tag registry type field = .error error ↔
      ∃ text, field.annotationFor? tag = some text ∧
        Rule.compile catalog type registry text = .error error := by
  unfold annotatedRule
  cases field.annotationFor? tag with
  | none => simp
  | some text =>
    cases compiled : Rule.compile catalog type registry text with
    | error other => simp [Except.map, compiled]
    | ok rule => simp [Except.map, compiled]

/-- The rules of fields report the first annotation that cannot be compiled. -/
theorem buildFields_reports (fields : List (Field catalog.size)) (index : Nat) :
    Reports (fun field error => annotatedRule catalog tag registry type field = .error error)
      (fun _ => True) fields (buildFields catalog tag registry type index fields) := by
  induction fields generalizing index with
  | nil => exact .nothing trivial
  | cons field rest ih =>
    rw [buildFields_cons]
    cases compiled : annotatedRule catalog tag registry type field with
    | error error => exact .stop compiled
    | ok rule =>
      have fine (error : CompileError) :
          ¬annotatedRule catalog tag registry type field = .error error := by
        simp [compiled]
      exact .pass fine ((ih (index + 1)).map fun _ _ => trivial)

theorem firstBroken_of_build {error : CompileError}
    (failed : build catalog tag registry type = .error error) :
    FirstBroken catalog tag registry type error := by
  have reports := @buildFields_reports catalog registry tag type (catalog.type type).fields 0
  have fields_failed :
      buildFields catalog tag registry type 0 (catalog.type type).fields = .error error := by
    rw [build] at failed
    cases built : buildFields catalog tag registry type 0 (catalog.type type).fields with
    | ok rules =>
      rw [built] at failed
      cases failed
    | error other =>
      rw [built] at failed
      cases failed
      rfl
  rw [fields_failed] at reports
  obtain ⟨before, field, later, split, earlier, faulty⟩ := reports.exists_of_error
  obtain ⟨text, annotated, broken⟩ := annotatedRule_eq_error_iff.mp faulty
  refine ⟨before, field, later, text, split, fun other listed given has => ?_, annotated, broken⟩
  cases compiled : Rule.compile catalog type registry given with
  | ok rule => exact ⟨rule, rfl⟩
  | error another =>
    exact absurd (annotatedRule_eq_error_iff.mpr ⟨given, has, compiled⟩)
      (earlier other listed another)

end Schema

namespace SchemaCache

theorem allOf_reports (schemas : catalog.TypeId → Except CompileError Schema)
    (types : List catalog.TypeId) :
    Reports (fun type error => schemas type = .error error) (fun _ => True) types
      (allOf schemas types) := by
  induction types with
  | nil => exact .nothing trivial
  | cons type rest ih =>
    rw [allOf]
    cases compiled : schemas type with
    | error error => exact .stop compiled
    | ok schema =>
      have fine (error : CompileError) : ¬schemas type = .error error := by simp [compiled]
      exact .pass fine ih

/-! ## What is compiled -/

/-- The types up to the first that cannot be compiled, and that one. -/
def attempted (schemas : catalog.TypeId → Except CompileError Schema) :
    List catalog.TypeId → List catalog.TypeId
  | [] => []
  | type :: rest =>
    type :: match schemas type with
      | .ok _ => attempted schemas rest
      | .error _ => []

def missing (cache : SchemaCache catalog) (types : List catalog.TypeId) : List catalog.TypeId :=
  types.filter fun type => (cache.schemas.get type).isNone

section Attempts

variable {schemas : catalog.TypeId → Except CompileError Schema} {cache : SchemaCache catalog}
  {front back types : List catalog.TypeId} {type failing : catalog.TypeId}

theorem mem_missing : type ∈ cache.missing types ↔ type ∈ types ∧ cache.schemas.get type = none := by
  simp [missing]

theorem attempted_subset : attempted schemas types ⊆ types := by
  induction types with
  | nil => exact List.Subset.refl _
  | cons type rest ih =>
    rw [attempted]
    cases schemas type with
    | ok schema => exact List.cons_subset_cons type ih
    | error error => exact List.cons_subset_cons type (List.nil_subset rest)

theorem attempted_append (compiles : ∀ type ∈ front, ∃ schema, schemas type = .ok schema) :
    attempted schemas (front ++ back) = front ++ attempted schemas back := by
  induction front with
  | nil => rfl
  | cons type rest ih =>
    obtain ⟨⟨schema, compiled⟩, others⟩ := List.forall_mem_cons.mp compiles
    rw [List.cons_append, attempted, compiled, List.cons_append]
    dsimp only
    rw [ih others]

theorem attempted_of_all (compiles : ∀ type ∈ types, ∃ schema, schemas type = .ok schema) :
    attempted schemas types = types := by
  have all : attempted schemas (types ++ []) = types ++ attempted schemas [] :=
    attempted_append compiles
  rwa [attempted, List.append_nil] at all

theorem attempted_of_broken {error : CompileError}
    (compiles : ∀ type ∈ front, ∃ schema, schemas type = .ok schema)
    (broken : schemas failing = .error error) :
    attempted schemas (front ++ failing :: back) = front ++ [failing] := by
  rw [attempted_append compiles, attempted, broken]

/-- Compiling one type changes what is kept for no other one. -/
theorem compileType_get_of_ne {other : catalog.TypeId} (different : other ≠ type) :
    (cache.compileType registry type).2.schemas.get other = cache.schemas.get other := by
  unfold compileType
  split
  · rfl
  · dsimp only
    rw [get_replaced, if_neg different]

/-- Of distinct types, those are built that nothing is kept for, up to the first that cannot be
compiled. -/
theorem compileAllBuilds_eq (distinct : types.Nodup) :
    compileAllBuilds registry types cache =
      cache.missing (attempted (cache.schemaOf registry) types) := by
  induction types generalizing cache with
  | nil => rfl
  | cons type rest ih =>
    obtain ⟨apart, others⟩ := List.nodup_cons.mp distinct
    have here : cache.compileTypeBuilds type = cache.missing [type] := by
      unfold compileTypeBuilds missing
      cases kept : cache.schemas.get type <;> simp [kept]
    have result := @compileType_fst catalog registry cache type
    have grows := @compileType_grows catalog registry cache type
    have untouched (other : catalog.TypeId) (different : other ≠ type) :
        (cache.compileType registry type).2.schemas.get other = cache.schemas.get other :=
      compileType_get_of_ne different
    rw [compileAllBuilds, attempted, ← result, here]
    cases compiled : cache.compileType registry type with
    | mk outcome after =>
      rw [compiled] at grows untouched
      cases outcome with
      | error error => rw [List.append_nil]
      | ok schema =>
        dsimp only
        rw [ih others, grows.schemaOf_eq]
        have same : after.missing (attempted (cache.schemaOf registry) rest) =
            cache.missing (attempted (cache.schemaOf registry) rest) := by
          refine List.filter_congr fun other listed => ?_
          have different : other ≠ type := fun is => apart (is ▸ attempted_subset listed)
          exact congrArg Option.isNone (untouched other different)
        rw [same, missing, missing, ← List.filter_append, List.singleton_append]
        rfl

end Attempts

def cached (cache : SchemaCache catalog) : Set catalog.TypeId :=
  { type | (cache.schemas.get type).isSome }

/-- What is kept after some builds is what was kept before and what was built. -/
theorem Accounts.cached_eq {builds : List catalog.TypeId} {before after : SchemaCache catalog}
    (accounts : Accounts (withRegistry registry builds) before after) :
    after.cached = before.cached ∪ { type | type ∈ builds } := by
  ext type
  have built : (((withRegistry registry builds).find? (·.type == type)).map
      (·.result before.tag)).isSome ↔ type ∈ builds := by
    simp [withRegistry]
  show (after.schemas.get type).isSome ↔ (before.schemas.get type).isSome ∨ type ∈ builds
  rw [accounts.entries, Option.isSome_or, Bool.or_eq_true, built]

/-- Nothing changes for a type that is not built. -/
theorem Accounts.get_eq {builds : List catalog.TypeId} {before after : SchemaCache catalog}
    (accounts : Accounts (withRegistry registry builds) before after) {type : catalog.TypeId}
    (unbuilt : type ∉ builds) : after.schemas.get type = before.schemas.get type := by
  have none_built : (withRegistry registry builds).find? (·.type == type) = none := by
    simp only [withRegistry, List.find?_eq_none, List.mem_map, beq_iff_eq]
    rintro build ⟨other, listed, rfl⟩ is
    exact unbuilt (is ▸ listed)
  rw [accounts.entries, none_built, Option.map_none, Option.or_none]

/-! ## Compiling what a root leads to -/

section Reachable

variable {cache : SchemaCache catalog} {root : catalog.TypeId}
  (unknown : cache.closures.get root = none)

include unknown

theorem compileReachable_of_unknown :
    (cache.compileReachable registry root).1 =
        (compileAll registry (catalog.reachable root) cache).1 ∧
      (cache.compileReachable registry root).2.schemas =
        (compileAll registry (catalog.reachable root) cache).2.schemas := by
  rw [compileReachable, unknown]
  exact ⟨rfl, rfl⟩

theorem compileReachableBuilds_of_unknown :
    cache.compileReachableBuilds registry root =
      cache.missing (attempted (cache.schemaOf registry) (catalog.reachable root)) := by
  rw [compileReachableBuilds, unknown]
  exact compileAllBuilds_eq (catalog.reachable_breadthFirst root).nodup

/-- What was attempted is kept afterwards, beside what was kept before. -/
theorem cached_compileReachable :
    (cache.compileReachable registry root).2.cached =
      cache.cached ∪
        { type | type ∈ attempted (cache.schemaOf registry) (catalog.reachable root) } := by
  have accounts : Accounts (withRegistry registry _) cache _ := cache.compileReachable_accounts root
  rw [accounts.cached_eq, compileReachableBuilds_of_unknown unknown]
  ext type
  simp only [Set.mem_union, Set.mem_ofPred_eq, mem_missing, cached, Option.isSome_iff_ne_none]
  tauto

/-- When all that the root leads to compiles, all of it is kept. -/
theorem compileReachable_of_all
    (compiles : ∀ type, catalog.LeadsTo root type →
      ∃ schema, cache.schemaOf registry type = .ok schema) :
    (cache.compileReachable registry root).1 = .ok () ∧
      (cache.compileReachable registry root).2.cached =
        cache.cached ∪ { type | catalog.LeadsTo root type } ∧
      cache.compileReachableBuilds registry root = cache.missing (catalog.reachable root) := by
  have all : ∀ type ∈ catalog.reachable root,
      ∃ schema, cache.schemaOf registry type = .ok schema :=
    fun type listed => compiles type (Catalog.mem_reachable_iff.mp listed)
  refine ⟨?_, ?_, ?_⟩
  · rw [(compileReachable_of_unknown unknown).1, compileAll_fst]
    exact allOf_eq_ok_iff.mpr all
  · rw [cached_compileReachable unknown, attempted_of_all all]
    simp only [Catalog.mem_reachable_iff]
  · rw [compileReachableBuilds_of_unknown unknown, attempted_of_all all]

/-- When something does not compile, the error is that of the first such type, and nothing after it
is built. -/
theorem compileReachable_of_broken
    (broken : ¬∀ type, catalog.LeadsTo root type →
      ∃ schema, cache.schemaOf registry type = .ok schema) :
    ∃ front failing back error, catalog.reachable root = front ++ failing :: back ∧
      (∀ type ∈ front, ∃ schema, cache.schemaOf registry type = .ok schema) ∧
      cache.schemaOf registry failing = .error error ∧
      (cache.schemas.get failing = none →
        Schema.FirstBroken catalog cache.tag registry failing error) ∧
      (cache.compileReachable registry root).1 = .error error ∧
      (cache.compileReachable registry root).2.cached =
        cache.cached ∪ { type | type ∈ front ++ [failing] } ∧
      cache.compileReachableBuilds registry root = cache.missing (front ++ [failing]) ∧
      ∀ type ∈ back,
        (cache.compileReachable registry root).2.schemas.get type = cache.schemas.get type := by
  have reports := allOf_reports (cache.schemaOf registry) (catalog.reachable root)
  cases came : allOf (cache.schemaOf registry) (catalog.reachable root) with
  | ok done =>
    refine absurd (fun type led => ?_) broken
    exact allOf_eq_ok_iff.mp came type (Catalog.mem_reachable_iff.mpr led)
  | error error =>
    rw [came] at reports
    obtain ⟨front, failing, back, split, earlier, faulty⟩ := reports.exists_of_error
    have compiles : ∀ type ∈ front, ∃ schema, cache.schemaOf registry type = .ok schema := by
      intro type listed
      cases compiled : cache.schemaOf registry type with
      | ok schema => exact ⟨schema, rfl⟩
      | error other => exact absurd compiled (earlier type listed other)
    have tried : attempted (cache.schemaOf registry) (catalog.reachable root) = front ++ [failing] := by
      rw [split]
      exact attempted_of_broken compiles faulty
    have builds_eq : cache.compileReachableBuilds registry root = _ :=
      compileReachableBuilds_of_unknown unknown
    rw [tried] at builds_eq
    refine ⟨front, failing, back, error, split, compiles, faulty, fun unbuilt => ?_, ?_, ?_,
      builds_eq, fun type listed => ?_⟩
    · rw [schemaOf, unbuilt] at faulty
      exact Schema.firstBroken_of_build faulty
    · rw [(compileReachable_of_unknown unknown).1, compileAll_fst, came]
    · rw [cached_compileReachable unknown, tried]
    · have accounts : Accounts (withRegistry registry _) cache _ :=
        cache.compileReachable_accounts root
      refine accounts.get_eq fun built => ?_
      have distinct := (catalog.reachable_breadthFirst root).nodup
      rw [split, List.append_cons] at distinct
      rw [builds_eq] at built
      exact (List.nodup_append.mp distinct).2.2 type (mem_missing.mp built).1 type listed rfl

end Reachable

/-- **Compiling what a root leads to is exact.**  For every finite family of types, whatever it keeps
and whatever is registered, when no closure is kept for the root: the search with a queue has no run
without end, and every run ends with what the look-up comes to, after handling types in breadth-first
order and none of them twice.  If each type that the root leads to compiles, now or as it is kept,
all is well, and the types kept afterwards are those kept before and those that the root leads to.
Otherwise the error is that of the first type in the order that does not compile, which is the error
of its first broken annotation if the type is built now; the types up to this one are kept
afterwards, those that were missing were built, and no later one is touched. -/
theorem compileReachable_is_exact (registry : Registry) (cache : SchemaCache catalog)
    (root : catalog.TypeId) (unknown : cache.closures.get root = none) :
    let order := catalog.reachable root
    let answer := cache.compileReachable registry root
    let builds := cache.compileReachableBuilds registry root
    catalog.BreadthFirst root order ∧
      ((WellFounded fun later earlier : Search catalog => Search.Step registry earlier later) ∧
        (∃ last outcome, Search.Onward registry (.start cache root) last ∧
          last.Ends registry outcome) ∧
        ∀ search, Search.Onward registry (.start cache root) search →
          search.handled.Nodup ∧ search.handled <+: order ∧
            ∀ outcome, search.Ends registry outcome →
              outcome.1 = answer.1 ∧ outcome.2.schemas = answer.2.schemas) ∧
      ((∀ type, catalog.LeadsTo root type →
          ∃ schema, cache.schemaOf registry type = .ok schema) →
        answer.1 = .ok () ∧ answer.2.cached = cache.cached ∪ { type | catalog.LeadsTo root type } ∧
          builds = cache.missing order) ∧
      ((¬∀ type, catalog.LeadsTo root type →
          ∃ schema, cache.schemaOf registry type = .ok schema) →
        ∃ front failing back error, order = front ++ failing :: back ∧
          (∀ type ∈ front, ∃ schema, cache.schemaOf registry type = .ok schema) ∧
          cache.schemaOf registry failing = .error error ∧
          (cache.schemas.get failing = none →
            Schema.FirstBroken catalog cache.tag registry failing error) ∧
          answer.1 = .error error ∧
          answer.2.cached = cache.cached ∪ { type | type ∈ front ++ [failing] } ∧
          builds = cache.missing (front ++ [failing]) ∧
          ∀ type ∈ back, answer.2.schemas.get type = cache.schemas.get type) := by
  intro order answer builds
  have breadth_first : catalog.BreadthFirst root order := catalog.reachable_breadthFirst root
  have same := @compileReachable_of_unknown catalog registry cache root unknown
  refine ⟨breadth_first, ⟨Search.wellFounded_step registry, Search.exists_ends _, fun search came => ?_⟩,
    compileReachable_of_all unknown, compileReachable_of_broken unknown⟩
  have follows := Search.follows_start.onward breadth_first came
  refine ⟨breadth_first.nodup.sublist follows.in_order.sublist, follows.in_order,
    fun outcome ends => ?_⟩
  rw [follows.outcome_eq breadth_first ends]
  exact ⟨same.1.symm, same.2.symm⟩

def brokenRoot : Fin 4 := ⟨0, Nat.zero_lt_succ 3⟩

def firstBranch : Fin 4 := ⟨1, Nat.one_lt_succ_succ 2⟩

def secondBranch : Fin 4 := ⟨2, Nat.lt_of_sub_pos Nat.zero_lt_two⟩

def brokenLeaf : Fin 4 := ⟨3, Nat.lt_succ_self 3⟩

/-- A root that leads to two branches, the first of which leads back to the root and on to a leaf.
The second branch and the leaf have annotations that cannot be compiled. -/
def brokenCatalog : Catalog :=
  ⟨4, #v[⟨"Root", "Root", [⟨"First", [], some firstBranch⟩, ⟨"Second", [], some secondBranch⟩]⟩,
    ⟨"First", "First", [⟨"Parent", [("vd", "$")], some brokenRoot⟩, ⟨"Leaf", [], some brokenLeaf⟩]⟩,
    ⟨"Second", "Second", [⟨"Size", [("vd", "$ > 0")], none⟩, ⟨"Name", [("vd", "second($)")], none⟩,
      ⟨"Note", [("vd", "third($)")], none⟩]⟩,
    ⟨"Leaf", "Leaf", [⟨"Name", [("vd", "leaf($)")], none⟩]⟩]⟩

def brokenCache : SchemaCache brokenCatalog := empty brokenCatalog "vd"

theorem second_does_not_compile :
    (brokenCache.schemaOf .builtins secondBranch).isOk = false := by
  decide +kernel

/-- The second branch comes before the leaf, though the leaf is below the first branch. -/
theorem broken_catalog_reports_first :
    brokenCache.closures.get brokenRoot = none ∧
      (¬∀ type, brokenCatalog.LeadsTo brokenRoot type →
        ∃ schema, brokenCache.schemaOf .builtins type = .ok schema) ∧
      ∃ front failing back error, brokenCatalog.reachable brokenRoot = front ++ failing :: back ∧
        (brokenCache.compileReachable .builtins brokenRoot).1 = .error error ∧
        Schema.FirstBroken brokenCatalog "vd" .builtins failing error ∧
        brokenCache.compileReachableBuilds .builtins brokenRoot =
          brokenCache.missing (front ++ [failing]) := by
  have unknown : brokenCache.closures.get brokenRoot = none := by
    simp [brokenCache, empty, Vector.get]
  have unkept (type : brokenCatalog.TypeId) : brokenCache.schemas.get type = none := by
    simp [brokenCache, empty, Vector.get]
  have broken : ¬∀ type, brokenCatalog.LeadsTo brokenRoot type →
      ∃ schema, brokenCache.schemaOf .builtins type = .ok schema := by
    intro compiles
    have led : brokenCatalog.LeadsTo brokenRoot secondBranch :=
      .step .root (List.mem_cons_of_mem _ (List.mem_singleton_self _))
    obtain ⟨schema, compiled⟩ := compiles secondBranch led
    have failed := second_does_not_compile
    rw [compiled] at failed
    cases failed
  obtain ⟨-, -, -, failure⟩ := compileReachable_is_exact .builtins brokenCache brokenRoot unknown
  obtain ⟨front, failing, back, error, split, -, -, first, came, -, builds, -⟩ := failure broken
  exact ⟨unknown, broken, front, failing, back, error, split, came, first (unkept failing), builds⟩

/-- The leaf is not built, and the error is that of the first broken annotation. -/
example : (brokenCache.compileReachableBuilds .builtins brokenRoot).map Fin.val = [0, 1, 2] ∧
    (match (brokenCache.compileReachable .builtins brokenRoot).1 with
      | .error error => some error
      | .ok _ => none) = some (.unknownFunction "second") := by
  decide +kernel

end SchemaCache

end Proviso
