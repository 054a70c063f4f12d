/- # Proviso.Proofs.Rule.Resolution -- what can be resolved, and the first fault of what cannot

Names are resolved node by node.  A call and a path may be at fault by themselves (`Faulty`); other
nodes never are.  The nodes of a clause are listed each before those below it, from left to right,
the condition before the message.  A clause becomes a rule exactly when none of its nodes is at
fault, and otherwise the error is the fault of the first node that has one
(`compile_reports_first_fault`).

A path keeps track of where it has come to: the record type last known, and the names of the fields
that led on from there (`Whereabouts`).  A rule says the same as the clause that it was made from:
with names for positions and functions it is the clause again (`Rule.erase?`). -/
import Proviso.Proofs.FirstFault
import Proviso.Proofs.Rule.Calls

namespace Proviso

set_option autoImplicit false

/-! ## Where a path has come to -/

/-- The record type last known, and the names of the fields that led on from there to no type. -/
structure Whereabouts (catalog : Catalog) where
  type : catalog.TypeId
  past : List String

namespace Whereabouts

variable {catalog : Catalog}

/-- The record type, if it is the one of the records at hand. -/
def known? (here : Whereabouts catalog) : Option catalog.TypeId :=
  match here.past with
  | [] => some here.type
  | _ :: _ => none

/-- What an unknown field is said to be missing from: the name of the type, and those of the fields
past it, each after a dot. -/
def owner (here : Whereabouts catalog) : String :=
  here.past.foldl (fun owner name => owner ++ "." ++ name) (catalog.type here.type).name

/-- The step leads from the first place to the second one.  Indices lead nowhere else. -/
inductive Takes : Whereabouts catalog → PathStep → Whereabouts catalog → Prop where
  | index {here : Whereabouts catalog} {position : Nat} : Takes here (.index position) here
  | record {type next : catalog.TypeId} {name : String} {position : Nat} {field : Field catalog.size}
      (declared : (catalog.type type).fieldIndex? name = some position)
      (placed : (catalog.type type).fields[position]? = some field)
      (leads : field.element = some next) : Takes ⟨type, []⟩ (.field name) ⟨next, []⟩
  | past {type : catalog.TypeId} {name : String} {position : Nat} {field : Field catalog.size}
      (declared : (catalog.type type).fieldIndex? name = some position)
      (placed : (catalog.type type).fields[position]? = some field)
      (leads_nowhere : field.element = none) : Takes ⟨type, []⟩ (.field name) ⟨type, [name]⟩

/-- The path leads from the first place to the second one. -/
inductive Passes : Whereabouts catalog → List PathStep → Whereabouts catalog → Prop where
  | nil {here : Whereabouts catalog} : Passes here [] here
  | cons {here next last : Whereabouts catalog} {step : PathStep} {rest : List PathStep}
      (takes : Takes here step next) (onward : Passes next rest last) :
      Passes here (step :: rest) last

/-- No field of the name is declared where the path has come to. -/
def Lacks (here : Whereabouts catalog) (name : String) : Prop :=
  ∀ next, ¬Takes here (.field name) next

end Whereabouts

/-- The names for the positions of a path that starts at a type, or past every type. -/
def eraseSteps? (catalog : Catalog) : Option catalog.TypeId → List Step → Option (List PathStep)
  | _, [] => some []
  | type, .index position :: rest => (eraseSteps? catalog type rest).map (.index position :: ·)
  | none, .field _ :: _ => none
  | some type, .field position :: rest =>
    match (catalog.type type).fields[position]? with
    | none => none
    | some field => (eraseSteps? catalog field.element rest).map (.field field.name :: ·)

section Paths

variable {catalog : Catalog}

open Whereabouts

/-- A path is passed and its positions stand for its names, or the error is about its first field
that is not declared where the path has come to. -/
inductive Resolves (here : Whereabouts catalog) (path : List PathStep) :
    Except CompileError (List Step) → Prop where
  | passed {last : Whereabouts catalog} {steps : List Step} (passes : Passes here path last)
      (erased : eraseSteps? catalog here.known? steps = some path) : Resolves here path (.ok steps)
  | stuck {before after : List PathStep} {name : String} {there : Whereabouts catalog}
      (split : path = before ++ .field name :: after) (passes : Passes here before there)
      (lacks : there.Lacks name) : Resolves here path (.error (.unknownField there.owner name))

theorem lacks_of_unknown {here : Whereabouts catalog} (unknown : here.known? = none)
    (name : String) : here.Lacks name := by
  rintro next takes
  cases takes <;> cases unknown

theorem lacks_of_undeclared {type : catalog.TypeId} {name : String}
    (undeclared : (catalog.type type).fieldIndex? name = none) :
    Lacks (⟨type, []⟩ : Whereabouts catalog) name := by
  rintro next takes
  cases takes with
  | record declared | past declared => simp [undeclared] at declared

theorem exists_field_of_fieldIndex? {type : catalog.TypeId} {name : String} {position : Nat}
    (declared : (catalog.type type).fieldIndex? name = some position) :
    ∃ field, (catalog.type type).fields[position]? = some field ∧ field.name = name := by
  obtain ⟨inside, named, -⟩ := List.findIdx?_eq_some_iff_getElem.mp declared
  exact ⟨_, List.getElem?_eq_getElem inside, beq_iff_eq.mp named⟩

theorem Resolves.stuck_at_once {here : Whereabouts catalog} {name : String}
    {rest : List PathStep} (lacks : here.Lacks name) :
    Resolves here (.field name :: rest) (.error (.unknownField here.owner name)) :=
  .stuck (List.nil_append (.field name :: rest)).symm .nil lacks

/-- One step more at the beginning of a path. -/
theorem Resolves.step {here next : Whereabouts catalog} {step : PathStep} {rest : List PathStep}
    {resolved : Step} {result : Except CompileError (List Step)}
    (onward : Resolves next rest result) (takes : Takes here step next)
    (erases : ∀ steps, eraseSteps? catalog here.known? (resolved :: steps) =
      (eraseSteps? catalog next.known? steps).map (step :: ·)) :
    Resolves here (step :: rest) (result >>= fun later => pure (resolved :: later)) := by
  cases onward with
  | passed passes erased =>
    refine .passed (.cons takes passes) ?_
    rw [erases, erased]
    rfl
  | @stuck before after name there split passes lacks =>
    subst split
    exact .stuck (List.cons_append (a := step)).symm (.cons takes passes) lacks

/-- Resolution goes along the path and keeps track of where it has come to. -/
theorem resolvePath_resolves (here : Whereabouts catalog) (path : List PathStep) :
    Resolves here path (resolvePath catalog here.owner here.known? path) := by
  induction path generalizing here with
  | nil => exact .passed .nil rfl
  | cons step rest ih =>
    cases step with
    | index position =>
      rw [resolvePath]
      exact (ih here).step .index fun steps => by rw [eraseSteps?]
    | field name =>
      obtain ⟨type, past⟩ := here
      cases past with
      | cons first others =>
        exact .stuck_at_once (lacks_of_unknown rfl name)
      | nil =>
        show Resolves _ _ (resolvePath catalog (catalog.type type).name (some type) _)
        rw [resolvePath]
        cases found : (catalog.type type).fieldIndex? name with
        | none => exact .stuck_at_once (lacks_of_undeclared found)
        | some position =>
          obtain ⟨field, placed, name_eq⟩ := exists_field_of_fieldIndex? found
          have erases (steps : List Step) : eraseSteps? catalog (some type) (.field position :: steps) =
              (eraseSteps? catalog field.element steps).map (.field name :: ·) := by
            rw [eraseSteps?, placed, ← name_eq]
          simp only [placed, Option.bind_some]
          cases leads : field.element with
          | none =>
            rw [leads] at erases
            exact (ih ⟨type, [name]⟩).step (.past found placed leads) erases
          | some next =>
            rw [leads] at erases
            exact (ih ⟨next, []⟩).step (.record found placed leads) erases

theorem takes_unique {here next other : Whereabouts catalog} {step : PathStep}
    (takes : Takes here step next) (also : Takes here step other) : next = other := by
  cases takes with
  | index =>
    cases also
    rfl
  | record declared placed leads =>
    cases also with
    | record again there onward =>
      cases declared.symm.trans again
      cases placed.symm.trans there
      cases leads.symm.trans onward
      rfl
    | past again there nowhere =>
      cases declared.symm.trans again
      cases placed.symm.trans there
      cases leads.symm.trans nowhere
  | past declared placed leads =>
    cases also with
    | record again there onward =>
      cases declared.symm.trans again
      cases placed.symm.trans there
      cases leads.symm.trans onward
    | past => rfl

/-- A path that gets stuck is not passed. -/
theorem not_passes_of_lacks {here there last : Whereabouts catalog} {before after : List PathStep}
    {name : String} (passes : Passes here before there) (lacks : there.Lacks name) :
    ¬Passes here (before ++ .field name :: after) last := by
  induction passes with
  | nil =>
    rintro (_ | ⟨takes, -⟩)
    exact lacks _ takes
  | cons takes onward ih =>
    rintro (_ | ⟨again, later⟩)
    cases takes_unique takes again
    exact ih lacks later

/-- A path gets stuck at one place. -/
theorem stuck_unique {here there other : Whereabouts catalog} {before front after back : List PathStep}
    {name another : String} (passes : Passes here before there) (also : Passes here front other)
    (same : before ++ .field name :: after = front ++ .field another :: back)
    (lacks : there.Lacks name) (lacks_other : other.Lacks another) :
    there = other ∧ name = another := by
  induction passes generalizing front with
  | nil =>
    cases also with
    | nil =>
      cases same
      exact ⟨rfl, rfl⟩
    | cons takes onward =>
      cases same
      exact absurd takes (lacks _)
  | cons takes onward ih =>
    cases also with
    | nil =>
      cases same
      exact absurd takes (lacks_other _)
    | cons takes_other onward_other =>
      obtain ⟨rfl, rest_same⟩ := List.cons.inj same
      cases takes_unique takes takes_other
      exact ih onward_other rest_same lacks

end Paths

/-! ## Nodes -/

namespace Expr

mutual

/-- The nodes of an expression, each before those below it, from left to right. -/
def nodes : Expr → List Expr
  | .literal value => [.literal value]
  | .current => [.current]
  | .sibling path => [.sibling path]
  | .unary op operand => .unary op operand :: operand.nodes
  | .arithmetic op left right => .arithmetic op left right :: (left.nodes ++ right.nodes)
  | .comparison op left right => .comparison op left right :: (left.nodes ++ right.nodes)
  | .connective op left right => .connective op left right :: (left.nodes ++ right.nodes)
  | .call name args => .call name args :: nodesOfAll args

def nodesOfAll : List Expr → List Expr
  | [] => []
  | expr :: rest => expr.nodes ++ nodesOfAll rest

end

variable (catalog : Catalog) (type : catalog.TypeId) (registry : Registry)

/-- What is wrong with a node by itself: a call of what is not registered, or with too few or too
many arguments, or a path with a field that is not declared where the path has come to. -/
inductive Faulty : Expr → CompileError → Prop where
  | unregistered {name : String} {args : List Expr} (unknown : registry.lookup? name = none) :
      Faulty (.call name args) (.unknownFunction name)
  | tooFew {name : String} {args : List Expr} {function : Function}
      (found : registry.lookup? name = some function) (few : args.length < function.minArgs) :
      Faulty (.call name args) (.tooFewArguments function.name function.minArgs)
  | tooMany {name : String} {args : List Expr} {function : Function} {most : Nat}
      (found : registry.lookup? name = some function) (enough : function.minArgs ≤ args.length)
      (limit : function.maxArgs = some most) (many : most < args.length) :
      Faulty (.call name args) (.tooManyArguments function.name most)
  | undeclared {before after : List PathStep} {name : String} {there : Whereabouts catalog}
      (passes : Whereabouts.Passes ⟨type, []⟩ before there) (lacks : there.Lacks name) :
      Faulty (.sibling (before ++ .field name :: after)) (.unknownField there.owner name)

/-- A call of a registered function that admits the number of arguments, a path all of whose fields
are declared where it has come to, or a node that names nothing. -/
def WellFormed : Expr → Prop
  | .call name args => ∃ function, registry.lookup? name = some function ∧ function.Admits args.length
  | .sibling path => ∃ last, Whereabouts.Passes (⟨type, []⟩ : Whereabouts catalog) path last
  | _ => True

variable {catalog type registry}

/-- A node is well formed when nothing is wrong with it. -/
theorem wellFormed_iff (node : Expr) :
    node.WellFormed catalog type registry ↔ ∀ error, ¬Faulty catalog type registry node error := by
  constructor
  · intro formed error faulty
    cases faulty with
    | unregistered unknown =>
      obtain ⟨function, found, -⟩ := formed
      cases unknown.symm.trans found
    | tooFew found few =>
      obtain ⟨_, again, enough, -⟩ := formed
      cases found.symm.trans again
      omega
    | tooMany found enough limit many =>
      obtain ⟨_, again, -, bounded⟩ := formed
      cases found.symm.trans again
      have := bounded _ limit
      omega
    | undeclared passes lacks =>
      obtain ⟨last, passed⟩ := formed
      exact not_passes_of_lacks passes lacks passed
  · intro faultless
    cases node with
    | call name args =>
      cases found : registry.lookup? name with
      | none => exact absurd (.unregistered found) (faultless _)
      | some function =>
        have enough : function.minArgs ≤ args.length := by
          by_contra few
          exact faultless _ (.tooFew found (Nat.not_le.mp few))
        refine ⟨function, found, enough, fun most limit => ?_⟩
        by_contra many
        exact faultless _ (.tooMany found enough limit (Nat.not_le.mp many))
    | sibling path =>
      have resolves := resolvePath_resolves (⟨type, []⟩ : Whereabouts catalog) path
      generalize resolvePath _ _ _ path = result at resolves
      cases resolves with
      | passed passes erased => exact ⟨_, passes⟩
      | stuck split passes lacks =>
        subst split
        exact absurd (.undeclared passes lacks) (faultless _)
    | literal | current | unary | arithmetic | comparison | connective => trivial

/-- Nothing else is wrong with a node. -/
theorem Faulty.unique {node : Expr} {error another : CompileError}
    (faulty : Faulty catalog type registry node error)
    (also : Faulty catalog type registry node another) : error = another := by
  cases faulty with
  | unregistered unknown =>
    cases also with
    | unregistered => rfl
    | tooFew found | tooMany found => cases unknown.symm.trans found
  | tooFew found few =>
    cases also with
    | unregistered unknown => cases unknown.symm.trans found
    | tooFew again =>
      cases found.symm.trans again
      rfl
    | tooMany again enough =>
      cases found.symm.trans again
      omega
  | tooMany found enough limit =>
    cases also with
    | unregistered unknown => cases unknown.symm.trans found
    | tooFew again few =>
      cases found.symm.trans again
      omega
    | tooMany again _ other_limit =>
      cases found.symm.trans again
      cases limit.symm.trans other_limit
      rfl
  | @undeclared before after name there passes lacks =>
    generalize whole : before ++ .field name :: after = path at also
    cases also with
    | undeclared passes_other lacks_other =>
      obtain ⟨rfl, rfl⟩ := stuck_unique passes passes_other whole lacks lacks_other
      rfl

end Expr

/-! ## Resolution -/

/-- The number of arguments is admitted, or it is what is wrong with the call. -/
theorem Function.checkArity_cases (function : Function) (count : Nat) :
    function.checkArity count = .ok () ∨
      (count < function.minArgs ∧
        function.checkArity count = .error (.tooFewArguments function.name function.minArgs)) ∨
      ∃ most, function.minArgs ≤ count ∧ function.maxArgs = some most ∧ most < count ∧
        function.checkArity count = .error (.tooManyArguments function.name most) := by
  unfold checkArity
  by_cases few : count < function.minArgs
  · exact .inr (.inl ⟨few, if_pos few⟩)
  · rw [if_neg few]
    cases limit : function.maxArgs with
    | none => exact .inl rfl
    | some most =>
      dsimp only
      by_cases many : most < count
      · exact .inr (.inr ⟨most, Nat.not_lt.mp few, rfl, many, if_pos many⟩)
      · exact .inl (if_neg many)

namespace Node

variable (catalog : Catalog) (type : catalog.TypeId)

mutual

/-- The expression with the names of functions and fields, for a node about a field of a type. -/
def erase? : Node → Option Expr
  | .literal value => some (.literal value)
  | .current => some .current
  | .sibling steps => (eraseSteps? catalog (some type) steps).map .sibling
  | .unary op operand => do return .unary op (← erase? operand)
  | .arithmetic op left right => do return .arithmetic op (← erase? left) (← erase? right)
  | .comparison op left right => do return .comparison op (← erase? left) (← erase? right)
  | .connective op left right => do return .connective op (← erase? left) (← erase? right)
  | .call function args => do return .call function.name (← eraseAll? args)

def eraseAll? : List Node → Option (List Expr)
  | [] => some []
  | node :: rest => do return (← erase? node) :: (← eraseAll? rest)

end

end Node

namespace Expr

variable {catalog : Catalog} {type : catalog.TypeId} {registry : Registry}

/-- A name is looked up under itself. -/
theorem name_of_lookup? {name : String} {function : Function}
    (found : registry.lookup? name = some function) : function.name = name := by
  unfold Registry.lookup? at found
  have named := List.find?_some found
  exact beq_iff_eq.mp named

variable (catalog type registry) in
/-- The first fault among nodes is reported, and without one the result says the same as what was
resolved. -/
abbrev Resolved {α β : Type} (erase? : β → Option α) (written : α) :
    List Expr → Except CompileError β → Prop :=
  Reports (Faulty catalog type registry) fun resolved => erase? resolved = some written

mutual

theorem resolve_reports : ∀ expr : Expr,
    Resolved catalog type registry (Node.erase? catalog type) expr expr.nodes
      (expr.resolve catalog type registry)
  | .literal value => .one ((wellFormed_iff _).mp trivial) rfl
  | .current => .one ((wellFormed_iff _).mp trivial) rfl
  | .sibling path => by
    have resolves := resolvePath_resolves (⟨type, []⟩ : Whereabouts catalog) path
    rw [resolve, nodes]
    change Resolves _ _ (resolvePath catalog (catalog.type type).name (some type) path) at resolves
    generalize resolvePath _ _ _ path = result at resolves
    cases resolves with
    | passed passes erased =>
      have formed : (sibling path).WellFormed catalog type registry := ⟨_, passes⟩
      refine .one ((wellFormed_iff _).mp formed) ?_
      rw [Node.erase?]
      exact congrArg (Option.map Expr.sibling) erased
    | stuck split passes lacks =>
      subst split
      exact .stop (.undeclared passes lacks)
  | .unary op operand => by
    rw [resolve, nodes]
    refine .pass ((wellFormed_iff _).mp trivial) ((resolve_reports operand).andReturn fun node erased => ?_)
    rw [Node.erase?, erased]
    rfl
  | .arithmetic op left right
  | .comparison op left right
  | .connective op left right => by
    rw [resolve, nodes]
    refine .pass ((wellFormed_iff _).mp trivial) ((resolve_reports left).bind fun first first_erased =>
      (resolve_reports right).andReturn fun second second_erased => ?_)
    rw [Node.erase?, first_erased, second_erased]
    rfl
  | .call name args => by
    rw [resolve, nodes]
    cases found : registry.lookup? name with
    | none => exact .stop (.unregistered found)
    | some function =>
      rcases function.checkArity_cases args.length with
        fine | ⟨few, failed⟩ | ⟨most, enough, limit, many, failed⟩
      · have formed : (call name args).WellFormed catalog type registry :=
          ⟨function, found, Function.admits_of_checkArity fine⟩
        dsimp only
        rw [fine]
        refine .pass ((wellFormed_iff _).mp formed)
          ((resolveAll_reports args).andReturn fun nodes erased => ?_)
        rw [Node.erase?, erased, name_of_lookup? found]
        rfl
      · dsimp only
        rw [failed]
        exact .stop (.tooFew found few)
      · dsimp only
        rw [failed]
        exact .stop (.tooMany found enough limit many)

theorem resolveAll_reports : ∀ exprs : List Expr,
    Resolved catalog type registry (Node.eraseAll? catalog type) exprs (nodesOfAll exprs)
      (resolveAll catalog type registry exprs)
  | [] => .nothing rfl
  | expr :: rest => by
    rw [resolveAll, nodesOfAll]
    refine (resolve_reports expr).bind fun node erased =>
      (resolveAll_reports rest).andReturn fun nodes all_erased => ?_
    rw [Node.eraseAll?, erased, all_erased]
    rfl

end

end Expr

/-! ## Rules -/

/-- The nodes of a clause, those of the condition before those of the message. -/
def Clause.nodes (clause : Clause) : List Expr :=
  clause.condition.nodes ++
    match clause.message with
    | some message => message.nodes
    | none => []

/-- The clause with the names of functions and fields, for a rule about a field of a type. -/
def Rule.erase? (catalog : Catalog) (type : catalog.TypeId) (rule : Rule) : Option Clause := do
  let condition ← rule.condition.erase? catalog type
  match rule.message with
  | some message => do return ⟨condition, some (← message.erase? catalog type)⟩
  | none => return ⟨condition, none⟩

namespace Rule

variable {catalog : Catalog} {type : catalog.TypeId} {registry : Registry}

/-- The rule keeps the text, and says what the clause says. -/
structure Restates (catalog : Catalog) (type : catalog.TypeId) (source : String) (clause : Clause)
    (rule : Rule) : Prop where
  source_eq : rule.source = source
  erased : rule.erase? catalog type = some clause
  testsAbsence_eq : rule.testsAbsence = clause.condition.testsAbsence

/-- A clause reports the faults of its nodes. -/
theorem ofClause_reports (source : String) (clause : Clause) :
    Reports (Expr.Faulty catalog type registry) (Restates catalog type source clause) clause.nodes
      (ofClause catalog type registry source clause) := by
  obtain ⟨condition, message⟩ := clause
  refine (Expr.resolve_reports condition).bind fun node erased => ?_
  cases message with
  | none =>
    refine .nothing ⟨rfl, ?_, rfl⟩
    rw [erase?, erased]
    rfl
  | some message =>
    have message_reports : Reports (Expr.Faulty catalog type registry)
        (fun resolved => ∃ node, resolved = some node ∧ node.erase? catalog type = some message)
        message.nodes (some <$> message.resolve catalog type registry) :=
      (Expr.resolve_reports message).map fun node message_erased => ⟨node, rfl, message_erased⟩
    refine message_reports.andReturn fun resolved is_message => ⟨rfl, ?_, rfl⟩
    obtain ⟨other, rfl, message_erased⟩ := is_message
    rw [erase?, erased]
    show (do return (⟨condition, some (← other.erase? catalog type)⟩ : Clause)) = _
    rw [message_erased]
    rfl

/-- **What is not well formed is reported at the first place.**  For every text that is read as a
clause, every record type and every registry: the text becomes a rule exactly when each node of the
clause is well formed.  The rule keeps the text, and with the names of functions and fields it is the
clause again.  Otherwise the error is what is wrong with the first node that is not well formed, in
the order in which a node comes before those below it, and the condition before the message. -/
theorem compile_reports_first_fault (catalog : Catalog) (type : catalog.TypeId)
    (registry : Registry) (source : String) (clause : Clause)
    (parsed : Clause.parse source = .ok clause) :
    ((∃ rule, compile catalog type registry source = .ok rule) ↔
        ∀ node ∈ clause.nodes, node.WellFormed catalog type registry) ∧
      (∀ rule, compile catalog type registry source = .ok rule →
        rule.source = source ∧ rule.erase? catalog type = some clause) ∧
      ∀ error, compile catalog type registry source = .error error ↔
        ∃ before node after, clause.nodes = before ++ node :: after ∧
          (∀ earlier ∈ before, earlier.WellFormed catalog type registry) ∧
          node.Faulty catalog type registry error := by
  have reports := @ofClause_reports catalog type registry source clause
  have compiled : compile catalog type registry source =
      ofClause catalog type registry source clause := by
    unfold compile
    rw [parsed]
  simp only [compiled, Expr.wellFormed_iff]
  refine ⟨reports.exists_ok_iff, fun rule came => ?_,
    reports.eq_error_iff fun _ _ _ => Expr.Faulty.unique⟩
  rw [came] at reports
  have restates := reports.good_of_ok
  exact ⟨restates.source_eq, restates.erased⟩

def personType : Fin 1 := ⟨0, Nat.one_pos⟩

def personCatalog : Catalog :=
  ⟨1, #v[⟨"Person", "Person", [⟨"Name", [], none⟩, ⟨"Friends", [], some personType⟩]⟩]⟩

/-- The path on the left is stuck past a name that holds no record; that the function on the right is
not registered goes unsaid. -/
theorem first_name_of_friend :
    Clause.parse "(Friends[0].Name.First)$ == nope()" = .ok ⟨.comparison .eq
      (.sibling [.field "Friends", .index 0, .field "Name", .field "First"]) (.call "nope" []),
      none⟩ ∧
    compile personCatalog personType .builtins "(Friends[0].Name.First)$ == nope()" =
      .error (.unknownField "Person.Name" "First") := by
  have parsed : Clause.parse "(Friends[0].Name.First)$ == nope()" = .ok ⟨.comparison .eq
      (.sibling [.field "Friends", .index 0, .field "Name", .field "First"]) (.call "nope" []),
      none⟩ := by
    decide +kernel
  refine ⟨parsed, ?_⟩
  let start : Whereabouts personCatalog := ⟨personType, []⟩
  have friends : start.Takes (.field "Friends") start :=
    .record (show _ = some 1 by decide) rfl rfl
  have name : start.Takes (.field "Name") ⟨personType, ["Name"]⟩ :=
    .past (show _ = some 0 by decide) rfl rfl
  have at_name : start.Passes [.field "Friends", .index 0, .field "Name"] ⟨personType, ["Name"]⟩ :=
    .cons friends (.cons .index (.cons name .nil))
  refine ((compile_reports_first_fault personCatalog personType .builtins _ _ parsed).2.2 _).mpr
    ⟨[_], _, [.call "nope" []], rfl, ?_, ?_⟩
  · intro earlier listed
    cases List.mem_singleton.mp listed
    trivial
  · exact @Expr.Faulty.undeclared _ _ _ _ [] _ _ at_name (lacks_of_unknown rfl "First")

end Rule

end Proviso
