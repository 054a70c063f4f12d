/- # Proviso.Proofs.Walk.UniquePath -- the text of a path says which path it is

The steps of a path are written one behind the other, with nothing around them.  They can be told
apart all the same, if field names have characters and hold none of those that start a step: a name
ends where the next step starts, and a position ends at its bracket (`eq_of_texts_eq`).  Only in first
place a field has no dot before it, and there no other step starts like a name
(`FieldPath.render_injective`).

Identifiers are such names (`Catalog.WellNamed.legible`).  A step to a field names one field, if the
names of a type are distinct, and a step to an item names its position; a step into a map leaves open
which value is meant.  So the text of a path and the choice of a value at each map determine a descent
(`Heap.Visits.eq_of_path_eq`). -/
import Proviso.Proofs.Walk.FailurePath

namespace Proviso

set_option autoImplicit false

/-! ## Steps -/

/-- The characters that a step starts with, where a field has its dot. -/
def isStepMark (c : Char) : Bool := c == '.' || c == '[' || c == '\x7b'

/-- Whether the step can be told in a path: the name of a field has characters, and none of them
starts a step. -/
def Segment.Legible : Segment → Prop
  | .field name => name ≠ "" ∧ ∀ c ∈ name.toList, isStepMark c = false
  | .index _ | .mapValue => True

instance : DecidablePred Segment.Legible := fun segment =>
  match segment with
  | .field name => @instDecidableAnd (name ≠ "") _ inferInstance
      (List.decidableBAll (isStepMark · = false) name.toList)
  | .index _ | .mapValue => .isTrue trivial

/-- Identifiers can be told in a path. -/
theorem Segment.legible_of_isIdentifier {name : String}
    (is_identifier : isIdentifier name.toList = true) : (Segment.field name).Legible := by
  have no_mark {c : Char} (in_name : Phrase.isIdentChar c = true) : isStepMark c = false := by
    refine Bool.eq_false_iff.mpr fun marks => ?_
    simp only [isStepMark, Bool.or_eq_true, beq_iff_eq] at marks
    rcases marks with (rfl | rfl) | rfl <;> cases in_name
  cases chars : name.toList with
  | nil =>
    rw [chars] at is_identifier
    cases is_identifier
  | cons first rest =>
    rw [chars, isIdentifier, Bool.and_eq_true, List.all_eq_true] at is_identifier
    obtain ⟨starts, continues⟩ := is_identifier
    refine ⟨fun empty => ?_, ?_⟩
    · rw [empty] at chars
      cases chars
    · rw [chars]
      exact List.forall_mem_cons.mpr
        ⟨no_mark (Phrase.identChar_of_start starts), fun c listed => no_mark (continues c listed)⟩

namespace FieldPath

/-- Behind a step another one starts, or nothing follows. -/
theorem stepMark_of_head {segments : List Segment} {c : Char}
    (here : c ∈ (segments.flatMap segmentText).head?) : isStepMark c = true := by
  match segments, here with
  | .field name :: rest, here =>
    cases here
    rfl
  | .index position :: rest, here =>
    cases here
    rfl
  | .mapValue :: rest, here =>
    cases here
    rfl

/-- The digits of a number are the number. -/
theorem toDigits_injective {position other : Nat}
    (same : Nat.toDigits 10 position = Nat.toDigits 10 other) : position = other := by
  have value (n : Nat) : Nat.ofDigitChars 10 (Nat.toDigits 10 n) 0 = n :=
    Nat.ofDigitChars_ten_toDigits
  rw [← value position, same, value]

/-- A position in brackets ends at its bracket. -/
theorem index_unique {position other : Nat} {rest rest' : List Char}
    (same : Nat.toDigits 10 position ++ ']' :: rest = Nat.toDigits 10 other ++ ']' :: rest') :
    position = other ∧ rest = rest' := by
  have are_digits (n : Nat) : ∀ c ∈ Nat.toDigits 10 n, c.isDigit = true :=
    fun c digit => Nat.isDigit_of_mem_toDigits (by decide) (by decide) digit
  have ends (rest : List Char) : ∀ c ∈ (']' :: rest).head?, c.isDigit = false := by
    rintro c ⟨⟩
    rfl
  obtain ⟨digits, tails⟩ :=
    Phrase.run_unique (are_digits position) (are_digits other) (ends rest) (ends rest') same
  exact ⟨toDigits_injective digits, (List.cons.inj tails).2⟩

/-- A legible name ends where the next step starts. -/
theorem name_unique {name other : String} {segments segments' : List Segment}
    (legible : (Segment.field name).Legible) (legible' : (Segment.field other).Legible)
    (same : name.toList ++ segments.flatMap segmentText =
      other.toList ++ segments'.flatMap segmentText) :
    name = other ∧ segments.flatMap segmentText = segments'.flatMap segmentText := by
  have in_name {name : String} (legible : (Segment.field name).Legible) :
      ∀ c ∈ name.toList, (!isStepMark c) = true := fun c listed => by simp [legible.2 c listed]
  have ends (segments : List Segment) :
      ∀ c ∈ (segments.flatMap segmentText).head?, (!isStepMark c) = false := fun c here => by
    simp [stepMark_of_head here]
  obtain ⟨names, tails⟩ :=
    Phrase.run_unique (in_name legible) (in_name legible') (ends segments) (ends segments') same
  exact ⟨String.toList_injective names, tails⟩

/-- Steps that are written alike, each field with its dot, are the same. -/
theorem eq_of_texts_eq {first second : List Segment} (legible : ∀ segment ∈ first, segment.Legible)
    (legible' : ∀ segment ∈ second, segment.Legible)
    (same : first.flatMap segmentText = second.flatMap segmentText) : first = second := by
  induction first generalizing second with
  | nil =>
    cases second with
    | nil => rfl
    | cons segment rest => cases segment <;> simp [segmentText] at same
  | cons segment rest ih =>
    cases second with
    | nil => cases segment <;> simp [segmentText] at same
    | cons other rest' =>
      obtain ⟨here, behind⟩ := List.forall_mem_cons.mp legible
      obtain ⟨here', behind'⟩ := List.forall_mem_cons.mp legible'
      rw [List.flatMap_cons, List.flatMap_cons] at same
      cases segment <;> cases other <;>
        simp only [segmentText, List.cons_append, List.nil_append, List.append_assoc,
          List.cons.injEq, Char.reduceEq, true_and, false_and] at same
      case field.field name name' =>
        obtain ⟨rfl, tails⟩ := name_unique here here' same
        rw [ih behind behind' tails]
      case index.index position position' =>
        obtain ⟨rfl, tails⟩ := index_unique same
        rw [ih behind behind' tails]
      case mapValue.mapValue => rw [ih behind behind' same]

/-! ## Paths -/

/-- A path that starts with a field lacks its first dot, and starts with a character of the name.
Any other path has all of its text, and starts like a step. -/
theorem textOf_starts {segments : List Segment} (legible : ∀ segment ∈ segments, segment.Legible) :
    (segments.flatMap segmentText = '.' :: textOf segments ∧
        ∃ c ∈ (textOf segments).head?, isStepMark c = false) ∨
      (segments.flatMap segmentText = textOf segments ∧
        ∀ c ∈ (textOf segments).head?, isStepMark c = true) := by
  match segments with
  | .field name :: rest =>
    obtain ⟨some_char, no_mark⟩ := legible _ List.mem_cons_self
    obtain ⟨c, chars, named⟩ :=
      List.exists_cons_of_ne_nil fun empty => some_char (String.toList_eq_nil_iff.mp empty)
    refine .inl ⟨rfl, c, ?_, no_mark c (named ▸ List.mem_cons_self)⟩
    rw [textOf, named]
    rfl
  | [] | .index _ :: _ | .mapValue :: _ => exact .inr ⟨rfl, fun c => stepMark_of_head⟩

/-- Paths that are written alike either both lack a first dot or both have all of their text. -/
theorem texts_eq_of_textOf_eq {first second : List Segment}
    (legible : ∀ segment ∈ first, segment.Legible) (legible' : ∀ segment ∈ second, segment.Legible)
    (same : textOf first = textOf second) :
    first.flatMap segmentText = second.flatMap segmentText := by
  rcases textOf_starts legible, textOf_starts legible' with
    ⟨⟨text, c, here, no_mark⟩ | ⟨text, marks⟩, ⟨text', c', here', no_mark'⟩ | ⟨text', marks'⟩⟩
  · rw [text, text', same]
  · rw [marks' c (same ▸ here)] at no_mark
    cases no_mark
  · rw [marks c' (same ▸ here')] at no_mark'
    cases no_mark'
  · rw [text, text', same]

/-- Paths of legible steps that are written alike are the same. -/
theorem render_injective {first second : FieldPath}
    (legible : ∀ segment ∈ first.segments, segment.Legible)
    (legible' : ∀ segment ∈ second.segments, segment.Legible)
    (same : first.render = second.render) : first = second := by
  have texts := texts_eq_of_textOf_eq legible legible' (String.ofList_injective same)
  have segments := eq_of_texts_eq legible legible' texts
  cases first
  cases second
  exact congrArg FieldPath.mk (List.reverse_injective segments)

end FieldPath

/-! ## Descents -/

/-- The names of the fields of each type are legible, and no two of them the same. -/
def Catalog.Legible (catalog : Catalog) : Prop :=
  ∀ type : catalog.TypeId, ((catalog.type type).fields.map (·.name)).Nodup ∧
    ∀ field ∈ (catalog.type type).fields, (Segment.field field.name).Legible

/-- Names that are identifiers are legible. -/
theorem Catalog.WellNamed.legible {catalog : Catalog} (named : catalog.WellNamed) :
    catalog.Legible := fun type =>
  ⟨(named type).1, fun field declared =>
    Segment.legible_of_isIdentifier ((named type).2 field declared)⟩

/-- The choices among steps that are made at maps, in their order. -/
def mapChoices (steps : List (Segment × Nat)) : List Nat :=
  (steps.filter (·.1 == .mapValue)).map (·.2)

/-- Which value of each map on the way a visit goes through. -/
def Visit.choices {size : Nat} (visit : Visit size) : List Nat :=
  mapChoices (visit.path.segments.zip visit.address)

namespace Heap

variable {catalog : Catalog} {size : Nat} {heap : Heap catalog size}

/-- The steps of an object are legible if the names of the fields are. -/
theorem legible_of_move (named : catalog.Legible) {id : Fin size} {move : Segment × Value size}
    (listed : move ∈ heap.moves id) : move.1.Legible := by
  cases holds : heap.object id with
  | record type values =>
    obtain ⟨position, field, declared, rfl⟩ := (mem_moves_record holds).mp listed
    exact (named type).2 field (List.mem_of_getElem? declared)
  | sequence items =>
    obtain ⟨position, item, -, rfl⟩ := (mem_moves_sequence holds).mp listed
    trivial
  | map values =>
    obtain ⟨value, -, rfl⟩ := (mem_moves_map holds).mp listed
    trivial

/-- An object has no two steps that are written alike, but for the values of a map. -/
theorem position_unique (named : catalog.Legible) {id : Fin size} {segment : Segment}
    {child child' : Value size} {position position' : Nat}
    (move : (heap.moves id)[position]? = some (segment, child))
    (move' : (heap.moves id)[position']? = some (segment, child'))
    (no_map : segment ≠ .mapValue) : position = position' := by
  unfold moves at move move'
  cases holds : heap.object id with
  | record type values =>
    rw [holds, List.getElem?_map, List.getElem?_zipIdx, Option.map_map,
      Option.map_eq_some_iff] at move move'
    obtain ⟨field, declared, same⟩ := move
    obtain ⟨field', declared', same'⟩ := move'
    have names : field.name = field'.name :=
      Segment.field.inj ((congrArg Prod.fst same).trans (congrArg Prod.fst same').symm)
    obtain ⟨inside, -⟩ := List.getElem?_eq_some_iff.mp declared
    refine (List.getElem?_inj (by simpa using inside) (named type).1).mp ?_
    rw [List.getElem?_map, List.getElem?_map, show _ = some field from declared,
      show _ = some field' from declared', Option.map_some, Option.map_some, names]
  | sequence items =>
    rw [holds, List.getElem?_map, List.getElem?_zipIdx, Option.map_map,
      Option.map_eq_some_iff] at move move'
    obtain ⟨item, -, same⟩ := move
    obtain ⟨item', -, same'⟩ := move'
    simpa using (congrArg Prod.fst same).trans (congrArg Prod.fst same').symm
  | map values =>
    rw [holds, List.getElem?_map, Option.map_eq_some_iff] at move
    obtain ⟨value, -, same⟩ := move
    exact absurd (congrArg Prod.fst same).symm no_map

/-- From a value to another one by steps, each with its position among those of its object. -/
inductive Descends (heap : Heap catalog size) :
    Value size → List (Segment × Nat) → Value size → Prop where
  | here (value : Value size) : Descends heap value [] value
  | step {id : Fin size} {segment : Segment} {child last : Value size} {position : Nat}
      {steps : List (Segment × Nat)}
      (move : (heap.moves id)[position]? = some (segment, child))
      (onward : Descends heap child steps last) :
      Descends heap (.object id) ((segment, position) :: steps) last

/-- A trail goes on by steps, which make up its path and its address. -/
theorem Leads.descends {first last : Trail size} {value arrived : Value size}
    (leads : heap.Leads first value last arrived) :
    ∃ steps, last.path.segments = first.path.segments ++ steps.map (·.1) ∧
      last.address = first.address ++ steps.map (·.2) ∧ heap.Descends value steps arrived := by
  induction leads with
  | refl trail value => exact ⟨[], by simp, by simp, .here value⟩
  | @step trail last id position segment child value _ move _ ih =>
    obtain ⟨steps, path, address, descends⟩ := ih
    refine ⟨(segment, position) :: steps, ?_, ?_,
      .step (List.mem_zipIdx_iff_getElem?.mp move) descends⟩
    · simp [path, Trail.down, FieldPath.segments_push]
    · simp [address, Trail.down]

/-- The steps of a descent and the choices at its maps say where it goes. -/
theorem Descends.unique (named : catalog.Legible) {value last last' : Value size}
    {steps steps' : List (Segment × Nat)} (descends : heap.Descends value steps last)
    (descends' : heap.Descends value steps' last') (same : steps.map (·.1) = steps'.map (·.1))
    (choices : mapChoices steps = mapChoices steps') : steps = steps' ∧ last = last' := by
  induction descends generalizing steps' with
  | here value =>
    cases descends' with
    | here => exact ⟨rfl, rfl⟩
    | step => cases same
  | @step id segment child last position steps move onward ih =>
    cases descends' with
    | here => cases same
    | @step _ _ child' _ position' steps' move' onward' =>
      obtain ⟨rfl, behind⟩ := List.cons.inj same
      have here : position = position' ∧ mapChoices steps = mapChoices steps' := by
        cases segment with
        | mapValue => exact List.cons.inj choices
        | field name => exact ⟨position_unique named move move' nofun, choices⟩
        | index place => exact ⟨position_unique named move move' nofun, choices⟩
      obtain ⟨rfl, later⟩ := here
      cases move.symm.trans move'
      obtain ⟨rfl, rfl⟩ := ih onward' behind later
      exact ⟨rfl, rfl⟩

/-- The steps of a descent are legible. -/
theorem Descends.legible (named : catalog.Legible) {value last : Value size}
    {steps : List (Segment × Nat)} (descends : heap.Descends value steps last) :
    ∀ segment ∈ steps.map (·.1), segment.Legible := by
  induction descends with
  | here value => simp
  | step move _ ih =>
    exact List.forall_mem_cons.mpr ⟨legible_of_move named (List.mem_of_getElem? move), ih⟩

section Visits

variable {root : Value size} {visit first second : Visit size}

/-- A visit is behind a descent to its record. -/
theorem Visits.descends (visits : heap.Visits .start root visit) :
    ∃ steps name child, heap.Descends root steps (.object visit.record) ∧
      (heap.moves visit.record)[visit.position]? = some (.field name, child) ∧
      visit.path.segments = steps.map (·.1) ++ [.field name] ∧
      visit.address = steps.map (·.2) ++ [visit.position] := by
  obtain ⟨trail, name, child, leads, -, move, address, path⟩ := visits
  obtain ⟨steps, at_end, below, descends⟩ := leads.descends
  refine ⟨steps, name, child, descends, List.mem_zipIdx_iff_getElem?.mp move, ?_, ?_⟩
  · rw [path, FieldPath.segments_push, at_end]
    rfl
  · rw [address, below]
    rfl

theorem Visits.legible (named : catalog.Legible) (visits : heap.Visits .start root visit) :
    ∀ segment ∈ visit.path.segments, segment.Legible := by
  obtain ⟨steps, name, child, descends, move, path, -⟩ := visits.descends
  rw [path]
  refine List.forall_mem_append.mpr ⟨descends.legible named, ?_⟩
  simpa using legible_of_move named (List.mem_of_getElem? move)

/-- The last step of a visit is to a field, so its choices are those of the descent to its record. -/
theorem choices_eq {steps : List (Segment × Nat)} {name : String}
    (path : visit.path.segments = steps.map (·.1) ++ [.field name])
    (address : visit.address = steps.map (·.2) ++ [visit.position]) :
    visit.choices = mapChoices steps := by
  have steps_eq : visit.path.segments.zip visit.address =
      steps ++ [(.field name, visit.position)] := by
    rw [path, address, List.zip_append (by simp), List.zip_map']
    simp
  rw [Visit.choices, steps_eq, mapChoices, List.filter_append, List.map_append]
  exact List.append_nil _

/-- Visits below one root with one path and the same choices at maps are the same. -/
theorem Visits.eq_of_path_eq (named : catalog.Legible) (visits : heap.Visits .start root first)
    (visits' : heap.Visits .start root second) (paths : first.path = second.path)
    (choices : first.choices = second.choices) : first = second := by
  obtain ⟨steps, name, child, descends, move, path, address⟩ := visits.descends
  obtain ⟨steps', name', child', descends', move', path', address'⟩ := visits'.descends
  have segments : steps.map (·.1) ++ [.field name] = steps'.map (·.1) ++ [.field name'] := by
    rw [← path, ← path', paths]
  obtain ⟨onward, last⟩ := List.append_inj' segments rfl
  cases last
  rw [choices_eq path address, choices_eq path' address'] at choices
  obtain ⟨onward', arrived⟩ := descends.unique named descends' onward choices
  have records : first.record = second.record := Value.object.inj arrived
  rw [← records] at move'
  have positions := position_unique named move move' nofun
  have addresses : first.address = second.address := by rw [address, address', onward', positions]
  cases first
  cases second
  cases paths
  cases records
  cases positions
  cases addresses
  rfl

end Visits

/-- **The text of a path says which descent it is, up to the values of maps.**  Paths whose fields
have names with characters, none of them a dot, an opening bracket or an opening brace, are the same
if they are written alike.  So where the names of each type are such, and distinct, two visits below
a root whose paths are written alike, and that choose the same value at each map on the way, are the
same visit. -/
theorem path_text_determines_descent :
    (∀ first second : FieldPath, (∀ segment ∈ first.segments, segment.Legible) →
      (∀ segment ∈ second.segments, segment.Legible) → first.render = second.render →
        first = second) ∧
    ∀ (catalog : Catalog) (size : Nat) (heap : Heap catalog size) (root : Value size),
      catalog.Legible → ∀ first ∈ heap.visits root, ∀ second ∈ heap.visits root,
        first.path.render = second.path.render → first.choices = second.choices →
          first = second := by
  refine ⟨fun first second => FieldPath.render_injective, ?_⟩
  intro catalog size heap root named first visited second visited' same choices
  have visits := (heap.mem_visits_iff root first).mp visited
  have visits' := (heap.mem_visits_iff root second).mp visited'
  have paths := FieldPath.render_injective (visits.legible named) (visits'.legible named) same
  exact visits.eq_of_path_eq named visits' paths choices

def stockType : Fin 2 := ⟨0, Nat.zero_lt_two⟩

def binType : Fin 2 := ⟨1, Nat.one_lt_two⟩

def stockCatalog : Catalog :=
  ⟨2, #v[⟨"Stock", "Stock", [⟨"Bins", [], some binType⟩]⟩,
    ⟨"Bin", "Bin", [⟨"Code", [], none⟩, ⟨"Count", [], none⟩]⟩]⟩

def stock : Heap stockCatalog 5 :=
  ⟨#v[.record stockType [.object 1], .map [.object 2, .object 3, .object 4],
    .record binType [.str "a", .int 1], .record binType [.str "b", .int 2],
    .record binType [.str "c", .int 2]]⟩

/-- All counts have one path, and the choice at the map tells them apart. -/
theorem path_text_determines_descent_stock :
    (∀ path : FieldPath, (∀ segment ∈ path.segments, segment.Legible) →
      path.render = "M\x7b\x7d[2][10].x" →
        path = ⟨[.field "x", .index 10, .index 2, .mapValue, .field "M"]⟩) ∧
    ∃ visit ∈ stock.visits (.object 0), visit.record = 3 ∧ visit.choices = [1] ∧
      ∀ other ∈ stock.visits (.object 0), other.path.render = "Bins\x7b\x7d.Count" →
        other.choices = [1] → other = visit := by
  have named : stockCatalog.WellNamed := by
    show ∀ type : Fin 2, _
    unfold stockCatalog
    decide +kernel
  have visited : stock.Visits .start (.object 0)
      ⟨[0, 1, 1], ⟨[.field "Count", .mapValue, .field "Bins"]⟩, 3, 1⟩ :=
    ⟨_, "Count", .int 2, .step (by decide) (by decide : ((.field "Bins", .object 1), 0) ∈ _)
      (.step (by decide) (by decide : ((.mapValue, .object 3), 1) ∈ _) (.refl _ _)),
      by decide, by decide, rfl, rfl⟩
  let items : FieldPath := ⟨[.field "x", .index 10, .index 2, .mapValue, .field "M"]⟩
  have items_legible : ∀ segment ∈ items.segments, segment.Legible := by decide +kernel
  refine ⟨fun path legible text =>
      path_text_determines_descent.1 path items legible items_legible text,
    _, (stock.mem_visits_iff _ _).mpr visited, rfl, rfl, fun other listed text choices => ?_⟩
  exact path_text_determines_descent.2 stockCatalog 5 stock (.object 0) named.legible other listed _
    ((stock.mem_visits_iff _ _).mpr visited) text choices

end Heap

end Proviso
