/- # Proviso.Proofs.Derive.Alignment -- list and access of a derived view

The list of the fields that a derived implementation shows and the access to them by position are
made from the same fields: those that are not hidden, in the order of the declaration
(`Declaration.shown`).  Each keeps the place that it has in the declaration, so that what stands at
a position of the list is what is reached by that position, whatever was hidden before it
(`derive_aligned`).  The entry of a field in the list and the access to it are given piece by piece,
from its declaration (`DeclaredField.entry`, `DeclaredField.arm`). -/
import Proviso.Proofs.Derive.Entries
import Proviso.Proofs.Derive.Pieces

namespace Proviso.Derive

set_option autoImplicit false

/-! ## The view of a field -/

namespace DeclaredField

def hidden (field : DeclaredField) : Bool :=
  (writtenUnder "inspect" field.attributes).contains [.word "skip"]

/-- How the field at a place of a declaration is reached. -/
def member (position : Nat) (field : DeclaredField) : Member :=
  match field.name with
  | some name => .named name
  | none => .position position

/-- What the field is called: by the last of its new names, or else by its own name or place. -/
def title (position : Nat) (field : DeclaredField) : String :=
  ((writtenUnder "inspect" field.attributes).filterMap renameOf?).getLast?.getD
    (match field.name with
      | some name =>
        if ['r', '#'].isPrefixOf name.toList then String.ofList (name.toList.drop 2) else name
      | none => toString position)

def tags (field : DeclaredField) : List TagEntry :=
  (writtenUnder "tag" field.attributes).filterMap tagOf?

def view (position : Nat) (field : DeclaredField) : ShownField :=
  ⟨field.member position, field.title position, field.type, field.tags⟩

/-- Each entry that counts has one of its forms; the tags of a hidden field do not count. -/
def Understood (field : DeclaredField) : Prop :=
  (∀ tokens ∈ writtenUnder "inspect" field.attributes, IsOption tokens) ∧
    (field.hidden = false →
      ∀ tokens ∈ writtenUnder "tag" field.attributes, (tagOf? tokens).isSome)

end DeclaredField

theorem plainName_eq (name : String) :
    plainName name =
      if ['r', '#'].isPrefixOf name.toList then String.ofList (name.toList.drop 2) else name := by
  unfold plainName
  split
  · rename_i raw
    rw [raw]
    rfl
  · rename_i not_raw
    refine (if_neg fun raw => ?_).symm
    obtain ⟨rest, raw⟩ := List.isPrefixOf_iff_prefix.mp raw
    exact not_raw rest raw.symm

theorem memberOf_eq (position : Nat) (field : DeclaredField) :
    memberOf position field = (field.member position, match field.name with
      | some name => plainName name
      | none => toString position) := by
  unfold memberOf DeclaredField.member
  cases field.name <;> rfl

/-- Items that are read one by one are what can be read. -/
theorem filterMap_eq_of_map_eq {α β : Type} {read : α → Option β} {items : List α}
    {results : List β} (all : items.map read = results.map some) :
    items.filterMap read = results ∧ ∀ item ∈ items, (read item).isSome := by
  constructor
  · calc items.filterMap read
      _ = (items.map read).filterMap id := by rw [List.filterMap_map]; rfl
      _ = (results.map some).filterMap id := by rw [all]
      _ = results := by rw [List.filterMap_map]; exact List.filterMap_some
  · intro item listed
    have read_listed : read item ∈ results.map some := all ▸ List.mem_map_of_mem listed
    obtain ⟨result, -, same⟩ := List.mem_map.mp read_listed
    rw [← same]
    rfl

/-- A field is read as its view, or as nothing if it is hidden. -/
theorem ofDeclared?_eq_ok {position : Nat} {field : DeclaredField} {shown : Option ShownField}
    (read : ShownField.ofDeclared? position field = .ok shown) :
    field.Understood ∧ shown = if field.hidden then none else some (field.view position) := by
  unfold ShownField.ofDeclared? at read
  obtain ⟨options, read_options, read⟩ := exists_of_bind_eq_ok read
  obtain ⟨understood, rfl⟩ := optionsOf_eq_ok read_options
  have skip_eq : (FieldOptions.after ⟨false, none⟩
      (writtenUnder "inspect" field.attributes)).skip = field.hidden := rfl
  rw [skip_eq] at read
  cases hides : field.hidden with
  | true =>
    rw [hides] at read
    cases read
    exact ⟨⟨understood, fun shows => absurd (hides.symm.trans shows) Bool.noConfusion⟩, rfl⟩
  | false =>
    rw [hides, memberOf_eq] at read
    obtain ⟨tags, read_tags, read⟩ := exists_of_bind_eq_ok read
    cases read
    obtain ⟨tags_eq, all_tags⟩ := filterMap_eq_of_map_eq (tagsOf_eq_ok read_tags)
    refine ⟨⟨understood, fun _ => all_tags⟩, congrArg some ?_⟩
    rw [DeclaredField.view, DeclaredField.title, DeclaredField.tags, tags_eq]
    simp only [FieldOptions.after, Option.or_none, plainName_eq]

/-! ## The fields that are shown -/

/-- The fields from a place on that are not hidden, each with its place. -/
def shownFrom (position : Nat) (fields : List DeclaredField) : List (DeclaredField × Nat) :=
  (fields.zipIdx position).filter fun field => !field.1.hidden

/-- The fields of a declaration that are not hidden, each with its place. -/
def Declaration.shown (declaration : Declaration) : List (DeclaredField × Nat) :=
  shownFrom 0 declaration.fields

/-- The views of the fields that are shown, in the order of the declaration. -/
def Declaration.views (declaration : Declaration) : List ShownField :=
  declaration.shown.map fun field => field.1.view field.2

theorem shownFields_eq_ok {position : Nat} {fields : List DeclaredField} {views : List ShownField}
    (read : shownFields position fields = .ok views) :
    (∀ field ∈ fields, field.Understood) ∧
      views = (shownFrom position fields).map fun field => field.1.view field.2 := by
  induction fields generalizing position views with
  | nil =>
    cases read
    exact ⟨nofun, rfl⟩
  | cons field rest ih =>
    rw [shownFields] at read
    obtain ⟨shown, read_field, read⟩ := exists_of_bind_eq_ok read
    obtain ⟨others, read_rest, read⟩ := exists_of_bind_eq_ok read
    cases read
    obtain ⟨understood, rfl⟩ := ofDeclared?_eq_ok read_field
    obtain ⟨all_understood, rfl⟩ := ih read_rest
    refine ⟨List.forall_mem_cons.mpr ⟨understood, all_understood⟩, ?_⟩
    unfold shownFrom
    rw [List.zipIdx_cons, List.filter_cons]
    cases field.hidden <;> rfl

theorem derive_eq_ok {declaration : Declaration} {impl : Implementation}
    (derives : derive declaration = .ok impl) :
    (∀ field ∈ declaration.fields, field.Understood) ∧
      impl = ⟨declaration.name, declaration.params, declaration.bounds, declaration.views⟩ := by
  unfold derive at derives
  split at derives
  · cases derives
  · cases derives
  · obtain ⟨views, read, derives⟩ := exists_of_bind_eq_ok derives
    obtain ⟨understood, rfl⟩ := shownFields_eq_ok read
    split at derives
    · cases derives
    · cases derives
      exact ⟨understood, rfl⟩

/-- The fields that are shown are those that are not hidden, in the order of the declaration. -/
theorem Declaration.shown_fields (declaration : Declaration) :
    declaration.shown.map (·.1) = declaration.fields.filter (!·.hidden) := by
  have all : (declaration.fields.zipIdx 0).map (·.1) = declaration.fields :=
    List.zipIdx_map_fst 0 declaration.fields
  calc declaration.shown.map (·.1)
    _ = ((declaration.fields.zipIdx 0).map (·.1)).filter (!·.hidden) := by
      rw [List.filter_map]
      rfl
    _ = declaration.fields.filter (!·.hidden) := by rw [all]

/-- A field that is shown comes with its place in the declaration. -/
theorem Declaration.place_of_shown {declaration : Declaration} {field : DeclaredField}
    {place : Nat} (shown : (field, place) ∈ declaration.shown) :
    declaration.fields[place]? = some field :=
  List.mk_mem_zipIdx_iff_getElem?.mp (List.mem_filter.mp shown).1

/-! ## The text of the implementation -/

/-- The entry in the list for the field at a place of a declaration. -/
def DeclaredField.entry (place : Nat) (field : DeclaredField) : List String :=
  [": : fieldcheck_core : : FieldDescriptor : : new (",
      (Token.ofText (field.title place)).written, ", & ["] ++
    [","].intercalate (field.tags.map fun entry =>
      ["(", (Token.ofText entry.tag).written, ",", entry.rule.written, ")"]) ++
    ["] , <"] ++ field.type.map Token.written ++
    ["as", ": : fieldcheck_core : : Inspect", "> : : record_descriptor , )"]

/-- The access by a position of the list to the field at a place of a declaration. -/
def DeclaredField.arm (position place : Nat) (field : DeclaredField) : List String :=
  [toString position ++ "usize", "= >", ": : fieldcheck_core : : Inspect",
    ": : inspect ( & self .", field.name.getD (toString place), ") ,"]

/-- The list of the fields that are shown. -/
def Declaration.list (declaration : Declaration) : List String :=
  [": : fieldcheck_core : : TypeDescriptor : : new : : < Self > (",
      (Token.ofText declaration.name).written, ", : : std : : vec ! ["] ++
    [","].intercalate (declaration.shown.map fun field => field.1.entry field.2) ++ ["] , )"]

/-- The access to the fields that are shown, by their positions in the list. -/
def Declaration.arms (declaration : Declaration) : List String :=
  (declaration.shown.mapIdx fun position field => field.1.arm position field.2).flatten

namespace Implementation

theorem fieldText_view (place : Nat) (field : DeclaredField) :
    fieldText (field.view place) = spaced (field.entry place) := by
  have tags_eq : commaJoined (field.tags.map tagText) =
      spaced ([","].intercalate (field.tags.map fun entry =>
        ["(", (Token.ofText entry.tag).written, ",", entry.rule.written, ")"])) := by
    rw [← commaJoined_spaced, List.map_map]
    · rfl
    · simp only [List.forall_mem_map]
      exact fun _ _ => spaced_ne_empty (by decide) _
  simp only [fieldText, DeclaredField.view, tags_eq, Token.writeAll, inspectPath,
    DeclaredField.entry, spaced_append, spaced_cons, spaced_nil, glued_assoc, glued_empty_left]

theorem armText_view (position place : Nat) (field : DeclaredField) :
    armText position (field.view place) = spaced (field.arm position place) := by
  have member_eq : memberText (field.member place) = field.name.getD (toString place) := by
    unfold DeclaredField.member
    cases field.name <;> rfl
  rw [armText, DeclaredField.view, member_eq]
  rfl

/-- Access to each field has the field's position in the list. -/
theorem armTexts_eq (index : Nat) (fields : List ShownField) :
    armTexts index fields = fields.mapIdx fun i field => armText (index + i) field := by
  induction fields generalizing index with
  | nil => rfl
  | cons field rest ih =>
    rw [armTexts, ih, List.mapIdx_cons]
    simp only [Nat.add_zero, Nat.add_assoc, Nat.add_comm 1]

theorem spaced_armTexts (declaration : Declaration) :
    spaced (armTexts 0 declaration.views) = spaced declaration.arms := by
  have arms_eq : armTexts 0 declaration.views =
      (declaration.shown.mapIdx fun position field => field.1.arm position field.2).map spaced := by
    rw [armTexts_eq, Declaration.views, List.mapIdx_eq_zipIdx_map, List.mapIdx_eq_zipIdx_map]
    simp only [Nat.zero_add, List.zipIdx_map, List.map_map, Function.comp_def, Prod.map, id,
      armText_view]
  rw [arms_eq, spaced_map_spaced]
  rfl

theorem descriptorText_eq {declaration : Declaration} {impl : Implementation}
    (own_name : impl.name = declaration.name) (own_views : impl.fields = declaration.views) :
    descriptorText impl = spaced declaration.list := by
  have entries_eq : commaJoined (declaration.views.map fieldText) =
      spaced ([","].intercalate (declaration.shown.map fun field => field.1.entry field.2)) := by
    rw [← commaJoined_spaced, Declaration.views, List.map_map, List.map_map]
    · simp only [Function.comp_def, fieldText_view]
    · simp only [List.forall_mem_map]
      exact fun _ _ => spaced_ne_empty (by decide) _
  simp only [descriptorText, own_name, own_views, entries_eq, Declaration.list, spaced_append,
    spaced_cons, spaced_nil, glued_assoc, glued_empty_left]

end Implementation

open Implementation

/-- **List and access are aligned.**  Where an implementation is derived at all, the same list of
fields stands in both of its interfaces, and access by position has one arm for each entry of the
list, in its order, and then one for all other positions.  Entry and arm of a position are those of
the same field: the fields are the declared ones that are not hidden, in their order, each with its
own place in the declaration; and all that is written in the attributes that count has one of its
forms, so the tags of a field are all there. -/
theorem derive_aligned {declaration : Declaration} {impl : Implementation}
    (derives : derive declaration = .ok impl) :
    (∃ params names bounds : String, impl.text = " ".intercalate (List.filter (!·.isEmpty)
      (["impl", params, ": : fieldcheck_core : : Inspect", "for", declaration.name, names, bounds,
        "\x7b", "fn inspect ( & self ) - > : : fieldcheck_core : : Value < ' _ >",
        "\x7b", ": : fieldcheck_core : : Value : : Record ( self )", "\x7d",
        "fn record_descriptor ( ) - > : : core : : option : : Option <",
        ": : fieldcheck_core : : TypeDescriptor >",
        "\x7b", ": : core : : option : : Option : : Some ("] ++ declaration.list ++
      [")", "\x7d", "\x7d",
        "impl", params, ": : fieldcheck_core : : Record", "for", declaration.name, names, bounds,
        "\x7b", "fn type_key ( & self ) - > : : core : : any : : TypeId",
        "\x7b", ": : core : : any : : TypeId : : of : : < Self > ( )", "\x7d",
        "fn descriptor ( & self ) - > : : fieldcheck_core : : TypeDescriptor",
        "\x7b"] ++ declaration.list ++
      ["\x7d", "fn field ( & self , index : usize ) - > : : fieldcheck_core : : Value < ' _ >",
        "\x7b", "match index", "\x7b"] ++ declaration.arms ++
      ["_ = > : : fieldcheck_core : : Value : : Nil ,", "\x7d", "\x7d", "\x7d"]))) ∧
      declaration.shown.map (·.1) = declaration.fields.filter (!·.hidden) ∧
      (∀ field place, (field, place) ∈ declaration.shown →
        declaration.fields[place]? = some field) ∧
      ∀ field ∈ declaration.fields, field.Understood := by
  obtain ⟨understood, impl_eq⟩ := derive_eq_ok derives
  have own_name : impl.name = declaration.name := by rw [impl_eq]
  have own_views : impl.fields = declaration.views := by rw [impl_eq]
  refine ⟨⟨impl.implParams, impl.typeParams, impl.whereClause, ?_⟩, declaration.shown_fields,
    fun _ _ => Declaration.place_of_shown, understood⟩
  -- both texts are taken apart into the same pieces
  show impl.text = spaced _
  simp only [Implementation.text, inspectText, recordText, block, inspectPath, own_name, own_views,
    descriptorText_eq own_name own_views, spaced_append, spaced_armTexts, spaced_cons, spaced_nil,
    List.cons_append, List.nil_append, glued_assoc, glued_empty_right]

/-- A tuple whose first field is hidden; the second one is renamed twice and has tags in two
attributes. -/
def hiddenFirst : Declaration where
  keyword := .struct
  name := "Sample"
  params := []
  bounds := []
  fields :=
    let text (value : String) : List Token := [.char '=' false, .ofText value]
    [⟨none, [.word "Opaque"], [⟨"inspect", .list .parenthesis [.word "skip"]⟩]⟩,
      ⟨none, [.word "i64"],
        [⟨"tag", .list .parenthesis (.word "vd" :: text "$>0")⟩,
          ⟨"inspect", .list .parenthesis (.word "rename" :: text "Count")⟩,
          ⟨"tag", .list .parenthesis (.word "check" :: text "$<9")⟩,
          ⟨"inspect", .list .parenthesis (.word "rename" :: text "Total")⟩]⟩,
      ⟨none, [.word "String"], []⟩]

/-- Behind a hidden field, the others keep their places in the tuple. -/
theorem derive_aligned_behind_hidden :
    ∃ impl, derive hiddenFirst = .ok impl ∧
      hiddenFirst.list =
        [": : fieldcheck_core : : TypeDescriptor : : new : : < Self > (", "\"Sample\"",
          ", : : std : : vec ! [",
          ": : fieldcheck_core : : FieldDescriptor : : new (", "\"Total\"", ", & [",
          "(", "\"vd\"", ",", "\"$>0\"", ")", ",", "(", "\"check\"", ",", "\"$<9\"", ")",
          "] , <", "i64", "as", ": : fieldcheck_core : : Inspect", "> : : record_descriptor , )",
          ",",
          ": : fieldcheck_core : : FieldDescriptor : : new (", "\"2\"", ", & [",
          "] , <", "String", "as", ": : fieldcheck_core : : Inspect", "> : : record_descriptor , )",
          "] , )"] ∧
      hiddenFirst.arms =
        ["0usize", "= >", ": : fieldcheck_core : : Inspect", ": : inspect ( & self .", "1", ") ,",
          "1usize", "= >", ": : fieldcheck_core : : Inspect", ": : inspect ( & self .", "2", ") ,"] ∧
      hiddenFirst.shown.map (·.2) = [1, 2] ∧
      ∀ field ∈ hiddenFirst.fields, field.Understood := by
  refine ⟨⟨"Sample", [], [], hiddenFirst.views⟩, rfl, ?_, ?_, rfl, ?_⟩
  · decide +kernel
  · decide +kernel
  · exact (derive_aligned rfl).2.2.2

end Proviso.Derive
