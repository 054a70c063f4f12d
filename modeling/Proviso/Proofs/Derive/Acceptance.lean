/- # Proviso.Proofs.Derive.Acceptance -- which declarations are derived

A declaration is read part by part: that it is a struct, then field by field the attributes that
count, each of them before its entries, and last its parameters (`Declaration.parts`).  Whether a
part is as it should be is told by its form alone (`Part.Sound`), and reading goes on from one part
to the next just where it is (`derive_judges`).  The tags of a hidden field are no parts, but its
options are all of them, those behind the one that hides it, too. -/
import Proviso.Proofs.Derive.Alignment

namespace Proviso.Derive

set_option autoImplicit false

/-! ## Lists in attributes -/

/-- Tokens that are entries of a form with commas between, of which one may stand at the end. -/
inductive Listing (form : List Token → Prop) : List Token → Prop
  | empty : Listing form []
  | single {entry : List Token} (formed : form entry) : Listing form entry
  | more {entry rest : List Token} (joined : Bool) (formed : form entry)
      (others : Listing form rest) : Listing form (entry ++ .char ',' joined :: rest)

def Uncut (tokens : List Token) : Prop := ∀ token ∈ tokens, token.isChar ',' = false

/-- Tokens up to a comma, if there is one. -/
theorem uncut_or_cut (tokens : List Token) : Uncut tokens ∨ ∃ entry joined rest,
    tokens = entry ++ .char ',' joined :: rest ∧ Uncut entry := by
  induction tokens with
  | nil => exact .inl nofun
  | cons token tokens ih =>
    cases is_comma : token.isChar ',' with
    | true =>
      obtain ⟨joined, rfl⟩ : ∃ joined, token = .char ',' joined := by
        cases token with
        | char c joined =>
          obtain rfl : ',' = c := of_decide_eq_true is_comma
          exact ⟨joined, rfl⟩
        | word => cases is_comma
        | literal => cases is_comma
      exact .inr ⟨[], joined, tokens, rfl, nofun⟩
    | false =>
      rcases ih with uncut | ⟨entry, joined, rest, rfl, uncut⟩
      · exact .inl (List.forall_mem_cons.mpr ⟨is_comma, uncut⟩)
      · exact .inr ⟨token :: entry, joined, rest, rfl, List.forall_mem_cons.mpr ⟨is_comma, uncut⟩⟩

theorem entriesOf_uncut {tokens : List Token} (uncut : Uncut tokens) (some_token : tokens ≠ []) :
    entriesOf tokens = [⟨tokens, true⟩] := by
  unfold entriesOf
  rw [List.splitOnP_eq_singleton uncut]
  cases tokens with
  | nil => exact absurd rfl some_token
  | cons => rfl

theorem entriesOf_cut {entry : List Token} (uncut : Uncut entry) (joined : Bool)
    (rest : List Token) :
    entriesOf (entry ++ .char ',' joined :: rest) = ⟨entry, false⟩ :: entriesOf rest := by
  unfold entriesOf
  rw [List.splitOnP_append_cons_of_forall_mem uncut _ rfl]
  have some_part : rest.splitOnP (·.isChar ',') ≠ [] := List.splitOnP_ne_nil _ _
  generalize rest.splitOnP (·.isChar ',') = parts at some_part
  cases parts with
  | nil => exact absurd rfl some_part
  | cons part parts =>
    have last_part : (entry :: part :: parts).getLastD [] = (part :: parts).getLastD [] := by
      rw [List.getLastD_cons, List.getLastD_cons, List.getLastD_cons]
    dsimp only
    rw [last_part, List.dropLast_cons_cons, List.map_cons]
    split <;> rfl

/-- A form of entries that commas keep apart. -/
structure Separable (form : List Token → Prop) : Prop where
  uncut : ∀ {entry}, form entry → Uncut entry
  nonempty : ¬form []

/-- Tokens are a listing where each entry that they are split into has the form. -/
theorem listing_iff {form : List Token → Prop} (separable : Separable form) (tokens : List Token) :
    Listing form tokens ↔ ∀ entry ∈ entriesOf tokens, form entry.tokens := by
  constructor
  · intro listing
    induction listing with
    | empty => exact nofun
    | @single entry formed =>
      have some_token : entry ≠ [] := fun same => separable.nonempty (same ▸ formed)
      rw [entriesOf_uncut (separable.uncut formed) some_token]
      exact List.forall_mem_cons.mpr ⟨formed, nofun⟩
    | more joined formed others ih =>
      rw [entriesOf_cut (separable.uncut formed)]
      exact List.forall_mem_cons.mpr ⟨formed, ih⟩
  · intro formed
    -- what is left behind a comma is no part of the list as it was built, but it is shorter
    induction length : tokens.length using Nat.strongRecOn generalizing tokens with
    | ind length' ih =>
      rcases uncut_or_cut tokens with uncut | ⟨entry, joined, rest, rfl, uncut⟩
      · cases tokens with
        | nil => exact .empty
        | cons token tokens =>
          rw [entriesOf_uncut uncut (List.cons_ne_nil _ _)] at formed
          exact .single (formed _ List.mem_cons_self)
      · rw [entriesOf_cut uncut] at formed
        obtain ⟨first, others⟩ := List.forall_mem_cons.mp formed
        refine .more joined first (ih rest.length ?_ rest others rfl)
        simp only [List.length_append, List.length_cons] at length
        omega

/-! ## Parts -/

def IsTag (tokens : List Token) : Prop := (tagOf? tokens).isSome

/-- What may be wrong with a declaration. -/
inductive Part where
  | keyword (word : Keyword)
  /-- What stands behind the name of an attribute. -/
  | args (attr : Attribute)
  /-- An entry of `inspect`. -/
  | option (entry : Entry)
  /-- An entry of `tag`. -/
  | tag (entry : Entry)
  | param (declared : Param)

namespace Part

/-- Whether the part has one of the forms that it may have. -/
def Sound : Part → Prop
  | .keyword word => word = .struct
  | .args attr => ∃ delimiter tokens, attr.args = .list delimiter tokens
  | .option entry => IsOption entry.tokens
  | .tag entry => IsTag entry.tokens
  | .param declared => declared.kind ≠ .lifetime

def check : Part → Except DeriveError Unit
  | .keyword .struct => .ok ()
  | .keyword _ => .error .notAStruct
  | .args attr => attr.entries.map fun _ => ()
  | .option entry => (FieldOptions.add ⟨false, none⟩ entry).map fun _ => ()
  | .tag entry => (TagEntry.ofEntry entry).map fun _ => ()
  | .param declared => if declared.kind == .lifetime then .error .lifetimeParameter else .ok ()

end Part

/-- The entries of an attribute, none if it has no list of them. -/
def Attribute.listed (attr : Attribute) : List Entry :=
  match attr.args with
  | .list _ tokens => entriesOf tokens
  | .none | .value => []

/-- The parts of an attribute, whose entries are to be read in some way. -/
def Attribute.parts (entryPart : Entry → Part) (attr : Attribute) : List Part :=
  .args attr :: attr.listed.map entryPart

def partsUnder (name : String) (entryPart : Entry → Part) (attributes : List Attribute) :
    List Part :=
  (attributes.filter (·.name == name)).flatMap (Attribute.parts entryPart)

/-- The parts of a field, its options before its tags.  Those of a hidden field are only options. -/
def DeclaredField.parts (field : DeclaredField) : List Part :=
  partsUnder "inspect" .option field.attributes ++
    if field.hidden then [] else partsUnder "tag" .tag field.attributes

/-- The parts of a declaration, in the order in which they are read. -/
def Declaration.parts (declaration : Declaration) : List Part :=
  .keyword declaration.keyword ::
    (declaration.fields.flatMap DeclaredField.parts ++ declaration.params.map .param)

/-! ## Reading a part -/

theorem exists_of_renameOf? {tokens : List Token} (renames : (renameOf? tokens).isSome) :
    ∃ joined written text,
      tokens = [.word "rename", .char '=' joined, .literal written (some text)] := by
  unfold renameOf? at renames
  split at renames
  · exact ⟨_, _, _, rfl⟩
  · cases renames

theorem exists_of_tagOf? {tokens : List Token} (is_tag : IsTag tokens) :
    ∃ tag joined written text,
      tokens = [.word tag, .char '=' joined, .literal written (some text)] := by
  unfold IsTag tagOf? at is_tag
  split at is_tag
  · exact ⟨_, _, _, _, rfl⟩
  · cases is_tag

theorem FieldOptions.exists_add_iff (options : FieldOptions) (entry : Entry) :
    (∃ after, options.add entry = .ok after) ↔ IsOption entry.tokens := by
  constructor
  · rintro ⟨after, added⟩
    exact (add_eq_ok added).1
  · obtain ⟨tokens, last⟩ := entry
    rintro (rfl | renames)
    · exact ⟨_, rfl⟩
    · obtain ⟨joined, written, text, rfl⟩ := exists_of_renameOf? renames
      exact ⟨_, rfl⟩

/-- What is returned in the end does not matter to an error. -/
theorem eq_error_of_andReturn {ε α β γ : Type} {answer : Except ε α} {make : α → β} {error : ε}
    (other : α → γ) (failed : (answer >>= fun value => pure (make value)) = .error error) :
    (answer >>= fun value => pure (other value)) = .error error := by
  cases answer with
  | error => cases failed; rfl
  | ok => cases failed

/-- Whether an entry is wrong, and how, has nothing to do with the options before it. -/
theorem FieldOptions.add_eq_error {options : FieldOptions} {entry : Entry} {error : DeriveError}
    (others : FieldOptions) (failed : options.add entry = .error error) :
    others.add entry = .error error := by
  unfold add at failed ⊢
  cases read : entry.readName with
  | error =>
    rw [read] at failed
    exact failed
  | ok named =>
    -- both go on with the same tokens, and differ only in what they return at the end
    rw [read] at failed
    change Except.bind (.ok named) _ = _ at failed
    show Except.bind (.ok named) _ = _
    simp only [Except.bind] at failed ⊢
    split at failed
    · exact eq_error_of_andReturn _ failed
    · cases read_text : readText entry.last named.2 with
      | error =>
        rw [read_text] at failed
        exact failed
      | ok text =>
        rw [read_text] at failed
        exact eq_error_of_andReturn _ failed
    · exact failed

theorem TagEntry.exists_ofEntry_iff (entry : Entry) :
    (∃ tag, TagEntry.ofEntry entry = .ok tag) ↔ IsTag entry.tokens := by
  constructor
  · rintro ⟨tag, read⟩
    rw [IsTag, ofEntry_eq_ok read]
    rfl
  · obtain ⟨tokens, last⟩ := entry
    intro is_tag
    obtain ⟨tag, joined, written, text, rfl⟩ := exists_of_tagOf? is_tag
    exact ⟨_, rfl⟩

theorem Attribute.exists_entries_iff (attr : Attribute) :
    (∃ entries, attr.entries = .ok entries) ↔
      ∃ delimiter tokens, attr.args = .list delimiter tokens := by
  unfold Attribute.entries
  cases attr.args with
  | none | value =>
    exact iff_of_false (fun ⟨_, same⟩ => nomatch same) fun ⟨_, _, same⟩ => nomatch same
  | list delimiter tokens => exact iff_of_true ⟨_, rfl⟩ ⟨_, _, rfl⟩

theorem Attribute.listed_of_entries {attr : Attribute} {entries : List Entry}
    (read : attr.entries = .ok entries) : attr.listed = entries := by
  unfold Attribute.entries at read
  unfold Attribute.listed
  split at read
  · cases read
  · cases read
  · rename_i is_list
    cases read
    rw [is_list]

namespace Part

/-- A part is without an error just if it has one of its forms. -/
theorem check_eq_ok_iff (part : Part) : part.check = .ok () ↔ part.Sound := by
  have done {α : Type} (answer : Except DeriveError α) :
      (answer.map fun _ => ()) = .ok () ↔ ∃ value, answer = .ok value := by
    cases answer with
    | error => exact iff_of_false nofun fun ⟨_, same⟩ => nomatch same
    | ok value => exact iff_of_true rfl ⟨_, rfl⟩
  cases part with
  | keyword word => cases word <;> simp [check, Sound]
  | args attr => exact (done _).trans attr.exists_entries_iff
  | option entry => exact (done _).trans (FieldOptions.exists_add_iff _ entry)
  | tag entry => exact (done _).trans (TagEntry.exists_ofEntry_iff entry)
  | param declared => simp [check, Sound]

def Faulty (part : Part) (error : DeriveError) : Prop := part.check = .error error

theorem sound_iff (part : Part) : part.Sound ↔ ∀ error, ¬part.Faulty error := by
  rw [← check_eq_ok_iff]
  unfold Faulty
  cases part.check with
  | error error => exact iff_of_false nofun fun faultless => faultless error rfl
  | ok => exact iff_of_true rfl fun _ same => nomatch same

end Part

/-! ## Reading all parts -/

/-- Reading goes through some parts, up to the first that is wrong. -/
abbrev Reads {α : Type} (parts : List Part) (result : Except DeriveError α) : Prop :=
  Reports Part.Faulty (fun _ => True) parts result

/-- A part that is read on its own. -/
theorem reads_one {α : Type} {part : Part} {result : Except DeriveError α}
    (same : part.check = result.map fun _ => ()) : Reads [part] result := by
  cases result with
  | error error => exact .stop same
  | ok value =>
    refine .one (fun error faulty => ?_) trivial
    cases same.symm.trans faulty

theorem FieldOptions.add_reads (options : FieldOptions) (entry : Entry) :
    Reads [.option entry] (options.add entry) := by
  refine reads_one ?_
  show (FieldOptions.add ⟨false, none⟩ entry).map _ = _
  cases added : options.add entry with
  | error error => rw [add_eq_error _ added]
  | ok after =>
    obtain ⟨other, others_added⟩ := (exists_add_iff ⟨false, none⟩ entry).mpr
      ((exists_add_iff options entry).mp ⟨after, added⟩)
    rw [others_added]
    rfl

theorem Attribute.reads {α : Type} {entryPart : Entry → Part}
    {step : List Entry → Except DeriveError α} (attr : Attribute)
    (each : ∀ entries, Reads (entries.map entryPart) (step entries)) :
    Reads (attr.parts entryPart) (attr.entries >>= step) := by
  have own : Reports Part.Faulty (fun entries => attr.entries = .ok entries) [.args attr]
      attr.entries := (reads_one rfl).ofResult fun _ => id
  show Reads ([.args attr] ++ attr.listed.map entryPart) _
  refine own.bind fun entries read => ?_
  rw [attr.listed_of_entries read]
  exact each entries

theorem FieldOptions.addAttribute_reads (options : FieldOptions) (attr : Attribute) :
    Reads (attr.parts .option) (options.addAttribute attr) := by
  refine attr.reads fun entries => ?_
  rw [List.map_eq_flatMap]
  exact Reports.foldlM add_reads options entries

theorem optionsOf_reads (attributes : List Attribute) :
    Reads (partsUnder "inspect" .option attributes) (optionsOf attributes) :=
  Reports.foldlM FieldOptions.addAttribute_reads _ _

theorem tagsOfAttribute_reads (attr : Attribute) :
    Reads (attr.parts .tag) (tagsOfAttribute attr) := by
  refine attr.reads fun entries => ?_
  rw [List.map_eq_flatMap]
  exact Reports.mapM (fun entry => reads_one rfl) entries

theorem tagsOf_reads (attributes : List Attribute) :
    Reads (partsUnder "tag" .tag attributes) (tagsOf attributes) :=
  (Reports.mapM tagsOfAttribute_reads _).andReturn fun _ _ => trivial

theorem ofDeclared?_reads (position : Nat) (field : DeclaredField) :
    Reads field.parts (ShownField.ofDeclared? position field) := by
  -- whether the tags are read is settled only after the last option
  have options : Reports Part.Faulty (fun options => options.skip = field.hidden)
      (partsUnder "inspect" .option field.attributes) (optionsOf field.attributes) := by
    refine (optionsOf_reads field.attributes).ofResult fun options read => ?_
    rw [(optionsOf_eq_ok read).2]
    rfl
  refine options.bind fun options skips => ?_
  rw [skips]
  cases field.hidden with
  | true => exact .nothing trivial
  | false => exact (tagsOf_reads field.attributes).andReturn fun _ _ => trivial

theorem shownFields_reads (position : Nat) (fields : List DeclaredField) :
    Reads (fields.flatMap DeclaredField.parts) (shownFields position fields) := by
  induction fields generalizing position with
  | nil => exact .nothing trivial
  | cons field rest ih =>
    rw [shownFields, List.flatMap_cons]
    exact (ofDeclared?_reads position field).bind fun _ _ =>
      (ih (position + 1)).andReturn fun _ _ => trivial

/-- Parameters are wrong if one of them is a lifetime. -/
theorem params_read {α : Type} (params : List Param) (result : α) :
    Reads (params.map .param) (if params.any (·.kind == .lifetime) then
      .error .lifetimeParameter else .ok result) := by
  induction params with
  | nil => exact .nothing trivial
  | cons declared rest ih =>
    rw [List.any_cons, List.map_cons]
    cases is_lifetime : declared.kind == .lifetime with
    | true => exact .stop (if_pos is_lifetime)
    | false =>
      have fine : (Part.param declared).check = .ok () := if_neg (by simp [is_lifetime])
      exact .pass ((Part.sound_iff _).mp ((Part.check_eq_ok_iff _).mp fine)) ih

theorem derive_reads (declaration : Declaration) :
    Reads declaration.parts (derive declaration) := by
  unfold derive Declaration.parts
  cases declaration.keyword with
  | enum => exact .stop rfl
  | union => exact .stop rfl
  | struct =>
    refine .pass ((Part.sound_iff _).mp rfl) ?_
    refine (shownFields_reads 0 declaration.fields).bind fun views _ => ?_
    exact params_read declaration.params _

/-! ## Declarations that are derived -/

def Delimiter.all : List Delimiter := [.parenthesis, .bracket, .brace]

theorem Delimiter.mem_all (delimiter : Delimiter) : delimiter ∈ all := by
  cases delimiter <;> decide

/-- A list in one of some kinds of brackets, whose entries have a form. -/
def Attribute.Lists (delimiters : List Delimiter) (form : List Token → Prop) (attr : Attribute) :
    Prop :=
  ∃ delimiter ∈ delimiters, ∃ tokens, attr.args = .list delimiter tokens ∧ Listing form tokens

/-- A field whose options are well formed, and whose tags are unless it is hidden; the lists of both
stand in one of some kinds of brackets. -/
structure DeclaredField.WellFormed (delimiters : List Delimiter) (field : DeclaredField) :
    Prop where
  options : ∀ attr ∈ field.attributes, attr.name = "inspect" → attr.Lists delimiters IsOption
  tags : field.hidden = false →
    ∀ attr ∈ field.attributes, attr.name = "tag" → attr.Lists delimiters IsTag

/-- A struct without lifetime parameters, with well-formed fields. -/
structure Declaration.WellFormed (delimiters : List Delimiter) (declaration : Declaration) :
    Prop where
  is_struct : declaration.keyword = .struct
  params : ∀ declared ∈ declaration.params, declared.kind ≠ .lifetime
  fields : ∀ field ∈ declaration.fields, field.WellFormed delimiters

theorem isOption_separable : Separable IsOption where
  uncut := by
    rintro entry (rfl | renames)
    · simp [Uncut, Token.isChar]
    · obtain ⟨joined, written, text, rfl⟩ := exists_of_renameOf? renames
      simp [Uncut, Token.isChar]
  nonempty := by
    rintro (no_skip | no_name)
    · cases no_skip
    · cases no_name

theorem isTag_separable : Separable IsTag where
  uncut := by
    intro entry is_tag
    obtain ⟨tag, joined, written, text, rfl⟩ := exists_of_tagOf? is_tag
    simp [Uncut, Token.isChar]
  nonempty := nofun

section Sound

variable {form : List Token → Prop} {entryPart : Entry → Part}

theorem Attribute.parts_sound_iff (separable : Separable form)
    (sound_iff : ∀ entry, (entryPart entry).Sound ↔ form entry.tokens) (attr : Attribute) :
    (∀ part ∈ attr.parts entryPart, part.Sound) ↔ attr.Lists Delimiter.all form := by
  unfold Attribute.parts Attribute.Lists
  simp only [List.forall_mem_cons, List.forall_mem_map, sound_iff, listing_iff separable]
  constructor
  · rintro ⟨⟨delimiter, tokens, is_list⟩, formed⟩
    refine ⟨delimiter, delimiter.mem_all, tokens, is_list, ?_⟩
    rwa [Attribute.listed, is_list] at formed
  · rintro ⟨delimiter, -, tokens, is_list, formed⟩
    refine ⟨⟨delimiter, tokens, is_list⟩, ?_⟩
    rwa [Attribute.listed, is_list]

theorem partsUnder_sound_iff (separable : Separable form)
    (sound_iff : ∀ entry, (entryPart entry).Sound ↔ form entry.tokens) (name : String)
    (attributes : List Attribute) :
    (∀ part ∈ partsUnder name entryPart attributes, part.Sound) ↔
      ∀ attr ∈ attributes, attr.name = name → attr.Lists Delimiter.all form := by
  unfold partsUnder
  simp only [List.forall_mem_flatMap, List.mem_filter, beq_iff_eq, and_imp,
    Attribute.parts_sound_iff separable sound_iff]

end Sound

theorem DeclaredField.parts_sound_iff (field : DeclaredField) :
    (∀ part ∈ field.parts, part.Sound) ↔ field.WellFormed Delimiter.all := by
  have option_iff (entry : Entry) : (Part.option entry).Sound ↔ IsOption entry.tokens := Iff.rfl
  have tag_iff (entry : Entry) : (Part.tag entry).Sound ↔ IsTag entry.tokens := Iff.rfl
  have options_iff := partsUnder_sound_iff isOption_separable option_iff "inspect" field.attributes
  have tags_iff := partsUnder_sound_iff isTag_separable tag_iff "tag" field.attributes
  rw [DeclaredField.parts, List.forall_mem_append, options_iff]
  cases hides : field.hidden with
  | true =>
    constructor
    · rintro ⟨options, -⟩
      exact ⟨options, fun shows => Bool.noConfusion (hides.symm.trans shows)⟩
    · rintro ⟨options, -⟩
      exact ⟨options, nofun⟩
  | false =>
    rw [if_neg Bool.false_ne_true, tags_iff]
    constructor
    · rintro ⟨options, tags⟩
      exact ⟨options, fun _ => tags⟩
    · rintro ⟨options, tags⟩
      exact ⟨options, tags hides⟩

theorem Declaration.parts_sound_iff (declaration : Declaration) :
    (∀ part ∈ declaration.parts, part.Sound) ↔ declaration.WellFormed Delimiter.all := by
  unfold Declaration.parts
  simp only [List.forall_mem_cons, List.forall_mem_append, List.forall_mem_flatMap,
    List.forall_mem_map, DeclaredField.parts_sound_iff]
  constructor
  · rintro ⟨is_struct, fields, params⟩
    exact ⟨is_struct, params, fields⟩
  · rintro ⟨is_struct, params, fields⟩
    exact ⟨is_struct, fields, params⟩

/-- **Exactly the well-formed declarations are derived**, whatever brackets their lists stand in.
For any other declaration the error is what is wrong with the first part that is not as it should
be, in the order of reading. -/
theorem derive_judges (declaration : Declaration) :
    ((∃ impl, derive declaration = .ok impl) ↔
        declaration.WellFormed [.parenthesis, .bracket, .brace]) ∧
      ∀ error, derive declaration = .error error ↔ ∃ before part after,
        declaration.parts = before ++ part :: after ∧ (∀ earlier ∈ before, earlier.Sound) ∧
          part.check = .error error := by
  have reads := derive_reads declaration
  constructor
  · have sound_iff : (∀ part ∈ declaration.parts, part.Sound) ↔
        declaration.WellFormed [.parenthesis, .bracket, .brace] := declaration.parts_sound_iff
    rw [reads.exists_ok_iff, ← sound_iff]
    exact forall₂_congr fun part _ => part.sound_iff.symm
  · intro error
    have determined (part : Part) (error another : DeriveError) (faulty : part.Faulty error)
        (also : part.Faulty another) : error = another :=
      Except.error.inj (faulty.symm.trans also)
    rw [reads.eq_error_iff determined]
    simp only [Part.sound_iff]
    exact Iff.rfl

/-- A struct with a field that is hidden by a list in square brackets. -/
def hiddenInBrackets : Declaration :=
  ⟨.struct, "Sample", [], [],
    [⟨some "a", [.word "u8"], [⟨"inspect", .list .bracket [.word "skip"]⟩]⟩]⟩

/-- Lists that are not in parentheses do not keep a declaration from being derived. -/
theorem derives_without_parentheses :
    ¬((∃ impl, derive hiddenInBrackets = .ok impl) ↔
      hiddenInBrackets.WellFormed [.parenthesis]) := by
  rintro ⟨well_formed_of_derived, -⟩
  have well_formed := well_formed_of_derived ⟨_, rfl⟩
  obtain ⟨delimiter, allowed, tokens, is_list, -⟩ :=
    (well_formed.fields _ List.mem_cons_self).options _ List.mem_cons_self rfl
  cases is_list
  cases List.mem_singleton.mp allowed

/-- Behind the entry that hides a field, its tags do not count any more, but its options do. -/
example :
    let sample (options : List (List Token)) : Declaration := ⟨.struct, "Sample", [], [],
      [⟨none, [.word "i64"], [⟨"tag", .value⟩, ⟨"inspect", .ofEntries options⟩]⟩]⟩
    derive (sample [[.word "skip"]]) = .ok ⟨"Sample", [], [], []⟩ ∧
      derive (sample [[.word "skip"], [.word "hide"]]) = .error .unknownOption ∧
      derive (sample []) = .error (.missingParentheses "tag") :=
  ⟨rfl, rfl, rfl⟩

end Proviso.Derive
