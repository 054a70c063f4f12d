/- # Proviso.Proofs.Derive.Entries -- what the entries of attributes say

Where the attributes of a field are read without an error, each entry has one of a few forms, and
its form is all that counts: an entry of `inspect` is `skip` or a new name, and an entry of `tag` is
a tag with its annotation.  The options of a field are what its entries say in their order
(`optionsOf_eq_ok`), and its tags are its entries one by one (`tagsOf_eq_ok`), however the entries
are spread over attributes. -/
import Proviso.Derive.Attribute
import Proviso.Proofs.FirstFault

namespace Proviso.Derive

set_option autoImplicit false

/-! ## Entries as they are written -/

/-- The entries of an attribute as they are written, none if it has no list of them. -/
def Attribute.written (attr : Attribute) : List (List Token) :=
  match attr.args with
  | .list _ tokens => (entriesOf tokens).map (·.tokens)
  | .none | .value => []

def writtenUnder (name : String) (attributes : List Attribute) : List (List Token) :=
  (attributes.filter (·.name == name)).flatMap Attribute.written

/-- The name that an entry gives, if it is one that does. -/
def renameOf? : List Token → Option String
  | [.word "rename", .char '=' _, .literal _ (some text)] => some text
  | _ => none

/-- Whether an entry of `inspect` has one of its forms. -/
def IsOption (tokens : List Token) : Prop := tokens = [.word "skip"] ∨ (renameOf? tokens).isSome

/-- The tag and its annotation in an entry, if that is its form. -/
def tagOf? : List Token → Option TagEntry
  | [.word tag, .char '=' _, .literal written (some text)] =>
    some ⟨tag, .literal written (some text)⟩
  | _ => none

/-! ## One entry -/

theorem readSegments_nil {last : Bool} {tokens rest : List Token}
    (read : readSegments last tokens = .ok ([], rest)) : tokens = rest := by
  unfold readSegments at read
  split at read
  · obtain ⟨⟨segments, behind⟩, -, read⟩ := exists_of_bind_eq_ok read
    cases read
  · cases read
  · cases read
    rfl

theorem word_of_readName {last rooted : Bool} {tokens rest : List Token} {name : EntryName}
    {word : String} (read : readName last rooted tokens = .ok (name, rest))
    (is_word : name.word? = some word) : rooted = false ∧ tokens = .word word :: rest := by
  unfold readName at read
  split at read
  · rename_i first behind
    obtain ⟨⟨segments, behind'⟩, read_segments, read⟩ := exists_of_bind_eq_ok read
    cases read
    cases rooted with
    | true => cases is_word
    | false =>
      cases segments with
      | nil =>
        cases is_word
        exact ⟨rfl, by rw [readSegments_nil read_segments]⟩
      | cons => cases is_word
  · split at read <;> cases read
  · cases read
  · cases read
  · cases read

/-- An entry under a single word starts with the word. -/
theorem Entry.tokens_of_readName {entry : Entry} {rest : List Token} {name : EntryName}
    {word : String} (read : entry.readName = .ok (name, rest))
    (is_word : name.word? = some word) : entry.tokens = .word word :: rest := by
  unfold Entry.readName at read
  split at read
  · cases (word_of_readName read is_word).1
  · exact (word_of_readName read is_word).2

theorem readText_eq_ok {last : Bool} {tokens rest : List Token} {token : Token} {text : String}
    (read : readText last tokens = .ok (token, text, rest)) :
    ∃ joined written, tokens = .char '=' joined :: .literal written (some text) :: rest ∧
      token = .literal written (some text) := by
  unfold readText at read
  split at read
  · cases read
    exact ⟨_, _, rfl, rfl⟩
  · cases read
  · cases read

theorem atEntryEnd_eq_ok {tokens : List Token} {done : Unit}
    (ends : atEntryEnd tokens = .ok done) : tokens = [] := by
  cases tokens with
  | nil => rfl
  | cons => cases ends

/-! ## Options -/

/-- What the options become by entries: one that hides the field is enough, and of several names the
last one holds. -/
def FieldOptions.after (options : FieldOptions) (written : List (List Token)) : FieldOptions :=
  ⟨options.skip || written.contains [.word "skip"],
    ((written.filterMap renameOf?).getLast?).or options.rename⟩

theorem FieldOptions.after_append (options : FieldOptions) (early late : List (List Token)) :
    options.after (early ++ late) = (options.after early).after late := by
  simp only [after, List.contains_append, Bool.or_assoc, List.filterMap_append,
    List.getLast?_append, Option.or_assoc]

theorem FieldOptions.add_eq_ok {options after : FieldOptions} {entry : Entry}
    (added : options.add entry = .ok after) :
    IsOption entry.tokens ∧ after = options.after [entry.tokens] := by
  unfold add at added
  obtain ⟨⟨name, rest⟩, read, added⟩ := exists_of_bind_eq_ok added
  dsimp only at added
  split at added
  · rename_i is_word
    obtain ⟨_, ends, added⟩ := exists_of_bind_eq_ok added
    cases added
    rw [entry.tokens_of_readName read is_word, atEntryEnd_eq_ok ends]
    exact ⟨.inl rfl, by simp [FieldOptions.after, renameOf?]⟩
  · rename_i is_word
    obtain ⟨⟨token, text, behind⟩, read_text, added⟩ := exists_of_bind_eq_ok added
    obtain ⟨_, ends, added⟩ := exists_of_bind_eq_ok added
    cases added
    obtain rfl : behind = [] := atEntryEnd_eq_ok ends
    obtain ⟨joined, written, rfl, -⟩ := readText_eq_ok read_text
    rw [entry.tokens_of_readName read is_word]
    exact ⟨.inr rfl, by simp [FieldOptions.after, renameOf?]⟩
  · cases added

/-- Entries, or items that consist of entries, are added one after the other. -/
theorem FieldOptions.foldlM_eq_ok {α : Type}
    {add : FieldOptions → α → Except DeriveError FieldOptions} (written : α → List (List Token))
    (each : ∀ options item after, add options item = .ok after →
      (∀ tokens ∈ written item, IsOption tokens) ∧ after = options.after (written item))
    {items : List α} {options after : FieldOptions} (added : items.foldlM add options = .ok after) :
    (∀ tokens ∈ items.flatMap written, IsOption tokens) ∧
      after = options.after (items.flatMap written) := by
  induction items generalizing options with
  | nil =>
    cases added
    exact ⟨by simp, by simp [FieldOptions.after]⟩
  | cons item rest ih =>
    rw [List.foldlM_cons] at added
    obtain ⟨between, first, added⟩ := exists_of_bind_eq_ok added
    obtain ⟨understood, rfl⟩ := each _ _ _ first
    obtain ⟨all_understood, rfl⟩ := ih added
    rw [List.flatMap_cons, FieldOptions.after_append]
    exact ⟨List.forall_mem_append.mpr ⟨understood, all_understood⟩, rfl⟩

theorem Attribute.entries_eq_ok {attr : Attribute} {entries : List Entry}
    (read : attr.entries = .ok entries) : attr.written = entries.map (·.tokens) := by
  unfold Attribute.entries at read
  unfold Attribute.written
  split at read
  · cases read
  · cases read
  · rename_i is_list
    cases read
    rw [is_list]

theorem FieldOptions.addAttribute_eq_ok {options after : FieldOptions} {attr : Attribute}
    (added : options.addAttribute attr = .ok after) :
    (∀ tokens ∈ attr.written, IsOption tokens) ∧ after = options.after attr.written := by
  obtain ⟨entries, read, added⟩ := exists_of_bind_eq_ok added
  have all_added := foldlM_eq_ok (fun entry : Entry => [entry.tokens])
    (fun _ _ _ first => by simpa using add_eq_ok first) added
  rwa [← List.map_eq_flatMap, ← attr.entries_eq_ok read] at all_added

/-- **The options of a field**, where they are read: each entry has one of the forms, one of them
that hides the field is enough, and the last name holds. -/
theorem optionsOf_eq_ok {attributes : List Attribute} {options : FieldOptions}
    (read : optionsOf attributes = .ok options) :
    (∀ tokens ∈ writtenUnder "inspect" attributes, IsOption tokens) ∧
      options = FieldOptions.after ⟨false, none⟩ (writtenUnder "inspect" attributes) :=
  FieldOptions.foldlM_eq_ok Attribute.written (fun _ _ _ => FieldOptions.addAttribute_eq_ok) read

/-! ## Tags -/

theorem TagEntry.ofEntry_eq_ok {entry : Entry} {tag : TagEntry}
    (read : TagEntry.ofEntry entry = .ok tag) : tagOf? entry.tokens = some tag := by
  unfold TagEntry.ofEntry at read
  obtain ⟨⟨name, rest⟩, read_name, read⟩ := exists_of_bind_eq_ok read
  dsimp only at read
  split at read
  · cases read
  · rename_i is_word
    obtain ⟨⟨token, text, behind⟩, read_text, read⟩ := exists_of_bind_eq_ok read
    obtain ⟨_, ends, read⟩ := exists_of_bind_eq_ok read
    cases read
    obtain rfl : behind = [] := atEntryEnd_eq_ok ends
    obtain ⟨joined, written, rfl, rfl⟩ := readText_eq_ok read_text
    rw [entry.tokens_of_readName read_name is_word]
    rfl

/-- Where each item is read as something, all of them together are read as all of that. -/
theorem mapM_eq_ok {α β γ : Type} {read : α → Except DeriveError β} {view : α → γ} {view' : β → γ}
    (each : ∀ item result, read item = .ok result → view item = view' result) {items : List α}
    {results : List β} (all : items.mapM read = .ok results) :
    items.map view = results.map view' := by
  induction items generalizing results with
  | nil =>
    cases all
    rfl
  | cons item rest ih =>
    rw [List.mapM_cons] at all
    obtain ⟨result, first, all⟩ := exists_of_bind_eq_ok all
    obtain ⟨others, further, all⟩ := exists_of_bind_eq_ok all
    cases all
    rw [List.map_cons, List.map_cons, each _ _ first, ih further]

theorem tagsOfAttribute_eq_ok {attr : Attribute} {tags : List TagEntry}
    (read : tagsOfAttribute attr = .ok tags) : attr.written.map tagOf? = tags.map some := by
  obtain ⟨entries, read_entries, read⟩ := exists_of_bind_eq_ok read
  rw [attr.entries_eq_ok read_entries, List.map_map]
  exact mapM_eq_ok (fun _ _ => TagEntry.ofEntry_eq_ok) read

/-- **The tags of a field**, where they are read: each entry is one tag, and they stand in the order
of the entries. -/
theorem tagsOf_eq_ok {attributes : List Attribute} {tags : List TagEntry}
    (read : tagsOf attributes = .ok tags) :
    (writtenUnder "tag" attributes).map tagOf? = tags.map some := by
  obtain ⟨lists, read_lists, same⟩ := exists_of_bind_eq_ok read
  cases same
  have each := mapM_eq_ok (fun _ _ => tagsOfAttribute_eq_ok) read_lists
  rw [writtenUnder, List.flatMap, List.map_flatten, List.map_map, List.map_flatten]
  exact congrArg List.flatten each

end Proviso.Derive
