/- # Proviso.Proofs.FirstFault -- the first of several faults is reported

What is done item by item, up to the first item with a fault, has one of two outcomes: no item has a
fault and there is a result, or the fault of the first faulty item is the error.  `Reports` says so
for a list of items, which need not be a list that the computation goes through: it may be the nodes
of a tree, read in some order.  Computations in a row report on the items of both (`Reports.bind`),
so the order of the items follows the order of the computation. -/

namespace Proviso

set_option autoImplicit false

variable {α ε β γ : Type}

/-- A result of two steps comes of a result of the first. -/
theorem exists_of_bind_eq_ok {answer : Except ε α} {next : α → Except ε β} {value : β}
    (came : (answer >>= next) = .ok value) :
    ∃ inner, answer = .ok inner ∧ next inner = .ok value := by
  cases answer with
  | error error => cases came
  | ok inner => exact ⟨inner, rfl, came⟩

/-- No item has a fault and the result is a good one, or the first item with a fault has the error
for its fault. -/
inductive Reports (fault : α → ε → Prop) (good : β → Prop) : List α → Except ε β → Prop where
  | clear {items : List α} {value : β} (faultless : ∀ item ∈ items, ∀ error, ¬fault item error)
      (is_good : good value) : Reports fault good items (.ok value)
  | broken {before : List α} {item : α} {after : List α} {error : ε}
      (earlier : ∀ other ∈ before, ∀ another, ¬fault other another) (faulty : fault item error) :
      Reports fault good (before ++ item :: after) (.error error)

namespace Reports

variable {fault : α → ε → Prop} {good : β → Prop} {items : List α} {result : Except ε β}

/-! ## Putting computations together -/

theorem nothing {value : β} (is_good : good value) : Reports fault good [] (.ok value) :=
  .clear (fun _ listed => absurd listed List.not_mem_nil) is_good

theorem one {item : α} {value : β} (faultless : ∀ error, ¬fault item error)
    (is_good : good value) : Reports fault good [item] (.ok value) :=
  .clear (fun _ listed => List.mem_singleton.mp listed ▸ faultless) is_good

/-- An error ends the computation, whatever items would have come after. -/
theorem stop {item : α} {after : List α} {error : ε} (faulty : fault item error) :
    Reports fault good (item :: after) (.error error) := by
  rw [← List.nil_append (item :: after)]
  exact .broken (fun _ listed => absurd listed List.not_mem_nil) faulty

/-- The items of a first computation come before those of a second one. -/
theorem bind {later : List α} {next : β → Except ε γ} {fine : γ → Prop}
    (first : Reports fault good items result)
    (second : ∀ value, good value → Reports fault fine later (next value)) :
    Reports fault fine (items ++ later) (result >>= next) := by
  cases first with
  | @broken before item after error earlier faulty =>
    rw [List.append_assoc, List.cons_append]
    exact .broken earlier faulty
  | @clear _ value faultless is_good =>
    show Reports fault fine (items ++ later) (next value)
    generalize next value = outcome, second value is_good = rest
    cases rest with
    | clear others fine_value =>
      refine .clear (fun item listed => ?_) fine_value
      rcases List.mem_append.mp listed with here | there
      · exact faultless item here
      · exact others item there
    | @broken before item after error earlier faulty =>
      rw [← List.append_assoc]
      refine .broken (fun other listed => ?_) faulty
      rcases List.mem_append.mp listed with here | there
      · exact faultless other here
      · exact earlier other there

/-- An item without a fault is passed over. -/
theorem pass {item : α} (faultless : ∀ error, ¬fault item error)
    (rest : Reports fault good items result) : Reports fault good (item :: items) result := by
  have first : Reports fault (fun _ => True) [item] (.ok ()) := .one faultless trivial
  exact first.bind fun _ _ => rest

/-- What is made of the result does not matter to the items. -/
theorem map {make : β → γ} {fine : γ → Prop} (first : Reports fault good items result)
    (keeps : ∀ value, good value → fine (make value)) :
    Reports fault fine items (result.map make) := by
  cases first with
  | clear faultless is_good => exact .clear faultless (keeps _ is_good)
  | broken earlier faulty => exact .broken earlier faulty

/-- What is returned in the end is made of the result. -/
theorem andReturn {make : β → γ} {fine : γ → Prop} (first : Reports fault good items result)
    (keeps : ∀ value, good value → fine (make value)) :
    Reports fault fine items (result >>= fun value => pure (make value)) := by
  cases first with
  | clear faultless is_good => exact .clear faultless (keeps _ is_good)
  | broken earlier faulty => exact .broken earlier faulty

/-- What is known of results is known of a good result. -/
theorem ofResult {fine : β → Prop} (reports : Reports fault good items result)
    (known : ∀ value, result = .ok value → fine value) : Reports fault fine items result := by
  cases reports with
  | clear faultless => exact .clear faultless (known _ rfl)
  | broken earlier faulty => exact .broken earlier faulty

/-- What is made of the error is made of the faults. -/
theorem mapError {δ : Type} {make : ε → δ} {fault' : α → δ → Prop}
    (reports : Reports fault good items result)
    (same : ∀ item error, fault' item error ↔ ∃ inner, fault item inner ∧ error = make inner) :
    Reports fault' good items (result.mapError make) := by
  have faultless {item : α} (fine : ∀ error, ¬fault item error) (error : δ) :
      ¬fault' item error := by
    intro faulty
    obtain ⟨inner, faulty, -⟩ := (same item error).mp faulty
    exact fine inner faulty
  cases reports with
  | clear fine is_good => exact .clear (fun item listed => faultless (fine item listed)) is_good
  | broken earlier faulty =>
    exact .broken (fun other listed => faultless (earlier other listed))
      ((same _ _).mpr ⟨_, faulty, rfl⟩)

/-! ## Going through lists -/

section Lists

variable {δ : Type} {itemsOf : δ → List α}

/-- Where a state is carried along, each step reports on the items of its part. -/
theorem foldlM {step : β → δ → Except ε β}
    (each : ∀ state part, Reports fault (fun _ => True) (itemsOf part) (step state part))
    (state : β) (parts : List δ) :
    Reports fault (fun _ => True) (parts.flatMap itemsOf) (parts.foldlM step state) := by
  induction parts generalizing state with
  | nil => exact .nothing trivial
  | cons part rest ih =>
    rw [List.foldlM_cons, List.flatMap_cons]
    exact (each state part).bind fun next _ => ih next

theorem mapM {step : δ → Except ε β}
    (each : ∀ part, Reports fault (fun _ => True) (itemsOf part) (step part)) (parts : List δ) :
    Reports fault (fun _ => True) (parts.flatMap itemsOf) (parts.mapM step) := by
  induction parts with
  | nil => exact .nothing trivial
  | cons part rest ih =>
    rw [List.mapM_cons, List.flatMap_cons]
    exact (each part).bind fun _ _ => ih.andReturn fun _ _ => trivial

end Lists

/-! ## Reading off -/

/-- There is a result exactly when no item has a fault. -/
theorem exists_ok_iff (reports : Reports fault good items result) :
    (∃ value, result = .ok value) ↔ ∀ item ∈ items, ∀ error, ¬fault item error := by
  cases reports with
  | clear faultless => exact iff_of_true ⟨_, rfl⟩ faultless
  | @broken before item after error earlier faulty =>
    refine iff_of_false (fun ⟨_, same⟩ => nomatch same) fun faultless => ?_
    exact faultless item (List.mem_append_right before List.mem_cons_self) error faulty

/-- There is an error exactly when some item has a fault. -/
theorem exists_error_iff (reports : Reports fault good items result) :
    (∃ error, result = .error error) ↔ ∃ item ∈ items, ∃ error, fault item error := by
  cases reports with
  | clear faultless =>
    exact iff_of_false (fun ⟨_, same⟩ => nomatch same)
      fun ⟨item, listed, error, faulty⟩ => faultless item listed error faulty
  | broken earlier faulty =>
    exact iff_of_true ⟨_, rfl⟩ ⟨_, List.mem_append_right _ List.mem_cons_self, _, faulty⟩

theorem good_of_ok {value : β} (reports : Reports fault good items (.ok value)) : good value := by
  cases reports with
  | clear _ is_good => exact is_good

/-- There is one first item with a fault. -/
theorem eq_of_first {before front after back : List α} {item other : α} {error another : ε}
    (same : before ++ item :: after = front ++ other :: back)
    (earlier : ∀ item ∈ before, ∀ error, ¬fault item error)
    (sooner : ∀ item ∈ front, ∀ error, ¬fault item error) (faulty : fault item error)
    (wrong : fault other another) : item = other := by
  rcases List.append_eq_append_iff.mp same with ⟨between, rfl, split⟩ | ⟨between, rfl, split⟩
  · cases between with
    | nil => exact (List.cons.inj split).1
    | cons next rest =>
      cases (List.cons.inj split).1
      exact absurd faulty (sooner item (List.mem_append_right before List.mem_cons_self) error)
  · cases between with
    | nil => exact (List.cons.inj split).1.symm
    | cons next rest =>
      cases (List.cons.inj split).1
      exact absurd wrong (earlier other (List.mem_append_right front List.mem_cons_self) another)

/-- An error is the fault of the first item that has one. -/
theorem exists_of_error {error : ε} (reports : Reports fault good items (.error error)) :
    ∃ before item after, items = before ++ item :: after ∧
      (∀ other ∈ before, ∀ another, ¬fault other another) ∧ fault item error := by
  generalize failed : Except.error error = result at reports
  cases reports with
  | clear => cases failed
  | broken earlier faulty =>
    cases failed
    exact ⟨_, _, _, rfl, earlier, faulty⟩

/-- Where an item has one fault at most, the error is told by the first item that has one. -/
theorem eq_error_iff (reports : Reports fault good items result)
    (determined : ∀ item error another, fault item error → fault item another → error = another)
    (error : ε) :
    result = .error error ↔ ∃ before item after, items = before ++ item :: after ∧
      (∀ other ∈ before, ∀ another, ¬fault other another) ∧ fault item error := by
  constructor
  · rintro rfl
    exact reports.exists_of_error
  · rintro ⟨before, item, after, rfl, earlier, faulty⟩
    generalize whole : before ++ item :: after = items at reports
    cases reports with
    | clear faultless =>
      have listed : item ∈ items := whole ▸ List.mem_append_right before List.mem_cons_self
      exact absurd faulty (faultless item listed error)
    | broken sooner wrong =>
      cases eq_of_first whole earlier sooner faulty wrong
      rw [determined item _ _ faulty wrong]

/-- Where the items come in the order of a key, the error is told by the least item with a fault. -/
theorem eq_error_iff_least {key : α → Nat} (reports : Reports fault good items result)
    (determined : ∀ item error another, fault item error → fault item another → error = another)
    (sorted : items.Pairwise fun earlier later => key earlier < key later) (error : ε) :
    result = .error error ↔ ∃ item ∈ items, fault item error ∧
      ∀ other ∈ items, ∀ another, fault other another → key item ≤ key other := by
  rw [reports.eq_error_iff determined]
  constructor
  · rintro ⟨before, item, after, rfl, earlier, faulty⟩
    refine ⟨item, List.mem_append_right _ List.mem_cons_self, faulty, ?_⟩
    intro other listed another also_faulty
    rcases List.mem_append.mp listed with sooner | here_or_later
    · exact absurd also_faulty (earlier other sooner another)
    · rcases List.mem_cons.mp here_or_later with rfl | later
      · exact Nat.le_refl _
      · have behind := (List.pairwise_cons.mp (List.pairwise_append.mp sorted).2.1).1
        exact Nat.le_of_lt (behind other later)
  · rintro ⟨item, listed, faulty, least⟩
    obtain ⟨before, after, rfl⟩ := List.append_of_mem listed
    refine ⟨before, item, after, rfl, fun other sooner another also_faulty => ?_, faulty⟩
    have ahead := (List.pairwise_append.mp sorted).2.2 other sooner item List.mem_cons_self
    exact Nat.not_le.mpr ahead (least other (List.mem_append_left _ sooner) another also_faulty)

end Reports

end Proviso
