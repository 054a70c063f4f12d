/- # Proviso.Proofs.Pattern.Description -- what patterns describe

A pattern describes stretches of a text, by what stands in them and, because of anchors, by what
stands before and after them (`Pattern.Describes`).  That says nothing of places or sets of them.
Matching decides it: a pattern accepts a text if and only if it describes some stretch of it
(`Pattern.accepts_iff`), for every pattern and every text. -/
import Proviso.Proofs.Pattern.Places

namespace Proviso

set_option autoImplicit false

/-! ## Stretches -/

/-- A condition on a stretch of a text, by what stands before it, in it and after it. -/
abbrev Description := List Char → List Char → List Char → Prop

namespace Description

/-- A stretch of one kind, and one of another right behind it. -/
def followedBy (first rest : Description) : Description := fun before inside after =>
  ∃ near far, inside = near ++ far ∧ first before near (far ++ after) ∧
    rest (before ++ near) far after

/-- A number of stretches of a kind, one right behind the other. -/
def rounds (each : Description) : Nat → Description
  | 0 => fun _ inside _ => inside = []
  | count + 1 => each.followedBy (each.rounds count)

/-- Whether a stretch that leads from one place of the text to another is of the kind. -/
def Spans (text : List Char) (kind : Description) (i j : Nat) : Prop :=
  ∃ before inside after, text = before ++ (inside ++ after) ∧ before.length = i ∧
    i + inside.length = j ∧ kind before inside after

variable {text : List Char} {first rest each : Description} {i j k : Nat}

theorem followedBy_nothing (kind : Description) :
    kind.followedBy (fun _ inside _ => inside = []) = kind := by
  funext before inside after
  refine propext ⟨?_, fun whole => ⟨inside, [], (List.append_nil _).symm, whole, rfl⟩⟩
  rintro ⟨near, _, rfl, whole, rfl⟩
  rwa [List.append_nil]

theorem nothing_followedBy (kind : Description) :
    followedBy (fun _ inside _ => inside = []) kind = kind := by
  funext before inside after
  refine propext ⟨?_, fun whole => ⟨[], inside, rfl, rfl, by rwa [List.append_nil]⟩⟩
  rintro ⟨_, far, rfl, rfl, whole⟩
  rwa [List.append_nil] at whole

theorem followedBy_assoc (first middle last : Description) :
    (first.followedBy middle).followedBy last = first.followedBy (middle.followedBy last) := by
  funext before inside after
  refine propext ⟨?_, ?_⟩
  · rintro ⟨_, far, rfl, ⟨near, between, rfl, front, inner⟩, back⟩
    rw [← List.append_assoc] at front back
    exact ⟨near, between ++ far, List.append_assoc .., front, between, far, rfl, inner, back⟩
  · rintro ⟨near, _, rfl, front, between, far, rfl, inner, back⟩
    rw [List.append_assoc] at front back
    exact ⟨near ++ between, far, (List.append_assoc ..).symm, ⟨near, between, rfl, front, inner⟩,
      back⟩

theorem Spans.within (spans : Spans text each i j) : j ≤ text.length := by
  obtain ⟨before, inside, after, rfl, rfl, rfl, -⟩ := spans
  simp only [List.length_append]
  omega

theorem spans_followedBy :
    Spans text (first.followedBy rest) i k ↔ ∃ j, Spans text first i j ∧ Spans text rest j k := by
  constructor
  · rintro ⟨before, _, after, rfl, rfl, rfl, near, far, rfl, front, back⟩
    refine ⟨before.length + near.length, ⟨before, near, far ++ after, ?_, rfl, rfl, front⟩,
      ⟨before ++ near, far, after, ?_, List.length_append, ?_, back⟩⟩
    · simp only [List.append_assoc]
    · simp only [List.append_assoc]
    · rw [List.length_append, Nat.add_assoc]
  · rintro ⟨_, ⟨before, near, behind, split, rfl, rfl, front⟩,
      before', far, after, split', starts, rfl, back⟩
    have same : before ++ near ++ behind = before' ++ (far ++ after) := by
      rw [List.append_assoc]
      exact split.symm.trans split'
    obtain ⟨rfl, rfl⟩ := List.append_inj same (by rw [List.length_append, starts])
    refine ⟨before, near ++ far, after, ?_, rfl, ?_, near, far, rfl, front, back⟩
    · rw [split, List.append_assoc]
    · rw [List.length_append, Nat.add_assoc]

/-- Nothing leads from each place of the text to itself. -/
theorem spans_nothing (inside : i ≤ text.length) :
    Spans text (fun _ inside _ => inside = []) i j ↔ i = j := by
  constructor
  · rintro ⟨_, _, _, -, -, rfl, rfl⟩
    rfl
  · rintro rfl
    exact ⟨text.take i, [], text.drop i, by simp, List.length_take_of_le inside, rfl, rfl⟩

theorem spans_rounds {R : Nat → Nat → Prop}
    (leads : ∀ i j, i ≤ text.length → (R i j ↔ Spans text each i j)) (count : Nat)
    (inside : i ≤ text.length) : Steps R count i k ↔ Spans text (each.rounds count) i k := by
  induction count generalizing i with
  | zero => exact (spans_nothing inside).symm
  | succ count ih =>
    rw [rounds, spans_followedBy]
    constructor
    · rintro ⟨j, step, steps⟩
      have front := (leads i j inside).mp step
      exact ⟨j, front, (ih front.within).mp steps⟩
    · rintro ⟨j, front, back⟩
      exact ⟨j, (leads i j inside).mpr front, (ih front.within).mpr back⟩

end Description

/-! ## Patterns -/

namespace Pattern

def Describes : Pattern → Description
  | .empty => fun _ inside _ => inside = []
  | .text chars => fun _ inside _ => inside = chars
  | .one set => fun _ inside _ => ∃ c, set.contains c = true ∧ inside = [c]
  | .here anchor => fun before inside after =>
    anchor.holds before.getLast? after.head? = true ∧ inside = []
  | .group _ body => body.Describes
  | .seq first rest => first.Describes.followedBy rest.Describes
  | .alt first rest => fun before inside after =>
    first.Describes before inside after ∨ rest.Describes before inside after
  | .repeated body least most _ => fun before inside after =>
    ∃ count, Allows least most count ∧ body.Describes.rounds count before inside after

/-! ## Laying out -/

theorem testBit_foldr {α : Type} (holds : α → Bool) (items : List α) (i : Nat) :
    (items.foldr (fun item places => bit (holds item) + 2 * places) 0).testBit i = true ↔
      ∃ item, items[i]? = some item ∧ holds item = true := by
  induction items generalizing i with
  | nil => simp
  | cons first rest ih =>
    rw [List.foldr_cons]
    generalize places_are : rest.foldr _ 0 = places
    rw [places_are] at ih
    cases i with
    | zero =>
      rw [Nat.testBit_zero, decide_eq_true_eq, List.getElem?_cons_zero]
      cases held : holds first <;> simp [bit, held]
    | succ i =>
      have half : (bit (holds first) + 2 * places) / 2 = places := by
        cases holds first <;> simp only [bit, if_true, if_false, Bool.false_eq_true] <;> omega
      rw [Nat.testBit_add_one, half, ih, List.getElem?_cons_succ]

section Laid

variable {text : List Char} {i j : Nat}

theorem testBit_placesOf (holds : Char → Bool) :
    (placesOf holds text).testBit i = true ↔ ∃ c, text[i]? = some c ∧ holds c = true :=
  testBit_foldr holds text i

theorem getElem?_surroundings (before after : List Char) :
    (surroundings (before ++ after))[before.length]? = some (before.getLast?, after.head?) := by
  unfold surroundings
  rw [List.getElem?_zip_eq_some]
  constructor
  · rcases List.eq_nil_or_concat before with rfl | ⟨early, c, rfl⟩
    · rfl
    · simp
  · cases after with
    | nil => simp
    | cons c rest => simp

theorem testBit_placesAt (anchor : Anchor) (before after : List Char) :
    (placesAt anchor (before ++ after)).testBit before.length = true ↔
      anchor.holds before.getLast? after.head? = true := by
  unfold placesAt
  rw [testBit_foldr fun around : Option Char × Option Char => anchor.holds around.1 around.2,
    getElem?_surroundings]
  simp

/-- The places of characters are where the stretches of such a character lead from. -/
theorem spans_char (holds : Char → Bool) :
    (placesOf holds text).testBit i = true ∧ j = i + 1 ↔
      Description.Spans text (fun _ inside _ => ∃ c, holds c = true ∧ inside = [c]) i j := by
  rw [testBit_placesOf]
  constructor
  · rintro ⟨⟨c, stands, held⟩, rfl⟩
    obtain ⟨inside, is_c⟩ := List.getElem?_eq_some_iff.mp stands
    refine ⟨text.take i, [c], text.drop (i + 1), ?_, List.length_take_of_le (Nat.le_of_lt inside),
      rfl, c, held, rfl⟩
    rw [← is_c, List.singleton_append, ← List.drop_eq_getElem_cons inside, List.take_append_drop]
  · rintro ⟨before, _, after, rfl, rfl, rfl, c, held, rfl⟩
    exact ⟨⟨c, by simp, held⟩, rfl⟩

end Laid

/-- A pattern laid out over a text leads along the stretches that it describes. -/
theorem layOut_leads (text : List Char) (pattern : Pattern) {i j : Nat} (inside : i ≤ text.length) :
    (pattern.layOut text).Leads i j ↔ pattern.Describes.Spans text i j := by
  induction pattern generalizing i j with
  | empty => exact (Description.spans_nothing inside).symm
  | text chars =>
    induction chars generalizing i j with
    | nil => exact (Description.spans_nothing inside).symm
    | cons c chars ih =>
      -- a text is laid out as a row of its characters
      have split : (Pattern.text (c :: chars)).Describes =
          Description.followedBy (fun _ inside _ => ∃ d, (d == c) = true ∧ inside = [d])
            (Pattern.text chars).Describes := by
        funext before inside after
        simp [Describes, Description.followedBy]
      rw [split, Description.spans_followedBy]
      show (∃ middle, (_ ∧ _) ∧ _) ↔ _
      refine exists_congr fun middle => ?_
      rw [spans_char (· == c)]
      exact and_congr_right fun first => ih first.within
  | one set => exact spans_char set.contains
  | here anchor =>
    show (placesAt anchor text).testBit i = true ∧ i = j ↔ _
    constructor
    · rintro ⟨held, rfl⟩
      have starts := List.length_take_of_le inside
      have holds := testBit_placesAt anchor (text.take i) (text.drop i)
      rw [List.take_append_drop, starts] at holds
      exact ⟨text.take i, [], text.drop i, (List.take_append_drop i text).symm, starts, rfl,
        holds.mp held, rfl⟩
    · rintro ⟨before, _, after, rfl, rfl, rfl, held, rfl⟩
      exact ⟨(testBit_placesAt anchor before after).mpr held, rfl⟩
  | group number body ih => exact ih inside
  | seq first rest first_ih rest_ih =>
    rw [Describes, Description.spans_followedBy]
    refine exists_congr fun middle => ?_
    rw [first_ih inside]
    exact and_congr_right fun front => rest_ih front.within
  | alt first rest first_ih rest_ih =>
    show _ ∨ _ ↔ _
    rw [first_ih inside, rest_ih inside]
    simp only [Description.Spans, Describes, and_or_left, exists_or]
  | repeated body least most greedy ih =>
    rw [layOut, Layout.repetition_leads]
    have rounds (count : Nat) : Steps (body.layOut text).Leads count i j ↔
        (body.Describes.rounds count).Spans text i j :=
      Description.spans_rounds (fun i j inside => ih inside) count inside
    constructor
    · rintro ⟨count, allowed, steps⟩
      obtain ⟨before, stretch, after, split, starts, ends, taken⟩ := (rounds count).mp steps
      exact ⟨before, stretch, after, split, starts, ends, count, allowed, taken⟩
    · rintro ⟨before, stretch, after, split, starts, ends, count, allowed, taken⟩
      have spans := (rounds count).mpr ⟨before, stretch, after, split, starts, ends, taken⟩
      exact ⟨count, allowed, spans⟩

theorem layOut_fits (text : List Char) (pattern : Pattern) :
    (pattern.layOut text).Fits text.length := by
  have taken (holds : Char → Bool) (i : Nat) (listed : (placesOf holds text).testBit i = true) :
      i < text.length := by
    obtain ⟨c, stands, -⟩ := (testBit_placesOf holds).mp listed
    exact (List.getElem?_eq_some_iff.mp stands).1
  induction pattern with
  | empty => trivial
  | text chars =>
    induction chars with
    | nil => trivial
    | cons c chars ih => exact ⟨taken _, ih⟩
  | one set => exact taken _
  | here anchor => trivial
  | group number body ih => exact ih
  | seq first rest first_ih rest_ih => exact ⟨first_ih, rest_ih⟩
  | alt first rest first_ih rest_ih => exact ⟨first_ih, rest_ih⟩
  | repeated body least most greedy ih => exact Layout.repetition_fits ih least most

/-- **Matching decides what a pattern describes.** -/
theorem accepts_iff (pattern : Pattern) (text : List Char) :
    pattern.accepts text = true ↔ ∃ before inside after,
      text = before ++ (inside ++ after) ∧ pattern.Describes before inside after := by
  have everywhere (i : Nat) :
      (Nat.pow 2 (text.length + 1) - 1).testBit i = true ↔ i ≤ text.length := by
    show (2 ^ (text.length + 1) - 1).testBit i = true ↔ _
    rw [Nat.testBit_two_pow_sub_one, decide_eq_true_eq, Nat.lt_succ_iff]
  have arrives := (Layout.advance_follows (pattern.layOut_fits text)).reaches _
    fun i => (everywhere i).mp
  have somewhere (places : Nat) : (places != 0) = true ↔ ∃ j, places.testBit j = true := by
    rw [bne_iff_ne]
    constructor
    · exact Nat.exists_testBit_of_ne_zero
    · rintro ⟨j, listed⟩ rfl
      rw [Nat.zero_testBit] at listed
      cases listed
  rw [accepts, somewhere]
  constructor
  · rintro ⟨j, listed⟩
    obtain ⟨i, start, leads⟩ := (arrives j).mp listed
    obtain ⟨before, inside, after, split, -, -, described⟩ :=
      (layOut_leads text pattern ((everywhere i).mp start)).mp leads
    exact ⟨before, inside, after, split, described⟩
  · rintro ⟨before, inside, after, split, described⟩
    have within : before.length ≤ text.length := by
      rw [split, List.length_append]
      exact Nat.le_add_right _ _
    refine ⟨before.length + inside.length, (arrives _).mpr ⟨before.length,
      (everywhere _).mpr within, (layOut_leads text pattern within).mpr ?_⟩⟩
    exact ⟨before, inside, after, split, rfl, rfl, described⟩

/-! ## Rows -/

theorem describes_row_cons (first : Pattern) (rest : List Pattern) :
    (row (first :: rest)).Describes = first.Describes.followedBy (row rest).Describes := by
  cases rest with
  | nil => exact (Description.followedBy_nothing first.Describes).symm
  | cons => rfl

theorem describes_row_append (front back : List Pattern) :
    (row (front ++ back)).Describes = (row front).Describes.followedBy (row back).Describes := by
  induction front with
  | nil => exact (Description.nothing_followedBy _).symm
  | cons first front ih =>
    rw [List.cons_append, describes_row_cons, describes_row_cons, ih, Description.followedBy_assoc]

/-- A row between the start and the end of a text is about the whole of it. -/
theorem accepts_whole_iff (parts : List Pattern) (text : List Char) :
    (row (.here .textStart :: (parts ++ [.here .textEnd]))).accepts text = true ↔
      (row parts).Describes [] text [] := by
  rw [accepts_iff, describes_row_cons, describes_row_append]
  constructor
  · rintro ⟨before, _, after, rfl, _, _, rfl, ⟨at_start, rfl⟩, inside, _, rfl, described,
      at_end, rfl⟩
    obtain rfl := List.getLast?_eq_none_iff.mp (Option.isNone_iff_eq_none.mp at_start)
    obtain rfl := List.head?_eq_none_iff.mp (Option.isNone_iff_eq_none.mp at_end)
    simpa only [List.nil_append, List.append_nil] using described
  · intro described
    exact ⟨[], text, [], by simp, [], text, rfl, ⟨rfl, rfl⟩, text, [], by simp, described, rfl, rfl⟩

/-! ## Characters of a set -/

theorem rounds_one (set : CharSet) (count : Nat) (before inside after : List Char) :
    (Pattern.one set).Describes.rounds count before inside after ↔
      inside.length = count ∧ ∀ c ∈ inside, set.contains c = true := by
  induction count generalizing before inside with
  | zero =>
    constructor
    · rintro rfl
      exact ⟨rfl, nofun⟩
    · rintro ⟨none_left, -⟩
      exact List.length_eq_zero_iff.mp none_left
  | succ count ih =>
    constructor
    · rintro ⟨_, far, rfl, ⟨c, within, rfl⟩, rounds⟩
      obtain ⟨rfl, rest_within⟩ := (ih _ _).mp rounds
      exact ⟨rfl, List.forall_mem_cons.mpr ⟨within, rest_within⟩⟩
    · rintro ⟨counted, each⟩
      obtain ⟨c, far, rfl⟩ := List.exists_cons_of_length_eq_add_one counted
      obtain ⟨within, rest_within⟩ := List.forall_mem_cons.mp each
      exact ⟨[c], far, rfl, ⟨c, within, rfl⟩, (ih _ _).mpr ⟨Nat.succ.inj counted, rest_within⟩⟩

/-- A repetition of a set describes so many of its characters. -/
theorem describes_repeated_one (set : CharSet) (least : Nat) (most : Option Nat) (greedy : Bool)
    (before inside after : List Char) :
    (Pattern.repeated (.one set) least most greedy).Describes before inside after ↔
      Allows least most inside.length ∧ ∀ c ∈ inside, set.contains c = true := by
  constructor
  · rintro ⟨count, allowed, rounds⟩
    obtain ⟨rfl, each⟩ := (rounds_one set count before inside after).mp rounds
    exact ⟨allowed, each⟩
  · rintro ⟨allowed, each⟩
    exact ⟨_, allowed, (rounds_one set _ before inside after).mpr ⟨rfl, each⟩⟩

end Pattern

end Proviso
