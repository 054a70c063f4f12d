/- # Proviso.Proofs.Pattern.Places -- all ways through a text at once

A layout relates the places where it may start to the places where it may end (`Layout.Leads`).
Matching carries a set of places along, as the bits of a number, and what it arrives at is just what
the relation leads to from some place of the set (`Layout.advance_follows`).  Two short cuts have to
be accounted for.  A repetition takes no step from a place that it has been at, because where that
leads has been reached already (`spread_iff`).  And a repetition without a bound stops after as many
steps as there are places, because no step goes back, and a step that stays where it is can be left
out (`Steps.shorten`). -/
import Proviso.Pattern.Match

namespace Proviso

set_option autoImplicit false

/-! ## Steps -/

section Steps

variable {R S : Nat → Nat → Prop} {i j k n m : Nat}

def Steps (R : Nat → Nat → Prop) : Nat → Nat → Nat → Prop
  | 0, i, j => i = j
  | count + 1, i, k => ∃ j, R i j ∧ Steps R count j k

theorem steps_one : Steps R 1 i j ↔ R i j := by
  constructor
  · rintro ⟨_, step, rfl⟩
    exact step
  · intro step
    exact ⟨j, step, rfl⟩

theorem steps_add : Steps R (n + m) i k ↔ ∃ j, Steps R n i j ∧ Steps R m j k := by
  induction n generalizing i with
  | zero =>
    rw [Nat.zero_add]
    constructor
    · intro steps
      exact ⟨i, rfl, steps⟩
    · rintro ⟨_, rfl, steps⟩
      exact steps
  | succ n ih =>
    rw [Nat.succ_add]
    constructor
    · rintro ⟨next, step, steps⟩
      obtain ⟨j, front, back⟩ := ih.mp steps
      exact ⟨j, ⟨next, step, front⟩, back⟩
    · rintro ⟨j, ⟨next, step, front⟩, back⟩
      exact ⟨next, step, ih.mpr ⟨j, front, back⟩⟩

theorem Steps.mono (imp : ∀ i j, R i j → S i j) (steps : Steps R n i j) : Steps S n i j := by
  induction n generalizing i with
  | zero => exact steps
  | succ n ih =>
    obtain ⟨next, step, steps⟩ := steps
    exact ⟨next, imp _ _ step, ih steps⟩

/-- Steps of which none goes back do not go back. -/
theorem Steps.forward (forward : ∀ i j, R i j → i ≤ j) (steps : Steps R n i j) : i ≤ j := by
  induction n generalizing i with
  | zero => exact Nat.le_of_eq steps
  | succ n ih =>
    obtain ⟨next, step, steps⟩ := steps
    exact Nat.le_trans (forward _ _ step) (ih steps)

/-- Steps of which none leaves a text stay within it. -/
theorem Steps.stays {last : Nat} (stays : ∀ i j, i ≤ last → R i j → j ≤ last) (inside : i ≤ last)
    (steps : Steps R n i j) : j ≤ last := by
  induction n generalizing i with
  | zero => exact steps ▸ inside
  | succ n ih =>
    obtain ⟨next, step, steps⟩ := steps
    exact ih (stays _ _ inside step) steps

/-- Where no step goes back, as many steps are enough as there are places in between. -/
theorem Steps.shorten (forward : ∀ i j, R i j → i ≤ j) (steps : Steps R n i j) :
    ∃ count ≤ j - i, Steps R count i j := by
  induction n generalizing i with
  | zero => exact ⟨0, Nat.zero_le _, steps⟩
  | succ n ih =>
    obtain ⟨next, step, steps⟩ := steps
    obtain ⟨count, few, shorter⟩ := ih steps
    rcases Nat.eq_or_lt_of_le (forward _ _ step) with rfl | moves
    · exact ⟨count, few, shorter⟩
    · have onward := shorter.forward forward
      exact ⟨count + 1, by omega, next, step, shorter⟩

/-! ## Repetitions -/

/-- Whether a repetition may be taken so often.  Where the bounds cross, the lower one holds. -/
def Allows (least : Nat) (most : Option Nat) (count : Nat) : Prop :=
  least ≤ count ∧ ∀ bound ∈ most, count ≤ max least bound

/-- A number of steps that a repetition allows. -/
def Repeats (R : Nat → Nat → Prop) (least : Nat) (most : Option Nat) (i j : Nat) : Prop :=
  ∃ count, Allows least most count ∧ Steps R count i j

/-- Repetitions one after another are steps one after another. -/
theorem Steps.flatten {least : Nat} {most : Option Nat} {count : Nat}
    (steps : Steps (Repeats R least most) count i j) :
    ∃ total, count * least ≤ total ∧ (∀ bound ∈ most, total ≤ count * max least bound) ∧
      Steps R total i j := by
  induction count generalizing i with
  | zero => exact ⟨0, by simp, by simp, steps⟩
  | succ count ih =>
    obtain ⟨next, ⟨first, ⟨enough, within⟩, front⟩, steps⟩ := steps
    obtain ⟨total, total_enough, total_within, back⟩ := ih steps
    refine ⟨first + total, ?_, ?_, steps_add.mpr ⟨next, front, back⟩⟩
    · rw [Nat.succ_mul]
      omega
    · intro bound given
      have first_within := within bound given
      have rest_within := total_within bound given
      rw [Nat.succ_mul]
      omega

theorem plain_cases {least : Nat} {most : Option Nat} (plain : Layout.isPlain least most = true) :
    least ≤ 1 ∧ (most = none ∨ most = some 1) := by
  obtain ⟨few, bound⟩ := (Bool.and_eq_true _ _).mp plain
  refine ⟨of_decide_eq_true few, ?_⟩
  cases most with
  | none => exact .inl rfl
  | some most => exact .inr (congrArg some (beq_iff_eq.mp bound))

/-- A plain repetition of a plain one is one repetition. -/
theorem repeats_repeats {least least' : Nat} {most most' : Option Nat}
    (plain : Layout.isPlain least most = true) (plain' : Layout.isPlain least' most' = true) :
    Repeats (Repeats R least' most') least most i j ↔
      Repeats R (least * least') (if most.isNone || most'.isNone then none else some 1) i j := by
  obtain ⟨few, most_cases⟩ := plain_cases plain
  obtain ⟨few', most_cases'⟩ := plain_cases plain'
  constructor
  · rintro ⟨count, ⟨enough, within⟩, steps⟩
    obtain ⟨total, total_enough, total_within, steps⟩ := steps.flatten
    have least_le : least * least' ≤ count * least' := Nat.mul_le_mul_right least' enough
    refine ⟨total, ⟨Nat.le_trans least_le total_enough, ?_⟩, steps⟩
    rcases most_cases with rfl | rfl
    · exact nofun
    rcases most_cases' with rfl | rfl
    · exact nofun
    intro bound given
    cases given
    have count_le := within 1 rfl
    have total_le := total_within 1 rfl
    rw [Nat.max_eq_right few] at count_le
    rw [Nat.max_eq_right few', Nat.mul_one] at total_le
    omega
  · rintro ⟨total, ⟨enough, within⟩, steps⟩
    by_cases at_once : Allows least' most' total
    · -- all of them in one round
      refine ⟨1, ⟨few, fun bound given => ?_⟩, steps_one.mpr ⟨total, at_once, steps⟩⟩
      rcases most_cases with rfl | rfl
      · cases given
      · cases given
        exact Nat.le_max_right _ _
    · -- one of them in each round
      have each : Steps (Repeats R least' most') total i j := by
        refine steps.mono fun i j step => ⟨1, ⟨few', fun bound given => ?_⟩, steps_one.mpr step⟩
        rcases most_cases' with rfl | rfl
        · cases given
        · cases given
          exact Nat.le_max_right _ _
      refine ⟨total, ?_, each⟩
      by_cases nothing : total = 0
      · have least_zero : least = 0 := by
          refine Nat.eq_zero_of_not_pos fun taken => ?_
          obtain rfl : least = 1 := Nat.le_antisymm few taken
          exact at_once ⟨by omega, fun _ _ => by omega⟩
        exact ⟨by omega, fun _ _ => by omega⟩
      · rcases most_cases' with rfl | rfl
        · exact absurd ⟨by omega, nofun⟩ at_once
        have several : 1 < total :=
          Nat.lt_of_not_le fun one => at_once ⟨by omega, fun _ given => by cases given; omega⟩
        rcases most_cases with rfl | rfl
        · exact ⟨by omega, nofun⟩
        have total_le := within 1 rfl
        have product_le : least * least' ≤ 1 := Nat.mul_le_mul few few'
        omega

end Steps

/-! ## Sets of places -/

section Sets

variable {R : Nat → Nat → Prop} {step : Nat → Nat} {last : Nat}

/-- Whether no place of a set is behind the end of a text. -/
def Placed (last places : Nat) : Prop := ∀ i, places.testBit i = true → i ≤ last

theorem Placed.or {left right : Nat} (left_placed : Placed last left)
    (right_placed : Placed last right) : Placed last (left ||| right) := by
  intro i listed
  rw [Nat.testBit_or, Bool.or_eq_true] at listed
  exact listed.elim (left_placed i) (right_placed i)

/-- A step between sets of places goes to just the places that a relation leads to. -/
structure Follows (last : Nat) (step : Nat → Nat) (R : Nat → Nat → Prop) : Prop where
  forward : ∀ i j, R i j → i ≤ j
  stays : ∀ i j, i ≤ last → R i j → j ≤ last
  reaches : ∀ places, Placed last places →
    ∀ j, (step places).testBit j = true ↔ ∃ i, places.testBit i = true ∧ R i j

namespace Follows

theorem placed (follows : Follows last step R) {places : Nat} (inside : Placed last places) :
    Placed last (step places) := by
  intro j listed
  obtain ⟨i, from_place, leads⟩ := (follows.reaches places inside j).mp listed
  exact follows.stays i j (inside i from_place) leads

theorem times_succ (count places : Nat) :
    Layout.times step (count + 1) places = Layout.times step count (step places) := by
  rw [Layout.times]
  split
  · rename_i same
    rw [same]
    cases count with
    | zero => rfl
    | succ count => rw [Layout.times, if_pos same]
  · rfl

theorem times_iff (follows : Follows last step R) (count : Nat) {places : Nat}
    (inside : Placed last places) (j : Nat) :
    (Layout.times step count places).testBit j = true ↔
      ∃ i, places.testBit i = true ∧ Steps R count i j := by
  induction count generalizing places with
  | zero =>
    constructor
    · intro listed
      exact ⟨j, listed, rfl⟩
    · rintro ⟨_, listed, rfl⟩
      exact listed
  | succ count ih =>
    rw [times_succ, ih (follows.placed inside)]
    constructor
    · rintro ⟨next, listed, steps⟩
      obtain ⟨i, from_place, leads⟩ := (follows.reaches places inside next).mp listed
      exact ⟨i, from_place, next, leads, steps⟩
    · rintro ⟨i, from_place, next, leads, steps⟩
      exact ⟨next, (follows.reaches places inside next).mpr ⟨i, from_place, leads⟩, steps⟩

/-- The places that are not among those left behind. -/
theorem testBit_fresh (left reached i : Nat) :
    (reached ^^^ (reached &&& left)).testBit i = true ↔
      reached.testBit i = true ∧ ¬left.testBit i = true := by
  rw [Nat.testBit_xor, Nat.testBit_and]
  cases reached.testBit i <;> cases left.testBit i <;> decide

/-- No step from the places left behind is missed, as long as where it leads has been reached. -/
theorem spread_iff (follows : Follows last step R) (count : Nat) {left reached : Nat}
    (inside : Placed last reached) (behind : ∀ i j, left.testBit i = true → R i j →
      reached.testBit j = true) (j : Nat) :
    (Layout.spread step count left reached).testBit j = true ↔
      ∃ more ≤ count, ∃ i, reached.testBit i = true ∧ Steps R more i j := by
  induction count generalizing left reached with
  | zero =>
    constructor
    · intro listed
      exact ⟨0, Nat.le_refl 0, j, listed, rfl⟩
    · rintro ⟨more, few, i, listed, steps⟩
      obtain rfl := Nat.le_zero.mp few
      exact steps ▸ listed
  | succ count ih =>
    rw [Layout.spread]
    generalize fresh_is : reached ^^^ (reached &&& left) = fresh
    have fresh_iff (i : Nat) : fresh.testBit i = true ↔
        reached.testBit i = true ∧ ¬left.testBit i = true := by
      rw [← fresh_is]
      exact testBit_fresh left reached i
    have fresh_inside : Placed last fresh := fun i listed => inside i ((fresh_iff i).mp listed).1
    have from_fresh (j : Nat) := follows.reaches fresh fresh_inside j
    split
    · rename_i none_fresh
      -- every place has been left behind, so no step leads anywhere new
      have closed (i j : Nat) (listed : reached.testBit i = true) (step : R i j) :
          reached.testBit j = true := by
        refine behind i j ?_ step
        refine Decidable.byContradiction fun not_left => ?_
        have is_fresh := (fresh_iff i).mpr ⟨listed, not_left⟩
        rw [none_fresh, Nat.zero_testBit] at is_fresh
        cases is_fresh
      constructor
      · intro listed
        exact ⟨0, Nat.zero_le _, j, listed, rfl⟩
      · rintro ⟨more, -, i, listed, steps⟩
        induction more generalizing i with
        | zero => exact steps ▸ listed
        | succ more again =>
          obtain ⟨next, step, steps⟩ := steps
          exact again next (closed i next listed step) steps
    · have onward : Placed last (reached ||| step fresh) := inside.or (follows.placed fresh_inside)
      have onward_iff (i : Nat) : (reached ||| step fresh).testBit i = true ↔
          reached.testBit i = true ∨ (step fresh).testBit i = true := by
        rw [Nat.testBit_or, Bool.or_eq_true]
      rw [ih onward]
      · constructor
        · rintro ⟨more, few, i, listed, steps⟩
          rcases (onward_iff i).mp listed with here | there
          · exact ⟨more, Nat.le_succ_of_le few, i, here, steps⟩
          · obtain ⟨before, is_fresh, leads⟩ := (from_fresh i).mp there
            exact ⟨more + 1, Nat.succ_le_succ few, before, ((fresh_iff before).mp is_fresh).1,
              i, leads, steps⟩
        · rintro ⟨more, few, i, listed, steps⟩
          cases more with
          | zero => exact ⟨0, Nat.zero_le _, i, (onward_iff i).mpr (.inl listed), steps⟩
          | succ more =>
            obtain ⟨next, step, steps⟩ := steps
            refine ⟨more, Nat.le_of_succ_le_succ few, next, (onward_iff next).mpr ?_, steps⟩
            by_cases left_behind : left.testBit i = true
            · exact .inl (behind i next left_behind step)
            · have is_fresh := (fresh_iff i).mpr ⟨listed, left_behind⟩
              exact .inr ((from_fresh next).mpr ⟨i, is_fresh, step⟩)
      · intro i j left_behind step
        rw [Nat.testBit_or, Bool.or_eq_true] at left_behind
        rw [onward_iff]
        rcases left_behind with before | now
        · exact .inl (behind i j before step)
        · exact .inr ((from_fresh j).mpr ⟨i, now, step⟩)

end Follows

end Sets

/-! ## Layouts -/

namespace Layout

def Leads : Layout → Nat → Nat → Prop
  | .empty, i, j => i = j
  | .one places, i, j => places.testBit i = true ∧ j = i + 1
  | .here places, i, j => places.testBit i = true ∧ i = j
  | .seq first rest, i, k => ∃ j, first.Leads i j ∧ rest.Leads j k
  | .alt first rest, i, j => first.Leads i j ∨ rest.Leads i j
  | .repeated body least most, i, j => Repeats body.Leads least most i j

/-- Whether the layout takes characters only where there are some. -/
def Fits (last : Nat) : Layout → Prop
  | .empty | .here _ => True
  | .one places => ∀ i, places.testBit i = true → i < last
  | .seq first rest | .alt first rest => first.Fits last ∧ rest.Fits last
  | .repeated body _ _ => body.Fits last

theorem repetition_leads (body : Layout) (least : Nat) (most : Option Nat) (i j : Nat) :
    (body.repetition least most).Leads i j ↔ Repeats body.Leads least most i j := by
  unfold repetition
  split
  · rename_i inner least' most'
    split
    · rename_i plain
      obtain ⟨outer, inside⟩ := (Bool.and_eq_true _ _).mp plain
      exact (repeats_repeats outer inside).symm
    · exact Iff.rfl
  · exact Iff.rfl

theorem repetition_fits {last : Nat} {body : Layout} (fits : body.Fits last) (least : Nat)
    (most : Option Nat) : (body.repetition least most).Fits last := by
  unfold repetition
  split
  · split
    · exact fits
    · exact fits
  · exact fits

variable {last : Nat}

/-- How many steps a repetition takes at most after those that it has to take. -/
def extraSteps (last least : Nat) (most : Option Nat) : Nat :=
  match most with
  | some most => most - least
  | none => last + 1

/-- The steps after those that a repetition has to take are enough to get anywhere it leads to. -/
theorem repeats_iff {step : Nat → Nat} {R : Nat → Nat → Prop} (follows : Follows last step R)
    (least : Nat) (most : Option Nat) {i j : Nat} (inside : i ≤ last) :
    Repeats R least most i j ↔
      ∃ more ≤ extraSteps last least most, Steps R (least + more) i j := by
  cases most with
  | some most =>
    constructor
    · rintro ⟨count, ⟨enough, within⟩, steps⟩
      have bound := within most rfl
      refine ⟨count - least, ?_, ?_⟩
      · show count - least ≤ most - least
        omega
      · rwa [Nat.add_sub_cancel' enough]
    · rintro ⟨more, few, steps⟩
      refine ⟨least + more, ⟨Nat.le_add_right _ _, fun bound given => ?_⟩, steps⟩
      cases given
      have few : more ≤ most - least := few
      omega
  | none =>
    constructor
    · rintro ⟨count, ⟨enough, -⟩, steps⟩
      rw [← Nat.add_sub_cancel' enough] at steps
      obtain ⟨middle, front, back⟩ := steps_add.mp steps
      obtain ⟨more, few, shorter⟩ := back.shorten follows.forward
      have middle_inside := front.stays follows.stays inside
      have end_inside := back.stays follows.stays middle_inside
      refine ⟨more, ?_, steps_add.mpr ⟨middle, front, shorter⟩⟩
      show more ≤ last + 1
      omega
    · rintro ⟨more, -, steps⟩
      exact ⟨least + more, ⟨Nat.le_add_right _ _, nofun⟩, steps⟩

theorem advance_repeated (body : Layout) (least : Nat) (most : Option Nat) (places : Nat) :
    (Layout.repeated body least most).advance last places =
      match least with
      | 0 => spread (body.advance last) (extraSteps last 0 most) 0 places
      | fewer + 1 =>
        spread (body.advance last) (extraSteps last (fewer + 1) most)
          (times (body.advance last) fewer places)
          (body.advance last (times (body.advance last) fewer places)) := by
  cases least <;> rfl

theorem advance_repeated_iff {body : Layout} {R : Nat → Nat → Prop}
    (follows : Follows last (body.advance last) R) (least : Nat) (most : Option Nat) {places : Nat}
    (inside : Placed last places) (j : Nat) :
    ((Layout.repeated body least most).advance last places).testBit j = true ↔
      ∃ i, places.testBit i = true ∧ Repeats R least most i j := by
  have counted : (∃ i, places.testBit i = true ∧ Repeats R least most i j) ↔
      ∃ more ≤ extraSteps last least most, ∃ i, places.testBit i = true ∧
        Steps R (least + more) i j := by
    constructor
    · rintro ⟨i, listed, repeats⟩
      obtain ⟨more, few, steps⟩ := (repeats_iff follows least most (inside i listed)).mp repeats
      exact ⟨more, few, i, listed, steps⟩
    · rintro ⟨more, few, i, listed, steps⟩
      exact ⟨i, listed, (repeats_iff follows least most (inside i listed)).mpr ⟨more, few, steps⟩⟩
  rw [counted, advance_repeated]
  cases least with
  | zero =>
    simp only [Nat.zero_add]
    refine follows.spread_iff _ inside (fun i j listed => ?_) j
    rw [Nat.zero_testBit] at listed
    cases listed
  | succ fewer =>
    have start_iff := follows.times_iff fewer inside
    have start_inside : Placed last (times (body.advance last) fewer places) := by
      intro i listed
      obtain ⟨first, from_place, steps⟩ := (start_iff i).mp listed
      exact steps.stays follows.stays (inside first from_place)
    have next_iff := follows.reaches _ start_inside
    rw [follows.spread_iff _ (follows.placed start_inside) fun i j listed step =>
      (next_iff j).mpr ⟨i, listed, step⟩]
    constructor
    · rintro ⟨more, few, next, listed, back⟩
      obtain ⟨middle, at_start, step⟩ := (next_iff next).mp listed
      obtain ⟨i, from_place, front⟩ := (start_iff middle).mp at_start
      have through : Steps R (fewer + 1) i next := steps_add.mpr ⟨middle, front, steps_one.mpr step⟩
      exact ⟨more, few, i, from_place, steps_add.mpr ⟨next, through, back⟩⟩
    · rintro ⟨more, few, i, from_place, steps⟩
      obtain ⟨next, through, back⟩ := steps_add.mp steps
      obtain ⟨middle, front, step⟩ := steps_add.mp through
      have at_start := (start_iff middle).mpr ⟨i, from_place, front⟩
      exact ⟨more, few, next, (next_iff next).mpr ⟨middle, at_start, steps_one.mp step⟩, back⟩

/-- **A layout arrives at just the places that it leads to.** -/
theorem advance_follows {layout : Layout} (fits : layout.Fits last) :
    Follows last (layout.advance last) layout.Leads := by
  induction layout with
  | empty =>
    refine ⟨fun i j => Nat.le_of_eq, fun i j inside same => same ▸ inside, fun places _ j => ?_⟩
    exact ⟨fun listed => ⟨j, listed, rfl⟩, fun ⟨_, listed, same⟩ => same ▸ listed⟩
  | one allowed =>
    refine ⟨?_, ?_, fun places _ j => ?_⟩
    · rintro i j ⟨-, rfl⟩
      exact Nat.le_succ i
    · rintro i j - ⟨taken, rfl⟩
      exact fits i taken
    · rw [advance, Nat.testBit_shiftLeft, Nat.testBit_and]
      simp only [Bool.and_eq_true, decide_eq_true_eq]
      constructor
      · rintro ⟨moved, listed, taken⟩
        exact ⟨j - 1, listed, taken, (Nat.sub_add_cancel moved).symm⟩
      · rintro ⟨i, listed, taken, rfl⟩
        exact ⟨Nat.le_add_left 1 i, listed, taken⟩
  | here allowed =>
    refine ⟨?_, ?_, fun places _ j => ?_⟩
    · rintro i j ⟨-, same⟩
      exact Nat.le_of_eq same
    · rintro i j inside ⟨-, same⟩
      exact same ▸ inside
    · rw [advance, Nat.testBit_and, Bool.and_eq_true]
      constructor
      · rintro ⟨listed, held⟩
        exact ⟨j, listed, held, rfl⟩
      · rintro ⟨i, listed, held, rfl⟩
        exact ⟨listed, held⟩
  | seq first rest first_ih rest_ih =>
    have follows := first_ih fits.1
    have follows' := rest_ih fits.2
    refine ⟨?_, ?_, fun places inside k => ?_⟩
    · rintro i k ⟨j, front, back⟩
      exact Nat.le_trans (follows.forward i j front) (follows'.forward j k back)
    · rintro i k inside ⟨j, front, back⟩
      exact follows'.stays j k (follows.stays i j inside front) back
    · rw [advance, follows'.reaches _ (follows.placed inside)]
      constructor
      · rintro ⟨j, listed, back⟩
        obtain ⟨i, from_place, front⟩ := (follows.reaches places inside j).mp listed
        exact ⟨i, from_place, j, front, back⟩
      · rintro ⟨i, from_place, j, front, back⟩
        exact ⟨j, (follows.reaches places inside j).mpr ⟨i, from_place, front⟩, back⟩
  | alt first rest first_ih rest_ih =>
    have follows := first_ih fits.1
    have follows' := rest_ih fits.2
    refine ⟨?_, ?_, fun places inside j => ?_⟩
    · rintro i j (here | there)
      · exact follows.forward i j here
      · exact follows'.forward i j there
    · rintro i j inside (here | there)
      · exact follows.stays i j inside here
      · exact follows'.stays i j inside there
    · rw [advance, Nat.testBit_or, Bool.or_eq_true, follows.reaches places inside,
        follows'.reaches places inside]
      simp only [Leads, and_or_left, exists_or]
  | repeated body least most ih =>
    have follows := ih fits
    refine ⟨?_, ?_, fun places inside j => advance_repeated_iff follows least most inside j⟩
    · rintro i j ⟨count, -, steps⟩
      exact steps.forward follows.forward
    · rintro i j inside ⟨count, -, steps⟩
      exact steps.stays follows.stays inside

end Layout

end Proviso
