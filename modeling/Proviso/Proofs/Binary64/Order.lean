/- # Proviso.Proofs.Binary64.Order -- rounding keeps the order

Rounding to nearest never turns two magnitudes around: the smaller one does not become the larger
one (`FloatFormat.roundQuanta_mono`).  Where both have the same spacing this is so of the nearest
multiples.  Where the larger one has a wider spacing, a power of two lies between them, and neither
side crosses it.

So the doubles of integers are in the order of the integers, save that different integers may have
the same double (`Binary64.compare?_ofInt`). -/
import Proviso.Binary64.Basic

namespace Proviso

set_option autoImplicit false

/-! ## The nearest whole number -/

section

variable {num num' den bound : Nat}

/-- A quotient is rounded down up to a half, and up from a half on. -/
theorem nearestEven_cases (num den : Nat) :
    nearestEven num den = num / den ∧ 2 * (num % den) ≤ den ∨
      nearestEven num den = num / den + 1 ∧ den ≤ 2 * (num % den) := by
  simp only [nearestEven]
  split
  · exact .inl ⟨rfl, by omega⟩
  · split
    · exact .inr ⟨rfl, by omega⟩
    · split
      · exact .inl ⟨rfl, by omega⟩
      · exact .inr ⟨rfl, by omega⟩

/-- A quotient that is at least a whole number is not rounded below it. -/
theorem le_nearestEven (den_pos : 0 < den) (le : bound * den ≤ num) :
    bound ≤ nearestEven num den := by
  have quotient_ge : bound ≤ num / den := (Nat.le_div_iff_mul_le den_pos).mpr le
  rcases nearestEven_cases num den with ⟨down, -⟩ | ⟨up, -⟩ <;> omega

/-- A quotient that is at most a whole number is not rounded above it. -/
theorem nearestEven_le_of_le (den_pos : 0 < den) (le : num ≤ bound * den) :
    nearestEven num den ≤ bound := by
  have quotient_le : num / den ≤ bound := Nat.div_le_of_le_mul (by rwa [Nat.mul_comm])
  rcases nearestEven_cases num den with ⟨down, -⟩ | ⟨up, past_half⟩
  · rwa [down]
  · -- Above the bound nothing would be left to round up.
    have parts := Nat.div_add_mod num den
    have below : num / den ≠ bound := by
      intro same
      rw [same, Nat.mul_comm] at parts
      omega
    omega

theorem nearestEven_mono (le : num ≤ num') : nearestEven num den ≤ nearestEven num' den := by
  have quotient_le : num / den ≤ num' / den := Nat.div_le_div_right le
  have parts := Nat.div_add_mod num den
  have parts' := Nat.div_add_mod num' den
  by_cases same : num / den = num' / den
  · rw [same] at parts
    rcases nearestEven_cases num den with ⟨down, -⟩ | ⟨up, past_half⟩ <;>
      rcases nearestEven_cases num' den with ⟨down', to_half⟩ | ⟨up', -⟩
    · omega
    · omega
    · -- Both are at the half, so they are the same.
      have equal : num = num' := by omega
      exact Nat.le_of_eq (by rw [equal])
    · omega
  · rcases nearestEven_cases num den with ⟨down, -⟩ | ⟨up, -⟩ <;>
      rcases nearestEven_cases num' den with ⟨down', -⟩ | ⟨up', -⟩ <;> omega

end

/-! ## The nearest value of a format -/

theorem log2_mono {n n' : Nat} (le : n ≤ n') : n.log2 ≤ n'.log2 := by
  by_cases zero : n = 0
  · rw [zero, Nat.log2_zero]
    exact Nat.zero_le _
  · exact (Nat.le_log2 (by omega)).mpr (Nat.le_trans (Nat.log2_self_le zero) le)

namespace FloatFormat

variable {format : FloatFormat} {num num' den : Nat}

theorem spacing_mono (format : FloatFormat) {whole whole' : Nat} (le : whole ≤ whole') :
    format.spacing whole ≤ format.spacing whole' := by
  have logs := log2_mono le
  simp only [spacing]
  omega

/-- A magnitude that reaches a power of two is not rounded below it, if the power is a multiple of
the spacing there. -/
theorem two_pow_le_roundQuanta (den_pos : 0 < den) {exponent : Nat}
    (reaches : Nat.pow 2 exponent ≤ num / den) (spaced : format.spacing (num / den) ≤ exponent) :
    Nat.pow 2 exponent ≤ format.roundQuanta num den := by
  obtain ⟨more, rfl⟩ := Nat.exists_eq_add_of_le spaced
  have reached : 2 ^ more * (den * 2 ^ format.spacing (num / den)) ≤ num :=
    calc 2 ^ more * (den * 2 ^ format.spacing (num / den))
      _ = 2 ^ (format.spacing (num / den) + more) * den := by rw [Nat.pow_add]; ac_rfl
      _ ≤ num := (Nat.le_div_iff_mul_le den_pos).mp reaches
  have significand_ge := le_nearestEven (Nat.mul_pos den_pos (Nat.two_pow_pos _)) reached
  simp only [roundQuanta, Nat.pow_eq]
  rw [Nat.pow_add, Nat.mul_comm]
  exact Nat.mul_le_mul_right _ significand_ge

/-- A magnitude is rounded up to the next power of two at most. -/
theorem roundQuanta_le_two_pow (den_pos : 0 < den) :
    format.roundQuanta num den ≤ Nat.pow 2 (format.spacing (num / den) + format.precision) := by
  have below : num / den < 2 ^ (format.spacing (num / den) + format.precision) :=
    format.lt_spacing (num / den)
  have num_le : num ≤ 2 ^ format.precision * (den * 2 ^ format.spacing (num / den)) :=
    calc num
      _ ≤ 2 ^ (format.spacing (num / den) + format.precision) * den :=
        Nat.le_of_lt ((Nat.div_lt_iff_lt_mul den_pos).mp below)
      _ = 2 ^ format.precision * (den * 2 ^ format.spacing (num / den)) := by
        rw [Nat.pow_add]; ac_rfl
  have significand_le := nearestEven_le_of_le (Nat.mul_pos den_pos (Nat.two_pow_pos _)) num_le
  simp only [roundQuanta, Nat.pow_eq]
  rw [Nat.pow_add, Nat.mul_comm (2 ^ format.spacing _)]
  exact Nat.mul_le_mul_right _ significand_le

/-- A multiple of the spacing is not rounded. -/
theorem roundQuanta_of_dvd (divides : Nat.pow 2 (format.spacing (num / 1)) ∣ num) :
    format.roundQuanta num 1 = num := by
  simp only [roundQuanta, Nat.one_mul]
  obtain ⟨significand, factored⟩ := divides
  have step_pos : 0 < Nat.pow 2 (format.spacing (num / 1)) := Nat.two_pow_pos _
  generalize Nat.pow 2 (format.spacing (num / 1)) = step at factored step_pos ⊢
  have exact : num = significand * step := factored.trans (Nat.mul_comm _ _)
  have rounded : nearestEven num step = significand :=
    Nat.le_antisymm (nearestEven_le_of_le step_pos (Nat.le_of_eq exact))
      (le_nearestEven step_pos (Nat.le_of_eq exact.symm))
  rw [rounded, ← exact]

/-- **Rounding keeps the order of magnitudes.** -/
theorem roundQuanta_mono (format : FloatFormat) (positive : 0 < format.precision)
    (den_pos : 0 < den) (le : num ≤ num') :
    format.roundQuanta num den ≤ format.roundQuanta num' den := by
  have whole_le : num / den ≤ num' / den := Nat.div_le_div_right le
  have spacing_le := format.spacing_mono whole_le
  by_cases same : format.spacing (num / den) = format.spacing (num' / den)
  · simp only [roundQuanta, same]
    exact Nat.mul_le_mul_right _ (nearestEven_mono le)
  · -- The wider spacing is that of a power of two which only the larger magnitude reaches.
    have wider : format.spacing (num / den) < format.spacing (num' / den) := by omega
    have spacing_eq : format.spacing (num' / den) + format.precision =
        (num' / den).log2 + 1 := by
      simp only [spacing] at wider ⊢
      omega
    have reaches : 2 ^ (num' / den).log2 ≤ num' / den := by
      refine Nat.log2_self_le fun zero => same ?_
      have also_zero : num / den = 0 := Nat.eq_zero_of_le_zero (zero ▸ whole_le)
      rw [zero, also_zero]
    calc format.roundQuanta num den
      _ ≤ 2 ^ (format.spacing (num / den) + format.precision) := roundQuanta_le_two_pow den_pos
      _ ≤ 2 ^ (num' / den).log2 := Nat.pow_le_pow_right (by omega) (by omega)
      _ ≤ format.roundQuanta num' den := two_pow_le_roundQuanta den_pos reaches (by omega)

end FloatFormat

/-! ## Doubles of integers -/

namespace Binary64

/-- The magnitude of the double of a natural number; that of an infinity is just past the finite
doubles. -/
def magnitude (n : Nat) : Nat :=
  min (FloatFormat.double.roundQuanta (n * quantaPerUnit) 1) doubleLimit

theorem magnitude_mono {n n' : Nat} (le : n ≤ n') : magnitude n ≤ magnitude n' := by
  have rounded := FloatFormat.double.roundQuanta_mono (by decide) Nat.one_pos
    (Nat.mul_le_mul_right quantaPerUnit le)
  simp only [magnitude]
  omega

/-- The power is too large to be computed, so that its exponent is better not seen. -/
theorem exists_quantaPerUnit_eq :
    ∃ exponent, exponent = 1074 ∧ quantaPerUnit = Nat.pow 2 exponent := by
  obtain ⟨exponent, exponent_eq⟩ : ∃ exponent, exponent = 1074 := ⟨1074, rfl⟩
  refine ⟨exponent, exponent_eq, ?_⟩
  unfold quantaPerUnit
  rw [← exponent_eq]

theorem quantaPerUnit_pos : 0 < quantaPerUnit := by
  obtain ⟨exponent, -, unit_eq⟩ := exists_quantaPerUnit_eq
  rw [unit_eq]
  exact Nat.two_pow_pos exponent

/-- A magnitude is not rounded below its greatest power of two. -/
theorem two_pow_log2_le_roundQuanta {quanta : Nat} (positive : 0 < quanta) :
    Nat.pow 2 quanta.log2 ≤ FloatFormat.double.roundQuanta quanta 1 := by
  have reaches : Nat.pow 2 quanta.log2 ≤ quanta / 1 := by
    rw [Nat.div_one]
    exact Nat.log2_self_le (by omega)
  have spaced : FloatFormat.double.spacing (quanta / 1) ≤ quanta.log2 := by
    rw [Nat.div_one]
    show max 0 (quanta.log2 + 1 - 53) ≤ _
    omega
  exact FloatFormat.two_pow_le_roundQuanta Nat.one_pos reaches spaced

/-- Only the double of zero is at zero. -/
theorem magnitude_pos {n : Nat} (positive : 0 < n) : 0 < magnitude n := by
  have quanta_pos : 0 < n * quantaPerUnit := Nat.mul_pos positive quantaPerUnit_pos
  have rounded_pos := Nat.lt_of_lt_of_le (Nat.two_pow_pos _)
    (two_pow_log2_le_roundQuanta quanta_pos)
  have limit_pos := doubleLimit_pos
  simp only [magnitude]
  omega

theorem place?_finite (negative : Bool) (quanta : Nat) (isDouble : IsDouble quanta) :
    (finite negative quanta isDouble).place? =
      some (if negative then -(quanta : Int) else quanta) := by
  cases negative <;> rfl

theorem place?_infinite (negative : Bool) :
    (infinite negative).place? = some (if negative then -(doubleLimit : Int) else doubleLimit) := by
  cases negative <;> rfl

theorem two_pow_ceiling : Nat.pow 2 FloatFormat.double.ceiling = doubleLimit := by
  have same : FloatFormat.double.ceiling = doubleCeiling := rfl
  unfold doubleLimit
  generalize doubleCeiling = ceiling at same
  rw [same]

theorem doubleLimit_le_two_pow {exponent : Nat} (le : doubleCeiling ≤ exponent) :
    doubleLimit ≤ Nat.pow 2 exponent := by
  unfold doubleLimit
  generalize doubleCeiling = ceiling at le
  exact Nat.pow_le_pow_right Nat.two_pos le

theorem round_zero (negative : Bool) : round .double negative 0 1 = zero negative := by
  have none_left : FloatFormat.double.roundQuanta 0 1 = 0 :=
    FloatFormat.roundQuanta_of_dvd (Nat.dvd_zero _)
  have inside : FloatFormat.double.roundQuanta 0 1 < doubleLimit := none_left ▸ doubleLimit_pos
  unfold round zero
  rw [dif_pos (two_pow_ceiling ▸ inside)]
  simp only [none_left]

/-- What reaches the limit of finite doubles is rounded to an infinity. -/
theorem round_of_limit_le (negative : Bool) {quanta : Nat} (large : doubleLimit ≤ quanta) :
    round .double negative quanta 1 = .infinite negative := by
  have positive : 0 < quanta := Nat.lt_of_lt_of_le doubleLimit_pos large
  have reaches : doubleLimit ≤ FloatFormat.double.roundQuanta quanta 1 := by
    refine Nat.le_trans ?_ (two_pow_log2_le_roundQuanta positive)
    unfold doubleLimit at large ⊢
    generalize doubleCeiling = ceiling at large ⊢
    exact Nat.pow_le_pow_right Nat.two_pos ((Nat.le_log2 (by omega)).mpr large)
  unfold round
  rw [dif_neg (two_pow_ceiling ▸ Nat.not_lt.mpr reaches)]

/-- The place of the double of an integer. -/
def placeOfInt (i : Int) : Int := if i < 0 then -(magnitude i.natAbs : Int) else magnitude i.natAbs

/-- The double of an integer is at the magnitude of its size, on its side of zero. -/
theorem place?_ofInt (i : Int) : (ofInt i).place? = some (placeOfInt i) := by
  unfold ofInt round placeOfInt magnitude
  by_cases inside : FloatFormat.double.roundQuanta (i.natAbs * quantaPerUnit) 1 < doubleLimit
  · rw [dif_pos (two_pow_ceiling ▸ inside), Nat.min_eq_left (Nat.le_of_lt inside)]
    refine (place?_finite _ _ _).trans ?_
    simp only [decide_eq_true_eq]
  · rw [dif_neg (two_pow_ceiling ▸ inside), place?_infinite,
      Nat.min_eq_right (Nat.le_of_not_lt inside)]
    simp only [decide_eq_true_eq]

theorem placeOfInt_mono {i j : Int} (le : i ≤ j) : placeOfInt i ≤ placeOfInt j := by
  unfold placeOfInt
  by_cases negative : i < 0
  · by_cases also_negative : j < 0
    · have sizes := magnitude_mono (show j.natAbs ≤ i.natAbs by omega)
      simp only [negative, also_negative, if_true]
      omega
    · simp only [negative, also_negative, if_true, if_false]
      omega
  · have natural : ¬ j < 0 := by omega
    have sizes := magnitude_mono (show i.natAbs ≤ j.natAbs by omega)
    simp only [negative, natural, if_false]
    omega

/-- Only zero has its double at zero. -/
theorem placeOfInt_eq_zero {i : Int} (at_zero : placeOfInt i = 0) : i = 0 := by
  by_cases zero : i = 0
  · exact zero
  · have positive := magnitude_pos (show 0 < i.natAbs by omega)
    simp only [placeOfInt] at at_zero
    split at at_zero <;> omega

/-- Numbers are compared by their places. -/
theorem compare?_of_place? {a b : Binary64} {place place' : Int} (at_place : a.place? = some place)
    (at_place' : b.place? = some place') : a.compare? b = some (compare place place') := by
  rw [compare?, at_place, at_place']

/-- A place other than zero is on one side of it, at one distance. -/
theorem side_and_size {negative negative' : Bool} {size size' : Nat} {place : Int}
    (at_place : (if negative then -(size : Int) else size) = place)
    (also_at_place : (if negative' then -(size' : Int) else size') = place) (not_zero : place ≠ 0) :
    negative = negative' ∧ size = size' := by
  split at at_place <;> split at also_at_place
  · exact ⟨by simp only [*], by omega⟩
  · omega
  · omega
  · exact ⟨by simp only [*], by omega⟩

/-- Numbers at one place other than zero are the same. -/
theorem eq_of_place?_eq {a b : Binary64} {place : Int} (at_place : a.place? = some place)
    (also_at_place : b.place? = some place) (not_zero : place ≠ 0) : a = b := by
  cases a with
  | nan => cases at_place
  | infinite negative =>
    rw [place?_infinite, Option.some.injEq] at at_place
    cases b with
    | nan => cases also_at_place
    | infinite negative' =>
      rw [place?_infinite, Option.some.injEq] at also_at_place
      rw [(side_and_size at_place also_at_place not_zero).1]
    | finite negative' quanta isDouble =>
      rw [place?_finite, Option.some.injEq] at also_at_place
      exact absurd (side_and_size also_at_place at_place not_zero).2 (Nat.ne_of_lt isDouble.1)
  | finite negative quanta isDouble =>
    rw [place?_finite, Option.some.injEq] at at_place
    cases b with
    | nan => cases also_at_place
    | infinite negative' =>
      rw [place?_infinite, Option.some.injEq] at also_at_place
      exact absurd (side_and_size at_place also_at_place not_zero).2 (Nat.ne_of_lt isDouble.1)
    | finite negative' quanta' isDouble' =>
      rw [place?_finite, Option.some.injEq] at also_at_place
      obtain ⟨same, same_quanta⟩ := side_and_size at_place also_at_place not_zero
      subst same same_quanta
      rfl

theorem ofInt_eq_iff {i j : Int} : ofInt i = ofInt j ↔ placeOfInt i = placeOfInt j := by
  constructor
  · intro same
    have places := place?_ofInt i
    rw [same, place?_ofInt] at places
    exact (Option.some.inj places).symm
  · intro same
    by_cases at_zero : placeOfInt i = 0
    · rw [placeOfInt_eq_zero at_zero, placeOfInt_eq_zero (same.symm.trans at_zero)]
    · exact eq_of_place?_eq (place?_ofInt i) (by rw [place?_ofInt, same]) at_zero

/-- **The doubles of integers are in the order of the integers**, save that different integers may
have the same double. -/
theorem compare?_ofInt (i j : Int) :
    (ofInt i).compare? (ofInt j) = some (if ofInt i = ofInt j then .eq else compare i j) := by
  rw [compare?_of_place? (place?_ofInt i) (place?_ofInt j), Option.some.injEq]
  by_cases same : placeOfInt i = placeOfInt j
  · rw [if_pos (ofInt_eq_iff.mpr same), Int.compare_eq_eq]
    exact same
  · rw [if_neg (same ∘ ofInt_eq_iff.mp)]
    rcases Int.lt_trichotomy i j with less | equal | greater
    · have ordered := placeOfInt_mono (Int.le_of_lt less)
      rw [Int.compare_eq_lt.mpr less, Int.compare_eq_lt]
      omega
    · exact absurd (by rw [equal]) same
    · have ordered := placeOfInt_mono (Int.le_of_lt greater)
      rw [Int.compare_eq_gt.mpr greater, Int.compare_eq_gt]
      omega

/-- The double of an integer is at most that of another, if the integer is or if both have the same
double. -/
theorem le_ofInt_iff (i j : Int) : (ofInt i).le (ofInt j) = true ↔ i ≤ j ∨ ofInt i = ofInt j := by
  rw [le, compare?_ofInt]
  by_cases same : ofInt i = ofInt j
  · simp only [same, if_true, or_true]
  · rw [if_neg same]
    rcases Int.lt_trichotomy i j with less | equal | greater
    · simp only [Int.compare_eq_lt.mpr less, Int.le_of_lt less, true_or]
    · exact absurd (by rw [equal]) same
    · simp only [Int.compare_eq_gt.mpr greater, same, or_false]
      exact iff_of_false nofun (Int.not_le.mpr greater)

/-- Below two to the power 53, a natural number is a double. -/
theorem magnitude_of_lt {n : Nat} (small : n < Nat.pow 2 53) : magnitude n = n * quantaPerUnit := by
  obtain ⟨grain, grain_eq, unit_eq⟩ := exists_quantaPerUnit_eq
  have below : n * quantaPerUnit < Nat.pow 2 (53 + grain) :=
    calc n * quantaPerUnit
      _ < Nat.pow 2 53 * quantaPerUnit := Nat.mul_lt_mul_of_pos_right small quantaPerUnit_pos
      _ = Nat.pow 2 (53 + grain) := by rw [unit_eq]; exact (Nat.pow_add 2 53 grain).symm
  have spaced : FloatFormat.double.spacing (n * quantaPerUnit / 1) ≤ grain := by
    rw [Nat.div_one]
    show max 0 ((n * quantaPerUnit).log2 + 1 - 53) ≤ _
    by_cases zero : n * quantaPerUnit = 0
    · rw [zero, Nat.log2_zero]
      omega
    · have logarithm := (Nat.log2_lt zero).mpr below
      omega
  have divides : Nat.pow 2 (FloatFormat.double.spacing (n * quantaPerUnit / 1)) ∣
      n * quantaPerUnit := by
    refine Nat.dvd_mul_left_of_dvd (Nat.dvd_trans (Nat.pow_dvd_pow 2 spaced) ?_) n
    exact ⟨1, by rw [unit_eq]; exact (Nat.mul_one _).symm⟩
  have in_range : 53 + grain ≤ doubleCeiling := by
    simp only [doubleCeiling]
    omega
  have inside : n * quantaPerUnit < doubleLimit :=
    Nat.lt_of_lt_of_le below (two_pow_le_doubleLimit in_range)
  rw [magnitude, FloatFormat.roundQuanta_of_dvd divides, Nat.min_eq_left (Nat.le_of_lt inside)]

/-- Less than two to the power 53 from zero, different integers have different doubles. -/
theorem eq_of_ofInt_eq {i j : Int} (small : i.natAbs < Nat.pow 2 53)
    (small' : j.natAbs < Nat.pow 2 53) (same : ofInt i = ofInt j) : i = j := by
  by_cases at_zero : placeOfInt i = 0
  · rw [placeOfInt_eq_zero at_zero, placeOfInt_eq_zero ((ofInt_eq_iff.mp same).symm.trans at_zero)]
  · have places := ofInt_eq_iff.mp same
    have side (i : Int) : placeOfInt i =
        if decide (i < 0) then -(magnitude i.natAbs : Int) else magnitude i.natAbs := by
      simp only [placeOfInt, decide_eq_true_eq]
    obtain ⟨same_side, same_size⟩ :=
      side_and_size (side i).symm ((side j).symm.trans places.symm) at_zero
    rw [magnitude_of_lt small, magnitude_of_lt small'] at same_size
    have sizes : i.natAbs = j.natAbs := Nat.eq_of_mul_eq_mul_right quantaPerUnit_pos same_size
    rw [decide_eq_decide] at same_side
    omega

/-- There, an order of doubles is one of integers. -/
theorem le_or_same_iff {i j : Int} (small : i.natAbs < Nat.pow 2 53)
    (small' : j.natAbs < Nat.pow 2 53) : i ≤ j ∨ ofInt i = ofInt j ↔ i ≤ j := by
  constructor
  · rintro (le | same)
    · exact le
    · exact Int.le_of_eq (eq_of_ofInt_eq small small' same)
  · exact .inl

end Binary64

end Proviso
