/- # Proviso.Binary64.Basic -- doubles as whole numbers of quanta

A finite double is a whole number of quanta, the quantum being two to the power
-1074.  So a double is a sign and a natural number, its order is the order of
integers, and sums, products, quotients and remainders are computed exactly
before one rounding to nearest, ties to even, brings them back into the format.
The only place that makes a finite double is that rounding (`Binary64.round`),
and it carries the proof that what it makes is a double.

Nothing here uses machine floating point, so every operation can be unfolded. -/

namespace Proviso

set_option autoImplicit false

/-! ## Formats -/

/-- The magnitude of two to the power 1024, in quanta, as a power of two. -/
def doubleCeiling : Nat := 2098

/-- A binary interchange format whose finite values are doubles, measured in quanta. -/
structure FloatFormat where
  /-- Bits of a significand. -/
  precision : Nat
  /-- The least spacing of values is two to this power. -/
  grain : Nat
  /-- Magnitudes from two to this power on are infinite. -/
  ceiling : Nat
  precision_le : precision ≤ 53
  ceiling_le : ceiling ≤ doubleCeiling

/-- Double precision: 53 bits, spacing down to one quantum. -/
def FloatFormat.double : FloatFormat := ⟨53, 0, doubleCeiling, by omega, Nat.le_refl _⟩

/-- Single precision: 24 bits, spacing down to 2^-149. -/
def FloatFormat.single : FloatFormat := ⟨24, 925, 1202, by omega, by decide⟩

/-- How many quanta make one. -/
def quantaPerUnit : Nat := Nat.pow 2 1074

/-- The magnitudes from two to the power 1024 on, in quanta, are out of range. -/
def doubleLimit : Nat := Nat.pow 2 doubleCeiling

-- The powers are too large to be computed, so that the exponent is not to be seen.
theorem doubleLimit_pos : 0 < doubleLimit := by
  unfold doubleLimit
  generalize doubleCeiling = ceiling
  exact Nat.two_pow_pos ceiling

theorem two_pow_le_doubleLimit {exponent : Nat} (le : exponent ≤ doubleCeiling) :
    Nat.pow 2 exponent ≤ doubleLimit := by
  unfold doubleLimit
  generalize doubleCeiling = ceiling at le
  exact Nat.pow_le_pow_right (by omega) le

theorem FloatFormat.two_pow_ceiling_le (format : FloatFormat) :
    Nat.pow 2 format.ceiling ≤ doubleLimit :=
  two_pow_le_doubleLimit format.ceiling_le

/-- A number of quanta that a double can have: within range, with at most 53 significant bits. -/
def IsDouble (quanta : Nat) : Prop :=
  quanta < doubleLimit ∧ ∃ significand exponent, significand ≤ Nat.pow 2 53 ∧
    quanta = significand * Nat.pow 2 exponent

/-- A double-precision number; every NaN is the same one. -/
inductive Binary64 where
  | nan
  | infinite (negative : Bool)
  | finite (negative : Bool) (quanta : Nat) (isDouble : IsDouble quanta)
  deriving DecidableEq

/-! ## Rounding -/

/-- The quotient of two naturals rounded to the nearest one, a half to the even one. -/
def nearestEven (num den : Nat) : Nat :=
  let quotient := num / den
  let remainder := num % den
  if 2 * remainder < den then quotient
  else if den < 2 * remainder then quotient + 1
  else if quotient % 2 = 0 then quotient else quotient + 1

theorem nearestEven_le (num den : Nat) : nearestEven num den ≤ num / den + 1 := by
  simp only [nearestEven]
  split
  · omega
  · split
    · omega
    · split <;> omega

/-- The spacing exponent of a format at a magnitude whose whole part is `whole` quanta. -/
def FloatFormat.spacing (format : FloatFormat) (whole : Nat) : Nat :=
  max format.grain (whole.log2 + 1 - format.precision)

theorem FloatFormat.lt_spacing (format : FloatFormat) (whole : Nat) :
    whole < Nat.pow 2 (format.spacing whole + format.precision) := by
  have h : whole < 2 ^ (whole.log2 + 1) := Nat.lt_log2_self
  exact Nat.lt_of_lt_of_le h (Nat.pow_le_pow_right (by omega) (by
    simp only [FloatFormat.spacing]; omega))

/-- The multiple of the spacing that is nearest to `num / den` quanta. -/
def FloatFormat.roundQuanta (format : FloatFormat) (num den : Nat) : Nat :=
  let step := Nat.pow 2 (format.spacing (num / den))
  nearestEven num (den * step) * step

theorem FloatFormat.roundQuanta_significand (format : FloatFormat) (num den : Nat) :
    ∃ significand exponent, significand ≤ Nat.pow 2 53 ∧
      format.roundQuanta num den = significand * Nat.pow 2 exponent := by
  refine ⟨_, format.spacing (num / den), ?_, rfl⟩
  refine Nat.le_trans (nearestEven_le _ _) ?_
  have bound : num / den / 2 ^ format.spacing (num / den) < 2 ^ format.precision := by
    apply Nat.div_lt_of_lt_mul
    rw [← Nat.pow_add]
    exact format.lt_spacing _
  have width : 2 ^ format.precision ≤ 2 ^ 53 :=
    Nat.pow_le_pow_right (by omega) format.precision_le
  rw [Nat.pow_eq, Nat.pow_eq, ← Nat.div_div_eq_div_mul]
  omega

namespace Binary64

/-- The value of a format nearest to `num / den` quanta, infinite past the format's ceiling. -/
def round (format : FloatFormat) (negative : Bool) (num den : Nat) : Binary64 :=
  let quanta := format.roundQuanta num den
  if h : quanta < Nat.pow 2 format.ceiling then
    .finite negative quanta
      ⟨Nat.lt_of_lt_of_le h format.two_pow_ceiling_le, format.roundQuanta_significand num den⟩
  else .infinite negative

/-- The value of a format nearest to a double. -/
def roundTo (format : FloatFormat) : Binary64 → Binary64
  | .finite negative quanta _ => round format negative quanta 1
  | other => other

def zero (negative : Bool) : Binary64 :=
  .finite negative 0 ⟨doubleLimit_pos, 0, 0, Nat.zero_le _, by omega⟩

def ofInt (i : Int) : Binary64 :=
  round .double (decide (i < 0)) (i.natAbs * quantaPerUnit) 1

/-! ## Order -/

/-- The place of a number on the line, in quanta; the infinities lie just past the finite doubles.
NaN has no place. -/
def place? : Binary64 → Option Int
  | .nan => none
  | .infinite true => some (-doubleLimit)
  | .infinite false => some doubleLimit
  | .finite true quanta _ => some (-quanta)
  | .finite false quanta _ => some quanta

/-- Compares two numbers; there is no answer when one is NaN, and the zeros are equal. -/
def compare? (a b : Binary64) : Option Ordering :=
  match a.place?, b.place? with
  | some x, some y => some (compare x y)
  | _, _ => none

/-- Equality of numbers: NaN equals nothing, the zeros equal each other. -/
def eq (a b : Binary64) : Bool := a.compare? b == some .eq

/-- Whether the number is at most the other. -/
def le (a b : Binary64) : Bool :=
  match a.compare? b with
  | some .lt | some .eq => true
  | _ => false

def isZero : Binary64 → Bool
  | .finite _ quanta _ => quanta == 0
  | _ => false

/-! ## Arithmetic -/

def neg : Binary64 → Binary64
  | .nan => .nan
  | .infinite negative => .infinite !negative
  | .finite negative quanta h => .finite (!negative) quanta h

/-- A sum of finite numbers is exact before it is rounded; an exact zero is negative only when both
terms are. -/
def add : Binary64 → Binary64 → Binary64
  | .nan, _ | _, .nan => .nan
  | .infinite a, .infinite b => if a = b then .infinite a else .nan
  | .infinite a, .finite _ _ _ => .infinite a
  | .finite _ _ _, .infinite b => .infinite b
  | .finite a m _, .finite b n _ =>
    if a = b then round .double a (m + n) 1
    else if m = n then zero false
    else if n < m then round .double a (m - n) 1
    else round .double b (n - m) 1

def sub (a b : Binary64) : Binary64 := a.add b.neg

def mul : Binary64 → Binary64 → Binary64
  | .nan, _ | _, .nan => .nan
  | .infinite a, .infinite b => .infinite (a != b)
  | .infinite a, .finite b n _ => if n = 0 then .nan else .infinite (a != b)
  | .finite a m _, .infinite b => if m = 0 then .nan else .infinite (a != b)
  | .finite a m _, .finite b n _ => round .double (a != b) (m * n) quantaPerUnit

def div : Binary64 → Binary64 → Binary64
  | .nan, _ | _, .nan => .nan
  | .infinite _, .infinite _ => .nan
  | .infinite a, .finite b _ _ => .infinite (a != b)
  | .finite a _ _, .infinite b => zero (a != b)
  | .finite a m _, .finite b n _ =>
    if n = 0 then if m = 0 then .nan else .infinite (a != b)
    else round .double (a != b) (m * quantaPerUnit) n

/-- The remainder of division truncated toward zero; it has the sign of the dividend. -/
def rem : Binary64 → Binary64 → Binary64
  | .nan, _ | _, .nan => .nan
  | .infinite _, _ => .nan
  | .finite a m h, .infinite _ => .finite a m h
  | .finite a m _, .finite _ n _ => if n = 0 then .nan else round .double a (m % n) 1

instance : Neg Binary64 := ⟨neg⟩
instance : Add Binary64 := ⟨add⟩
instance : Sub Binary64 := ⟨sub⟩
instance : Mul Binary64 := ⟨mul⟩
instance : Div Binary64 := ⟨div⟩
instance : Mod Binary64 := ⟨rem⟩

end Binary64

end Proviso
