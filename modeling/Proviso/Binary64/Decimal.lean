/- # Proviso.Binary64.Decimal -- doubles as decimal text

Reading rounds once: the numeral is an exact fraction of quanta, and the double is the one nearest
to it.  Two ways of writing are needed.  `Binary64.shortest` writes the fewest digits that read
back as the same double, and of those the nearest; it never uses an exponent.  `Binary64.fixed`
writes the exact value rounded to a number of places, a half going to the even digit.

All arithmetic is on naturals: the doubles that would read back as a given one are those between
the two half-way points to its neighbours, and both points are whole numbers of quarter quanta. -/
import Proviso.Binary64.Basic

namespace Proviso.Binary64

set_option autoImplicit false

/-! ## Reading -/

/-- The double nearest to `coefficient * 10 ^ exponent`.  Powers of ten far outside the range are
not computed. -/
def ofDecimal (format : FloatFormat) (negative : Bool) (coefficient : Nat) (exponent : Int) :
    Binary64 :=
  let magnitude : Int := (Nat.toDigits 10 coefficient).length + exponent
  if coefficient = 0 ∨ magnitude < -400 then zero negative
  else if 400 < magnitude then .infinite negative
  else match exponent with
    | .ofNat e => round format negative (coefficient * Nat.pow 10 e * quantaPerUnit) 1
    | .negSucc e => round format negative (coefficient * quantaPerUnit) (Nat.pow 10 (e + 1))

/-- The integer written by a run of digits with an optional sign. -/
def readExponent? (text : List Char) : Option Int :=
  let magnitude? (digits : List Char) : Option Nat :=
    if digits.isEmpty || !digits.all Char.isDigit then none
    else some (Nat.ofDigitChars 10 digits 0)
  match text with
  | '-' :: digits => (magnitude? digits).map fun n => -(n : Int)
  | '+' :: digits => (magnitude? digits).map fun n => (n : Int)
  | digits => (magnitude? digits).map fun n => (n : Int)

/-- Reads digits with an optional point and an optional exponent. -/
def readDigits? (format : FloatFormat) (negative : Bool) (text : List Char) : Option Binary64 :=
  let whole := text.takeWhile Char.isDigit
  let afterWhole := text.dropWhile Char.isDigit
  let (fraction, tail) := match afterWhole with
    | '.' :: rest => (rest.takeWhile Char.isDigit, rest.dropWhile Char.isDigit)
    | rest => ([], rest)
  if whole.isEmpty && fraction.isEmpty then none
  else
    let exponent? := match tail with
      | [] => some 0
      | mark :: rest => if mark = 'e' ∨ mark = 'E' then readExponent? rest else none
    exponent?.map fun exponent =>
      ofDecimal format negative (Nat.ofDigitChars 10 (whole ++ fraction) 0)
        (exponent - fraction.length)

/-- Reads a numeral: a sign, then digits or one of the words for infinity and NaN in any case. -/
def read? (format : FloatFormat) (text : List Char) : Option Binary64 :=
  let (negative, body) := match text with
    | '-' :: rest => (true, rest)
    | '+' :: rest => (false, rest)
    | rest => (false, rest)
  let word := String.ofList (body.map Char.toLower)
  if word = "inf" ∨ word = "infinity" then some (.infinite negative)
  else if word = "nan" then some .nan
  else readDigits? format negative body

/-! ## The fewest digits that read back -/

/-- The number of decimal digits of the whole part of `num / den`, or, below one, minus the number
of zeros that follow the point. -/
def decimalPoint (num den : Nat) : Int :=
  if den ≤ num then (Nat.toDigits 10 (num / den)).length
  else -(((Nat.toDigits 10 ((den - 1) / num)).length - 1 : Nat) : Int)

/-- A decimal that stands for a double: `coefficient * 10 ^ exponent`. -/
structure Decimal where
  coefficient : Nat
  exponent : Int
  deriving DecidableEq

/-- The decimals that read back as one double, in quarter quanta: from `low` to `high`, the ends
included when the double's significand is even. -/
structure ReadBack where
  low : Nat
  value : Nat
  high : Nat
  closed : Bool

/-- The half-way points around a positive number of quanta.  Just above a power of two the gap
below is half the gap above. -/
def ReadBack.ofQuanta (quanta : Nat) : ReadBack :=
  let spacing := FloatFormat.double.spacing quanta
  let gap := Nat.pow 2 spacing
  let low := if 0 < spacing ∧ quanta = Nat.pow 2 (52 + spacing) then 4 * quanta - gap
    else 4 * quanta - 2 * gap
  ⟨low, 4 * quanta, 4 * quanta + 2 * gap, quanta / gap % 2 == 0⟩

/-- The nearest multiple of `10 ^ exponent` that reads back, if one of the two multiples around the
value does; of two equally near ones the larger. -/
def ReadBack.onGrid? (range : ReadBack) (exponent : Int) : Option Nat :=
  let scale := Nat.pow 10 (-exponent).toNat
  let cell := 4 * quantaPerUnit * Nat.pow 10 exponent.toNat
  let below := range.value * scale / cell
  let rest := range.value * scale % cell
  let reaches (bound point : Nat) : Bool := bound < point || (range.closed && bound == point)
  let downOk := rest == 0 || reaches (range.low * scale) (below * cell)
  let upOk := reaches ((below + 1) * cell) (range.high * scale)
  if downOk && (!upOk || 2 * rest < cell) then some below
  else if upOk then some (below + 1)
  else none

/-- The first grid, from coarse to fine, that holds a decimal which reads back.  Seventeen digits
always suffice, so the search is over that many grids. -/
def ReadBack.search (range : ReadBack) (point : Int) : Nat → Nat → Option Decimal
  | 0, _ => none
  | left + 1, digits =>
    match range.onGrid? (point - digits) with
    | some coefficient => some ⟨coefficient, point - digits⟩
    | none => range.search point left (digits + 1)

/-- The decimal with the fewest digits that reads back as a positive number of quanta. -/
def shortestDecimal (quanta : Nat) : Decimal :=
  let range := ReadBack.ofQuanta quanta
  let point := decimalPoint quanta quantaPerUnit
  (range.search point 17 1).getD ⟨quanta * Nat.pow 10 1074 / quantaPerUnit, -1074⟩

/-! ## Positional notation -/

/-- Drops zeros that end a fraction. -/
def Decimal.trim (decimal : Decimal) : Nat → Decimal
  | 0 => decimal
  | fuel + 1 =>
    if decimal.exponent < 0 ∧ decimal.coefficient % 10 = 0 then
      Decimal.trim ⟨decimal.coefficient / 10, decimal.exponent + 1⟩ fuel
    else decimal

/-- A coefficient with its point moved left by `places`. -/
def pointed (coefficient places : Nat) : String :=
  let digits := Nat.toDigits 10 coefficient
  let padded := List.replicate (places + 1 - digits.length) '0' ++ digits
  let whole := padded.length - places
  String.ofList (padded.take whole) ++ "." ++ String.ofList (padded.drop whole)

/-- The decimal without an exponent, with no point when it is whole. -/
def Decimal.positional (decimal : Decimal) : String :=
  match (decimal.trim 17).exponent with
  | .ofNat zeros =>
    String.ofList (Nat.toDigits 10 (decimal.trim 17).coefficient ++ List.replicate zeros '0')
  | .negSucc places => pointed (decimal.trim 17).coefficient (places + 1)

def sign (negative : Bool) : String := if negative then "-" else ""

/-- The shortest text that reads back as the number, never with an exponent.  NaN has no sign. -/
def shortest : Binary64 → String
  | .nan => "NaN"
  | .infinite negative => sign negative ++ "inf"
  | .finite negative quanta _ =>
    sign negative ++ if quanta = 0 then "0" else (shortestDecimal quanta).positional

instance : ToString Binary64 := ⟨shortest⟩

/-- The exact value rounded to `places` decimal places, a half going to the even digit. -/
def fixed (places : Nat) : Binary64 → String
  | .nan => "NaN"
  | .infinite negative => sign negative ++ "inf"
  | .finite negative quanta _ =>
    sign negative ++ pointed (nearestEven (quanta * Nat.pow 10 places) quantaPerUnit) places

end Proviso.Binary64
