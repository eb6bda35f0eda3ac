import IntentPlan.Decimal.Binary

/-! # The fewest digits that read back -/

namespace IntentPlan.Decimal

/-- `digits · 10 ^ exponent`. -/
structure Scientific where
  digits : Nat
  exponent : Int
deriving DecidableEq, Repr

/-- The number of digits of a number, none for zero. -/
def digitCount (n : Nat) : Nat := if n = 0 then 0 else (Nat.toDigits 10 n).length

/-- The exponent of the leading decimal digit of a positive fraction. -/
def leadingExponent (v : Fraction) : Int :=
  if v.den ≤ v.num then (digitCount (v.num / v.den) : Int) - 1
  else -(digitCount ((v.den + v.num - 1) / v.num - 1) : Int)

/-- The reals that round to a float: from `low` to `high` over the denominator of `value`, the two
ends included if `closed`. -/
structure Interval where
  value : Fraction
  low : Nat
  high : Nat
  closed : Bool

/-- The interval of `mantissa · 2 ^ exponent`.  Below a power of two the floats stand twice as
close. -/
def Interval.ofBinary (mantissa : Nat) (exponent : Int) : Interval :=
  let unit := Fraction.ofBinary 1 (exponent - 2)
  let below := if mantissa = Nat.pow 2 52 && exponent > -1074 then 1 else 2
  { value := ⟨4 * mantissa * unit.num, unit.den⟩
    low := (4 * mantissa - below) * unit.num
    high := (4 * mantissa + 2) * unit.num
    closed := mantissa % 2 == 0 }

/-- A decimal scaled to the denominator of the interval: its numerator, and the power of ten that
the ends have to be multiplied with. -/
def Interval.scaled (i : Interval) (s : Scientific) : Nat × Nat :=
  if 0 ≤ s.exponent then (s.digits * Nat.pow 10 s.exponent.toNat * i.value.den, 1)
  else (s.digits * i.value.den, Nat.pow 10 (-s.exponent).toNat)

def Interval.holds (i : Interval) (s : Scientific) : Bool :=
  let (n, scale) := i.scaled s
  if i.closed then i.low * scale ≤ n && n ≤ i.high * scale
  else i.low * scale < n && n < i.high * scale

/-- The distance of a decimal from the value, in units that depend on the exponent alone. -/
def Interval.distance (i : Interval) (s : Scientific) : Nat :=
  let (n, scale) := i.scaled s
  let v := i.value.num * scale
  (n - v) + (v - n)

/-- The decimals of `count` digits on both sides of the value that read back, the better one of
them. -/
def Interval.atCount? (i : Interval) (count : Nat) : Option Scientific :=
  let exponent := leadingExponent i.value - count + 1
  let floor :=
    if 0 ≤ exponent then i.value.num / (i.value.den * Nat.pow 10 exponent.toNat)
    else i.value.num * Nat.pow 10 (-exponent).toNat / i.value.den
  let below : Scientific := ⟨floor, exponent⟩
  let above : Scientific := ⟨floor + 1, exponent⟩
  match i.holds below, i.holds above with
  | true, true =>
    if i.distance below < i.distance above then some below
    else if i.distance above < i.distance below then some above
    else if floor % 2 = 0 then some below else some above
  | true, false => some below
  | false, true => some above
  | false, false => none

/-- The nearest of the shortest decimals that read back as `mantissa · 2 ^ exponent`.  Seventeen
digits always suffice. -/
def shortest (mantissa : Nat) (exponent : Int) : Scientific :=
  if mantissa = 0 then ⟨0, 0⟩
  else
    let i := Interval.ofBinary mantissa exponent
    ((List.range 17).findSome? fun n => i.atCount? (n + 1)).getD ⟨0, 0⟩

end IntentPlan.Decimal
