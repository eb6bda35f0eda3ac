/-! # Floats as exact binary fractions -/

namespace IntentPlan.Decimal

/-- What a float stands for.  A finite one is `± mantissa · 2 ^ exponent`. -/
inductive Binary where
  | finite (negative : Bool) (mantissa : Nat) (exponent : Int)
  | infinite (negative : Bool)
  | notANumber
deriving DecidableEq, Repr

/-- A non-negative fraction. -/
structure Fraction where
  num : Nat
  den : Nat
deriving DecidableEq, Repr

/-- `n · 2 ^ e` as a fraction. -/
def Fraction.ofBinary (n : Nat) (e : Int) : Fraction :=
  if 0 ≤ e then ⟨n * Nat.pow 2 e.toNat, 1⟩ else ⟨n, Nat.pow 2 (-e).toNat⟩

def Binary.ofFloat (x : Float) : Binary :=
  let bits := x.toBits.toNat
  let negative := decide (Nat.pow 2 63 ≤ bits)
  let biased : Nat := bits / Nat.pow 2 52 % Nat.pow 2 11
  let fraction : Nat := bits % Nat.pow 2 52
  if biased = 2047 then
    if fraction = 0 then .infinite negative else .notANumber
  else if biased = 0 then .finite negative fraction (-1074)
  else .finite negative (Nat.pow 2 52 + fraction) (biased - 1075)

/-- The nearest whole number to a quotient, the even one of two equally near. -/
def roundDiv (num den : Nat) : Nat :=
  let whole := num / den
  let rest := num % den
  if 2 * rest < den then whole
  else if den < 2 * rest then whole + 1
  else whole + whole % 2

/-- A whole number as a float, if rounding does not lead past the greatest float. -/
def floatOfInt? (n : Int) : Option Float :=
  if n.natAbs < Nat.pow 2 1024 - Nat.pow 2 970 then some (Float.ofInt n) else none

/-- A float rounded to `places` decimal places. -/
def roundTo (places : Nat) (x : Float) : Float :=
  match Binary.ofFloat x with
  | .finite negative mantissa exponent =>
    let value := Fraction.ofBinary mantissa exponent
    let scaled := roundDiv (value.num * Nat.pow 10 places) value.den
    let rounded := Float.ofScientific scaled true places
    if negative then -rounded else rounded
  | _ => x

end IntentPlan.Decimal
