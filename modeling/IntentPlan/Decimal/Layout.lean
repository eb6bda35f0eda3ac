import IntentPlan.Decimal.Shortest

/-! # Texts of numbers -/

namespace IntentPlan.Decimal

/-- The decisions in the text of a float: the exponents of the leading digit that are written
positionally, and the words for what is not a number. -/
structure Layout where
  leastPositional : Int
  greatestPositional : Int
  exponentWidth : Nat
  infinity : String
  notANumber : String
deriving DecidableEq, Repr

/-- A positional text always has a point, an exponent a sign and two digits. -/
def Layout.plain : Layout := ⟨-4, 15, 2, "inf", "nan"⟩

/-- The same digits with the words of data files. -/
def Layout.data : Layout := { Layout.plain with infinity := "Infinity", notANumber := "NaN" }

def zeros (n : Nat) : List Char := List.replicate n '0'

/-- The digits of a number without the zeros at the end, and how many places of the decimal lie
before the point. -/
def Scientific.significant (s : Scientific) : List Char × Int :=
  let ds := Nat.toDigits 10 s.digits
  let kept := (ds.reverse.dropWhile (· == '0')).reverse
  if kept.isEmpty then (['0'], 1) else (kept, ds.length + s.exponent)

/-- A point after `before` of the digits. -/
def positional (ds : List Char) (before : Int) : List Char :=
  if before ≤ 0 then '0' :: '.' :: zeros (-before).toNat ++ ds
  else if ds.length ≤ before then ds ++ zeros (before.toNat - ds.length) ++ ['.', '0']
  else ds.take before.toNat ++ '.' :: ds.drop before.toNat

/-- One digit before the point, and the exponent after a mark. -/
def withExponent (width : Nat) (ds : List Char) (exponent : Int) : List Char :=
  let mantissa := match ds with
    | [] => []
    | [d] => [d]
    | d :: more => d :: '.' :: more
  let digits := Nat.toDigits 10 exponent.natAbs
  mantissa ++ 'e' :: (if exponent < 0 then '-' else '+') :: zeros (width - digits.length) ++ digits

def Layout.scientific (l : Layout) (s : Scientific) : List Char :=
  let (ds, before) := s.significant
  let exponent := before - 1
  if l.leastPositional ≤ exponent && exponent ≤ l.greatestPositional then positional ds before
  else withExponent l.exponentWidth ds exponent

def signed (negative : Bool) (s : String) : String := if negative then "-" ++ s else s

/-- The text of a float: the fewest digits that read back. -/
def Layout.float (l : Layout) (x : Float) : String :=
  match Binary.ofFloat x with
  | .notANumber => l.notANumber
  | .infinite negative => signed negative l.infinity
  | .finite negative mantissa exponent =>
    signed negative (String.ofList (l.scientific (shortest mantissa exponent)))

/-- The text of a float with a fixed number of decimal places. -/
def fixed (places : Nat) (x : Float) : String :=
  match Binary.ofFloat x with
  | .notANumber => Layout.plain.notANumber
  | .infinite negative => signed negative Layout.plain.infinity
  | .finite negative mantissa exponent =>
    let value := Fraction.ofBinary mantissa exponent
    let n := roundDiv (value.num * Nat.pow 10 places) value.den
    let ds := Nat.toDigits 10 n
    let padded := zeros (places + 1 - ds.length) ++ ds
    let whole := padded.length - places
    signed negative (String.ofList (padded.take whole ++ '.' :: padded.drop whole))

end IntentPlan.Decimal
