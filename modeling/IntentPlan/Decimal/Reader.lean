import IntentPlan.Decimal.Binary
import IntentPlan.Text.Blank
import IntentPlan.Text.Digit

/-! # Reading numbers from texts

Blanks around a number are passed over, digits may be of any script, and single underscores may
stand between digits.
-/

namespace IntentPlan.Decimal

open IntentPlan.Text

/-- The digit of the Latin script with the same value. -/
def latinDigit (c : Char) : Char :=
  match digitValue? c with
  | some d => Char.ofNat ('0'.toNat + d)
  | none => c

/-- The text without its underscores, if each of them stands between two digits.  The character
before the text is `before`. -/
def dropUnderscores? (before : Char) : List Char → Option (List Char)
  | [] => some []
  | '_' :: c :: rest =>
    if before.isDigit && c.isDigit then (dropUnderscores? c rest).map (c :: ·) else none
  | ['_'] => none
  | c :: rest => (dropUnderscores? c rest).map (c :: ·)

/-- The blanks that may stand around a number.  The separator controls are none of them. -/
def isMargin (c : Char) : Bool := isBlank c && !inSpans [(0x1C, 0x1F)] c.toNat

/-- The bare characters of a number. -/
def numeral? (s : String) : Option (List Char) :=
  let inner := ((s.toList.dropWhile isMargin).reverse.dropWhile isMargin).reverse
  dropUnderscores? ' ' (inner.map latinDigit)

/-- A sign in front, and what follows it. -/
def splitSign : List Char → Bool × List Char
  | '-' :: rest => (true, rest)
  | '+' :: rest => (false, rest)
  | cs => (false, cs)

def digitsValue (ds : List Char) : Nat := ds.foldl (fun n d => 10 * n + (d.toNat - '0'.toNat)) 0

/-- Why a text is not a whole number. -/
inductive IntFault where
  | malformed
  | tooLong (digits : Nat)
deriving DecidableEq, Repr

/-- The greatest number of digits of a whole number that is read or written. -/
def digitLimit : Nat := 4300

def readInt (s : String) : Except IntFault Int :=
  match numeral? s with
  | none => .error .malformed
  | some cs =>
    let (negative, ds) := splitSign cs
    if ds.isEmpty || !ds.all Char.isDigit then .error .malformed
    else if digitLimit < ds.length then .error (.tooLong ds.length)
    else .ok (if negative then -(digitsValue ds : Int) else digitsValue ds)

/-- The float nearest to `digits · 10 ^ exponent`.  Far beyond the range of floats the power of ten
is not computed. -/
def floatOfScientific (digits : Nat) (exponent : Int) : Float :=
  if digits = 0 then 0.0
  else
    let leading := exponent + (Nat.toDigits 10 digits).length
    if 320 < leading then 1.0 / 0.0
    else if leading < -340 then 0.0
    else Float.ofScientific digits (exponent < 0) exponent.natAbs

/-- An exponent with its mark, or nothing. -/
def readExponent? : List Char → Option Int
  | [] => some 0
  | mark :: rest =>
    let (negative, ds) := splitSign rest
    if (mark = 'e' || mark = 'E') && !ds.isEmpty && ds.all Char.isDigit then
      some (if negative then -(digitsValue ds : Int) else digitsValue ds)
    else none

/-- An unsigned decimal with an optional point and an optional exponent. -/
def readUnsigned? (cs : List Char) : Option Float :=
  let whole := cs.takeWhile Char.isDigit
  let rest := cs.dropWhile Char.isDigit
  let (places, rest) := match rest with
    | '.' :: more => (more.takeWhile Char.isDigit, more.dropWhile Char.isDigit)
    | _ => ([], rest)
  if whole.isEmpty && places.isEmpty then none
  else (readExponent? rest).map fun exponent =>
    floatOfScientific (digitsValue (whole ++ places)) (exponent - places.length)

def readMagnitude? (cs : List Char) : Option Float :=
  let word := String.ofList (cs.map Char.toLower)
  if word = "inf" || word = "infinity" then some (1.0 / 0.0)
  else if word = "nan" then some (0.0 / 0.0)
  else readUnsigned? cs

def readFloat? (s : String) : Option Float := do
  let cs ← numeral? s
  let (negative, magnitude) := splitSign cs
  let x ← readMagnitude? magnitude
  return if negative then -x else x

end IntentPlan.Decimal
