import IntentPlan.Datum.Literal

/-! # Data as numbers -/

namespace IntentPlan.Datum

open IntentPlan.Text IntentPlan.Decimal

/-- Why a datum is not a number. -/
inductive NumberFault where
  | notIntText (s : String)
  | tooManyDigits (digits : Nat)
  | notFloatText (s : String)
  | infinite
  | notANumber
  | beyondFloat
  | noInt (kind : String)
  | noFloat (kind : String)
  | unwritable (e : TextFault)
deriving DecidableEq, Repr

def NumberFault.message : NumberFault → String
  | .notIntText s =>
    "invalid literal for int() with base 10: " ++ String.ofList ((quoted s).toList.take 200)
  | .tooManyDigits digits =>
    s!"Exceeds the limit ({digitLimit} digits) for integer string conversion: " ++
      s!"value has {digits} digits; use sys.set_int_max_str_digits() to increase the limit"
  | .notFloatText s => "could not convert string to float: " ++ quoted s
  | .infinite => "cannot convert float infinity to integer"
  | .notANumber => "cannot convert float NaN to integer"
  | .beyondFloat => "int too large to convert to float"
  | .noInt kind =>
    s!"int() argument must be a string, a bytes-like object or a real number, not '{kind}'"
  | .noFloat kind => s!"float() argument must be a string or a real number, not '{kind}'"
  | .unwritable e => e.message

/-- The whole part of a float. -/
def wholePart (x : Float) : Except NumberFault Int :=
  match Binary.ofFloat x with
  | .notANumber => .error .notANumber
  | .infinite _ => .error .infinite
  | .finite negative mantissa exponent =>
    let value := Fraction.ofBinary mantissa exponent
    let whole : Int := value.num / value.den
    .ok (if negative then -whole else whole)

def toInt : Datum → Except NumberFault Int
  | .bool b => .ok b.toNat
  | .int n => .ok n
  | .float x => wholePart x
  | .str s =>
    match readInt s with
    | .ok n => .ok n
    | .error .malformed => .error (.notIntText s)
    | .error (.tooLong digits) => .error (.tooManyDigits digits)
  | d => .error (.noInt d.kindName)

def toFloat : Datum → Except NumberFault Float
  | .bool b => .ok (Float.ofNat b.toNat)
  | .int n =>
    match floatOfInt? n with
    | some x => .ok x
    | none => .error .beyondFloat
  | .float x => .ok x
  | .str s =>
    match readFloat? s with
    | some x => .ok x
    | none => .error (.notFloatText s)
  | d => .error (.noFloat d.kindName)

/-- Whether a datum is a number equal to a whole number. -/
def equalsInt (n : Int) : Datum → Bool
  | .bool b => n == b.toNat
  | .int m => n == m
  | .float x =>
    match Binary.ofFloat x with
    | .finite negative mantissa exponent =>
      let value := Fraction.ofBinary mantissa exponent
      n * value.den == (if negative then -(value.num : Int) else value.num)
    | _ => false
  | _ => false

end IntentPlan.Datum
