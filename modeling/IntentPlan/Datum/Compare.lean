import IntentPlan.Datum
import IntentPlan.Decimal.Binary
import IntentPlan.Sorting

/-! # Comparing data

Numbers are compared by their exact values, whatever their kind, texts by their characters, and
lists by their items.
-/

namespace IntentPlan.Datum

open IntentPlan.Decimal

/-- The exact value of a number. -/
inductive Magnitude where
  | finite (num : Int) (den : Nat)
  | infinite (negative : Bool)
  | notANumber
deriving DecidableEq, Repr

namespace Magnitude

def ofInt (n : Int) : Magnitude := .finite n 1

def ofFloat (x : Float) : Magnitude :=
  match Binary.ofFloat x with
  | .notANumber => .notANumber
  | .infinite negative => .infinite negative
  | .finite negative mantissa exponent =>
    let value := Fraction.ofBinary mantissa exponent
    .finite (if negative then -(value.num : Int) else value.num) value.den

def less : Magnitude → Magnitude → Bool
  | .finite a d, .finite b e => a * e < b * d
  | .finite _ _, .infinite negative => !negative
  | .infinite negative, .finite _ _ => negative
  | .infinite a, .infinite b => a && !b
  | .notANumber, _ | _, .notANumber => false

/-- What is not a number is the same as itself only. -/
def same : Magnitude → Magnitude → Bool
  | .finite a d, .finite b e => a * e == b * d
  | .infinite a, .infinite b => a == b
  | .notANumber, .notANumber => true
  | _, _ => false

end Magnitude

def magnitude? : Datum → Option Magnitude
  | .bool b => some (.ofInt b.toNat)
  | .int n => some (.ofInt n)
  | .float x => some (.ofFloat x)
  | _ => none

mutual

/-- Whether two data are the same.  Mappings may have their keys in any order. -/
def same : Datum → Datum → Bool
  | .null, .null => true
  | .str a, .str b => a == b
  | .list as, .list bs => sameItems as bs
  | .map as, .map bs => as.length == bs.length && sameFields as bs
  | a, b =>
    match a.magnitude?, b.magnitude? with
    | some m, some n => m.same n
    | _, _ => false

def sameItems : List Datum → List Datum → Bool
  | [], [] => true
  | a :: as, b :: bs => same a b && sameItems as bs
  | _, _ => false

/-- Whether all fields stand in a mapping as well. -/
def sameFields : List (String × Datum) → Assoc Datum → Bool
  | [], _ => true
  | (key, a) :: rest, fields =>
    (match Assoc.get? key fields with
      | some b => same a b
      | none => false) && sameFields rest fields

end

/-- Two kinds of data that have no order. -/
structure OrderFault where
  left : String
  right : String
deriving DecidableEq, Repr

def OrderFault.message (e : OrderFault) : String :=
  s!"'<' not supported between instances of '{e.left}' and '{e.right}'"

mutual

/-- Whether one datum comes before another.  Numbers, texts and lists have an order among
themselves. -/
def less : Datum → Datum → Except OrderFault Bool
  | .str a, .str b => .ok (decide (a < b))
  | .list as, .list bs => lessItems as bs
  | a, b =>
    match a.magnitude?, b.magnitude? with
    | some m, some n => .ok (m.less n)
    | _, _ => .error ⟨a.kindName, b.kindName⟩

/-- The first items that are not the same decide. -/
def lessItems : List Datum → List Datum → Except OrderFault Bool
  | [], bs => .ok (!bs.isEmpty)
  | _ :: _, [] => .ok false
  | a :: as, b :: bs => if same a b then lessItems as bs else less a b

end

/-- Values in the order of their keys; those with equal keys stay in the order they have. -/
def sortByKey {α : Type} (pairs : List (Datum × α)) : Except OrderFault (List (Datum × α)) :=
  Sorting.sort (fun a b => a.1.less b.1) pairs

end IntentPlan.Datum
