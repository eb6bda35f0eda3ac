import IntentPlan.Assoc

/-! # Data

The values of data files, step parameters and architectures.
-/

namespace IntentPlan

inductive Datum where
  | null
  | bool (b : Bool)
  | int (n : Int)
  | float (x : Float)
  | str (s : String)
  | list (items : List Datum)
  | map (fields : List (String × Datum))
deriving Repr, Inhabited

namespace Datum

/-- The word for the kind of a datum in messages. -/
def kindName : Datum → String
  | .null => "NoneType"
  | .bool _ => "bool"
  | .int _ => "int"
  | .float _ => "float"
  | .str _ => "str"
  | .list _ => "list"
  | .map _ => "dict"

/-- Zeros, empty texts, lists and mappings, and null count as nothing. -/
def isTruthy : Datum → Bool
  | .null => false
  | .bool b => b
  | .int n => n != 0
  | .float x => !(x == 0.0)
  | .str s => !s.isEmpty
  | .list items => !items.isEmpty
  | .map fields => !fields.isEmpty

def strings (items : List String) : Datum := .list (items.map .str)

def ofOption {α : Type} (f : α → Datum) : Option α → Datum
  | none => .null
  | some a => f a

end Datum

end IntentPlan
