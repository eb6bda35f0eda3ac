import IntentPlan.Datum
import IntentPlan.Decimal.Layout
import IntentPlan.Decimal.Reader
import IntentPlan.Text.Quoted

/-! # The text of a datum -/

namespace IntentPlan.Datum

open IntentPlan.Text IntentPlan.Decimal

def bracketed (opening closing : String) (items : List String) : String :=
  opening ++ String.intercalate ", " items ++ closing

mutual

/-- A datum as it is written inside a message: texts are quoted. -/
def literal : Datum → String
  | .null => "None"
  | .bool true => "True"
  | .bool false => "False"
  | .int n => toString n
  | .float x => Layout.plain.float x
  | .str s => quoted s
  | .list items => bracketed "[" "]" (literalItems items)
  | .map fields => bracketed "\x7b" "\x7d" (literalFields fields)

def literalItems : List Datum → List String
  | [] => []
  | d :: rest => literal d :: literalItems rest

def literalFields : List (String × Datum) → List String
  | [] => []
  | (k, d) :: rest => (quoted k ++ ": " ++ literal d) :: literalFields rest

end

/-- A datum as a text of its own: a text stands for itself.  Data that were read from a text have no
number that is too long for this. -/
def display : Datum → String
  | .str s => s
  | d => literal d

mutual

/-- Whether a datum holds a whole number with too many digits. -/
def isOverlong : Datum → Bool
  | .int n => digitLimit < (Nat.toDigits 10 n.natAbs).length
  | .list items => someOverlong items
  | .map fields => someFieldOverlong fields
  | _ => false

def someOverlong : List Datum → Bool
  | [] => false
  | d :: rest => isOverlong d || someOverlong rest

def someFieldOverlong : List (String × Datum) → Bool
  | [] => false
  | (_, d) :: rest => isOverlong d || someFieldOverlong rest

end

/-- Why a datum has no text. -/
inductive TextFault where
  | tooManyDigits
deriving DecidableEq, Repr

def TextFault.message : TextFault → String
  | .tooManyDigits =>
    s!"Exceeds the limit ({digitLimit} digits) for integer string conversion; " ++
      "use sys.set_int_max_str_digits() to increase the limit"

/-- The text of a datum of any origin. -/
def text (d : Datum) : Except TextFault String :=
  if d.isOverlong then .error .tooManyDigits else .ok d.display

/-- A list of texts inside a message. -/
def literalStrings (items : List String) : String := bracketed "[" "]" (items.map quoted)

def literalInts (items : List Int) : String := bracketed "[" "]" (items.map toString)

end IntentPlan.Datum
