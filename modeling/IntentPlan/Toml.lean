import IntentPlan.Assoc

/-! # Project manifests

Manifests are tables of keys and values.  Numbers, dates, times and truth values are kept as they
are written.
-/

namespace IntentPlan.Toml

/-- The kinds of values that are neither texts nor put together from others. -/
inductive PlainKind where
  | truth
  | whole
  | real
  | date
  | time
  | dateTime
deriving DecidableEq, Repr

inductive Value where
  | text (s : String)
  | plain (kind : PlainKind) (written : String)
  | list (items : List Value)
  | table (fields : List (String × Value))
deriving Repr

abbrev Table := Assoc Value

/-- The word for the kind of a value in messages. -/
def Value.kindName : Value → String
  | .text _ => "str"
  | .plain .truth _ => "bool"
  | .plain .whole _ => "int"
  | .plain .real _ => "float"
  | .plain .date _ => "datetime.date"
  | .plain .time _ => "datetime.time"
  | .plain .dateTime _ => "datetime.datetime"
  | .list _ => "list"
  | .table _ => "dict"

/-- Lists and tables hold other values. -/
def Value.isContainer : Value → Bool
  | .list _ | .table _ => true
  | _ => false

/-- The names of the tables that a key goes through, and the name in the last of them. -/
structure Key where
  parents : List String
  stem : String
deriving DecidableEq, Repr

def Key.path (k : Key) : List String := k.parents ++ [k.stem]

end IntentPlan.Toml
