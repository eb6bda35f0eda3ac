import IntentPlan.Datum
import IntentPlan.Text.Quoted

/-! # Looking into data of any kind -/

namespace IntentPlan.Datum

/-- Why something cannot be taken out of a datum. -/
inductive AccessFault where
  | missing (key : String)
  | noFields (kind : String)
  | noMapping (kind : String)
  | noItems (kind : String)
  | noLength (kind : String)
deriving DecidableEq, Repr

def AccessFault.message : AccessFault → String
  | .missing key => Text.quoted key
  | .noFields "str" => "string indices must be integers, not 'str'"
  | .noFields "list" => "list indices must be integers or slices, not str"
  | .noFields kind => s!"'{kind}' object is not subscriptable"
  | .noMapping kind => s!"'{kind}' object has no attribute 'get'"
  | .noItems kind => s!"'{kind}' object is not iterable"
  | .noLength kind => s!"object of type '{kind}' has no len()"

/-- The value under a key, which has to be there. -/
def field (key : String) : Datum → Except AccessFault Datum
  | .map fields =>
    match Assoc.get? key fields with
    | some d => .ok d
    | none => .error (.missing key)
  | d => .error (.noFields d.kindName)

/-- The value under a key of a mapping, if it is there. -/
def optionalField (key : String) : Datum → Except AccessFault (Option Datum)
  | .map fields => .ok (Assoc.get? key fields)
  | d => .error (.noMapping d.kindName)

/-- The items of a list, the keys of a mapping, or the characters of a text. -/
def contents? : Datum → Option (List Datum)
  | .list items => some items
  | .map fields => some ((Assoc.keys fields).map .str)
  | .str s => some (s.toList.map fun c => .str (String.singleton c))
  | _ => none

def contents (d : Datum) : Except AccessFault (List Datum) :=
  match d.contents? with
  | some items => .ok items
  | none => .error (.noItems d.kindName)

/-- The contents of something that is to be counted first. -/
def countedContents (d : Datum) : Except AccessFault (List Datum) :=
  match d.contents? with
  | some items => .ok items
  | none => .error (.noLength d.kindName)

end IntentPlan.Datum
