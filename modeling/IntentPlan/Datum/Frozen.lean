import IntentPlan.Datum

/-! # Read-only data

Intents and steps keep copies of the data that they are given which nothing can change.
-/

namespace IntentPlan

/-- A datum that cannot be changed: its lists are tuples, and its mappings are sealed. -/
inductive Frozen where
  | null
  | bool (b : Bool)
  | int (n : Int)
  | float (x : Float)
  | str (s : String)
  | tuple (items : List Frozen)
  | sealed (fields : List (String × Frozen))
deriving Repr, Inhabited

namespace Datum

mutual

/-- The read-only copy of a datum.  The copy of a mapping is made by writing its pairs in order. -/
def freeze : Datum → Frozen
  | .null => .null
  | .bool b => .bool b
  | .int n => .int n
  | .float x => .float x
  | .str s => .str s
  | .list items => .tuple (freezeItems items)
  | .map fields => .sealed (Assoc.ofList (freezeFields fields))

def freezeItems : List Datum → List Frozen
  | [] => []
  | d :: rest => freeze d :: freezeItems rest

def freezeFields : List (String × Datum) → List (String × Frozen)
  | [] => []
  | (k, d) :: rest => (k, freeze d) :: freezeFields rest

end

end Datum

namespace Frozen

mutual

/-- The read-only copy of what is read-only already. -/
def freeze : Frozen → Frozen
  | .tuple items => .tuple (freezeItems items)
  | .sealed fields => .sealed (Assoc.ofList (freezeFields fields))
  | f => f

def freezeItems : List Frozen → List Frozen
  | [] => []
  | f :: rest => freeze f :: freezeItems rest

def freezeFields : List (String × Frozen) → List (String × Frozen)
  | [] => []
  | (k, f) :: rest => (k, freeze f) :: freezeFields rest

end

mutual

/-- The datum that is written for a read-only one, with lists and mappings that can be changed. -/
def thaw : Frozen → Datum
  | .null => .null
  | .bool b => .bool b
  | .int n => .int n
  | .float x => .float x
  | .str s => .str s
  | .tuple items => .list (thawItems items)
  | .sealed fields => .map (Assoc.ofList (thawFields fields))

def thawItems : List Frozen → List Datum
  | [] => []
  | f :: rest => thaw f :: thawItems rest

def thawFields : List (String × Frozen) → List (String × Datum)
  | [] => []
  | (k, f) :: rest => (k, thaw f) :: thawFields rest

end

end Frozen

namespace Assoc

/-- The read-only copy of a mapping. -/
def freeze (fields : Assoc Datum) : Assoc Frozen := ofList (Datum.freezeFields fields)

/-- A mapping stands for its copy where it may not be changed. -/
instance : Coe (Assoc Datum) (Assoc Frozen) := ⟨freeze⟩

/-- The read-only copy of a mapping that is read-only already. -/
def refreeze (fields : Assoc Frozen) : Assoc Frozen := ofList (Frozen.freezeFields fields)

/-- The mapping that is written for a read-only one. -/
def thaw (fields : Assoc Frozen) : Assoc Datum := ofList (Frozen.thawFields fields)

end Assoc

end IntentPlan
