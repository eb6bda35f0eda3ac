/-! # Ordered mappings -/

namespace IntentPlan

universe u

/-- Values under texts, in the order in which the texts were first written. -/
abbrev Assoc (α : Type u) := List (String × α)

namespace Assoc

variable {α : Type u}

/-- A key that is written again keeps its place and takes the new value. -/
def put (key : String) (value : α) : Assoc α → Assoc α
  | [] => [(key, value)]
  | (k, v) :: rest => if k = key then (k, value) :: rest else (k, v) :: put key value rest

def get? (key : String) : Assoc α → Option α
  | [] => none
  | (k, v) :: rest => if k = key then some v else get? key rest

/-- Pairs written one after the other onto a mapping. -/
def putAll (m : Assoc α) (pairs : List (String × α)) : Assoc α :=
  pairs.foldl (fun m p => put p.1 p.2 m) m

def ofList (pairs : List (String × α)) : Assoc α := putAll [] pairs

def keys (m : Assoc α) : List String := m.map Prod.fst

end Assoc

end IntentPlan
