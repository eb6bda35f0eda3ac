import IntentPlan.Toml

/-! # Tables inside tables

Which tables may still be changed is kept apart from the tables, as marks on their paths.
-/

namespace IntentPlan.Toml

/-- Why nothing can be put at a path: what stands on the way to it is no table, or its end is
taken. -/
inductive Clash where
  | noTable
  | taken
deriving DecidableEq, Repr

/-- Changes the table at the end of a list. -/
def changeLast (f : Table → Except Clash Table) : List Value → Except Clash (List Value)
  | [.table t] => do return [.table (← f t)]
  | v :: w :: rest => do return v :: (← changeLast f (w :: rest))
  | _ => .error .noTable

/-- Changes the table at the end of a path.  Tables on the way are made where there are none.  With
`lists`, the last table of a list stands for the list. -/
def changeAt (lists : Bool) (f : Table → Except Clash Table) :
    List String → Table → Except Clash Table
  | [], t => f t
  | name :: rest, t =>
    match Assoc.get? name t with
    | none => do return Assoc.put name (.table (← changeAt lists f rest [])) t
    | some (.table inner) => do return Assoc.put name (.table (← changeAt lists f rest inner)) t
    | some (.list items) =>
      if lists then do return Assoc.put name (.list (← changeLast (changeAt lists f rest) items)) t
      else .error .noTable
    | some _ => .error .noTable

/-- Puts a value where there is none. -/
def putNew (name : String) (v : Value) (t : Table) : Except Clash Table :=
  match Assoc.get? name t with
  | some _ => .error .taken
  | none => .ok (Assoc.put name v t)

/-- One more table at the end of a list of tables, which is made if there is none. -/
def putLast (name : String) (t : Table) : Except Clash Table :=
  match Assoc.get? name t with
  | some (.list items) => .ok (Assoc.put name (.list (items ++ [.table []])) t)
  | some _ => .error .noTable
  | none => .ok (Assoc.put name (.list [.table []]) t)

/-- Marks on paths. -/
structure Marks where
  /-- Tables that cannot be declared again. -/
  declared : List (List String) := []
  /-- Values that cannot be changed, nor anything inside them. -/
  frozen : List (List String) := []
  /-- Tables that count as declared from the next heading on. -/
  pending : List (List String) := []
deriving DecidableEq, Repr

namespace Marks

def isDeclared (m : Marks) (path : List String) : Bool := m.declared.contains path

def isFrozen (m : Marks) (path : List String) : Bool := m.frozen.any (·.isPrefixOf path)

def declare (m : Marks) (path : List String) : Marks := { m with declared := path :: m.declared }

def freeze (m : Marks) (path : List String) : Marks := { m with frozen := path :: m.frozen }

/-- Takes all marks from a path and from the paths inside it. -/
def free (m : Marks) (path : List String) : Marks :=
  { m with
    declared := m.declared.filter fun p => !path.isPrefixOf p
    frozen := m.frozen.filter fun p => !path.isPrefixOf p }

/-- What was pending counts from now on. -/
def settle (m : Marks) : Marks := { m with declared := m.pending ++ m.declared, pending := [] }

/-- Marks the value at a path if it holds others. -/
def freezeContainer (m : Marks) (path : List String) (v : Value) : Marks :=
  if v.isContainer then m.freeze path else m

end Marks

end IntentPlan.Toml
