import IntentPlan.Datum

/-! # Declarations -/

namespace IntentPlan

namespace Declaration

/-- What a key of a declaration may stand for. -/
inductive Value where
  | text (s : String)
  | items (texts : List String)
  | body (fields : List (String × Value))
deriving Repr, Inhabited

/-- The fields of a body; other values have none. -/
def Value.fields : Value → Assoc Value
  | .body fields => fields
  | _ => []

mutual

/-- A value as a datum. -/
def Value.toDatum : Value → Datum
  | .text s => .str s
  | .items texts => .strings texts
  | .body fields => .map (toData fields)

def toData : List (String × Value) → List (String × Datum)
  | [] => []
  | (key, value) :: rest => (key, value.toDatum) :: toData rest

end

end Declaration

/-- A name and the values under its keys. -/
structure Declaration where
  name : String
  body : Assoc Declaration.Value
deriving Repr

/-- A node of a tree of any shape, of which declarations are one. -/
inductive Node where
  | mk (kind : String) (value : Datum) (children : List Node)

namespace Node

def kind : Node → String
  | .mk kind _ _ => kind

def value : Node → Datum
  | .mk _ value _ => value

def children : Node → List Node
  | .mk _ _ children => children

end Node

namespace Declaration

/-- The kind of a node that is a declaration. -/
def nodeKind : String := "IntentDeclaration"

/-- The kind of the node below it that holds the body. -/
def bodyKind : String := "ObjectBody"

def toNode (d : Declaration) : Node :=
  .mk nodeKind (.str d.name) [.mk bodyKind (.map (toData d.body)) []]

end Declaration

end IntentPlan
