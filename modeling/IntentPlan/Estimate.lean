import IntentPlan.Datum
import IntentPlan.Decimal.Binary

/-! # Estimates of resources, time and cost -/

namespace IntentPlan.Estimate

/-- An amount of something, or its price. -/
inductive Quantity where
  | whole (n : Int)
  | real (x : Float)
deriving DecidableEq, Repr

inductive Error where
  | beyondFloat
deriving DecidableEq, Repr

def Error.message : Error → String
  | .beyondFloat => "int too large to convert to float"

namespace Quantity

def toFloat : Quantity → Except Error Float
  | .whole n =>
    match Decimal.floatOfInt? n with
    | some x => .ok x
    | none => .error .beyondFloat
  | .real x => .ok x

def toDatum : Quantity → Datum
  | .whole n => .int n
  | .real x => .float x

end Quantity

structure Resource where
  kind : String
  amount : Quantity
  unit : String
deriving DecidableEq, Repr

def Resource.toDatum (r : Resource) : Datum :=
  .map [("type", .str r.kind), ("amount", r.amount.toDatum), ("unit", .str r.unit)]

/-- What a plan with a number of steps needs. -/
def resources (steps : Nat) : List Resource := [
  ⟨"compute", .whole (steps * 100), "ms"⟩,
  ⟨"memory", .whole (steps * 128), "MB"⟩,
  ⟨"storage", .whole 10, "MB"⟩,
  ⟨"network", .whole 5, "MB"⟩]

/-- The time of steps that all run up to their limits. -/
def duration (timeouts : List Int) : Int := timeouts.foldl (· + ·) 0

/-- Prices under the names of the kinds of steps. -/
abbrev PriceList := Assoc Quantity

def standardPrices : PriceList := [
  ("validate", .whole 1),
  ("generate_code", .whole 10),
  ("create_resource", .whole 15),
  ("execute_query", .whole 5),
  ("api_call", .whole 8),
  ("transform_data", .whole 12),
  ("train_model", .whole 50),
  ("deploy", .whole 20)]

/-- The price of a kind that is not in the list. -/
def unknownPrice : Quantity := .whole 5

/-- The cost of a unit of a resource, for those resources that cost anything. -/
def resourceRate? (kind : String) : Option Float :=
  if kind = "compute" then some 0.01 else if kind = "memory" then some 0.001 else none

/-- Adds the prices of steps of some kinds to a cost, in order. -/
def addSteps (prices : PriceList) (cost : Float) : List String → Except Error Float
  | [] => .ok cost
  | kind :: rest =>
    match ((Assoc.get? kind prices).getD unknownPrice).toFloat with
    | .error e => .error e
    | .ok price => addSteps prices (cost + price) rest

/-- Adds the costs of resources to a cost, in order. -/
def addResources (cost : Float) : List Resource → Except Error Float
  | [] => .ok cost
  | r :: rest =>
    match resourceRate? r.kind with
    | none => addResources cost rest
    | some rate =>
      match r.amount.toFloat with
      | .error e => .error e
      | .ok amount => addResources (cost + amount * rate) rest

/-- The cost of steps of some kinds with their resources, to two decimal places. -/
def cost (prices : PriceList) (kinds : List String) (resources : List Resource) :
    Except Error Float :=
  match addSteps prices 0.0 kinds with
  | .error e => .error e
  | .ok cost =>
    match addResources cost resources with
    | .error e => .error e
    | .ok cost => .ok (Decimal.roundTo 2 cost)

end IntentPlan.Estimate
