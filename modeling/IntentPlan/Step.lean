import IntentPlan.Datum.Frozen

/-! # Steps -/

namespace IntentPlan

/-- The kinds of steps: those that the library makes, and any other by its name. -/
inductive StepKind where
  | validate
  | generateCode
  | createResource
  | executeQuery
  | apiCall
  | transformData
  | trainModel
  | deploy
  | other (name : String)
deriving DecidableEq, Repr

namespace StepKind

def name : StepKind → String
  | .validate => "validate"
  | .generateCode => "generate_code"
  | .createResource => "create_resource"
  | .executeQuery => "execute_query"
  | .apiCall => "api_call"
  | .transformData => "transform_data"
  | .trainModel => "train_model"
  | .deploy => "deploy"
  | .other name => name

/-- The kinds of the steps that the library makes. -/
def supported : List StepKind :=
  [.validate, .generateCode, .createResource, .executeQuery, .apiCall, .transformData, .trainModel,
    .deploy]

def ofName? (s : String) : Option StepKind := supported.find? fun kind => kind.name == s

end StepKind

structure RetryPolicy where
  maxAttempts : Int := 3
  backoffMs : Int := 1000
  backoffMultiplier : Int := 2
deriving DecidableEq, Repr

structure Step where
  id : String
  order : Int
  kind : StepKind
  action : String
  parameters : Assoc Frozen := []
  dependencies : List String := []
  timeoutMs : Int := 30000
  retry : RetryPolicy := {}
deriving Repr

inductive StepError where
  | unsupportedKind (name : String)
deriving DecidableEq, Repr

def StepError.message : StepError → String
  | .unsupportedKind name =>
    s!"Unsupported step type '{name}'. Supported: " ++
      String.intercalate ", " (StepKind.supported.map StepKind.name)

namespace Step

/-- The id of the step at a place in the order. -/
def idAt (order : Int) : String := s!"step_{order}"

def make (order : Int) (kind : StepKind) (action : String) (parameters : Assoc Datum)
    (dependencies : List String) : Step where
  id := idAt order
  order
  kind
  action
  parameters
  dependencies

/-- A step of a kind that is given by name. -/
def makeNamed (order : Int) (kind action : String) (parameters : Assoc Datum)
    (dependencies : List String) : Except StepError Step :=
  match StepKind.ofName? kind with
  | some kind => .ok (make order kind action parameters dependencies)
  | none => .error (.unsupportedKind kind)

def toDatum (s : Step) : Datum :=
  .map [
    ("id", .str s.id),
    ("order", .int s.order),
    ("type", .str s.kind.name),
    ("action", .str s.action),
    ("parameters", .map (Assoc.thaw s.parameters)),
    ("dependencies", .strings s.dependencies),
    ("timeout_ms", .int s.timeoutMs),
    ("retry_policy", .map [
      ("max_attempts", .int s.retry.maxAttempts),
      ("backoff_ms", .int s.retry.backoffMs),
      ("backoff_multiplier", .int s.retry.backoffMultiplier)])]

end Step

end IntentPlan
