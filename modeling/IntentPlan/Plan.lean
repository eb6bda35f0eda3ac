import IntentPlan.Audit
import IntentPlan.Estimate
import IntentPlan.Step
import IntentPlan.Strategy

/-! # Plans -/

namespace IntentPlan

structure Plan where
  id : String
  intentId : String
  strategy : Strategy
  steps : List Step
  durationMs : Int
  cost : Float
  resources : List Estimate.Resource
  audit : List Audit.Entry
  generatedAt : Instant

namespace Plan

def toDatum (p : Plan) : Datum :=
  .map [
    ("id", .str p.id),
    ("intent_id", .str p.intentId),
    ("strategy", .str p.strategy.name),
    ("steps", .list (p.steps.map Step.toDatum)),
    ("estimated_duration_ms", .int p.durationMs),
    ("estimated_cost", .float p.cost),
    ("resources", .list (p.resources.map Estimate.Resource.toDatum)),
    ("audit_log", .list (p.audit.map Audit.Entry.toDatum)),
    ("generated_at", .str p.generatedAt.iso)]

/-- The first step with an id. -/
def step? (steps : List Step) (id : String) : Option Step := steps.find? fun s => s.id == id

/-- The places of the steps in the order, under their ids.  The last step with an id counts. -/
def orders (steps : List Step) : Assoc Int := Assoc.ofList (steps.map fun s => (s.id, s.order))

/-- What is wrong with the dependencies of steps. -/
inductive Problem where
  | duplicateIds
  | unknownDependency (step dependency : String)
  | lateDependency (step dependency : String)
deriving DecidableEq, Repr

def Problem.message : Problem → String
  | .duplicateIds => "Plan contains duplicate step ids"
  | .unknownDependency step dependency => s!"{step} depends on unknown step {dependency}"
  | .lateDependency step dependency =>
    s!"{step} depends on {dependency}, which does not come earlier"

/-- What is wrong with one dependency of a step. -/
def dependencyProblem? (orders : Assoc Int) (s : Step) (dependency : String) : Option Problem :=
  match Assoc.get? dependency orders with
  | none => some (.unknownDependency s.id dependency)
  | some order => if s.order ≤ order then some (.lateDependency s.id dependency) else none

/-- All that is wrong: every dependency has to be a step with an earlier place. -/
def problems (steps : List Step) : List Problem :=
  let orders := orders steps
  (if orders.length ≠ steps.length then [.duplicateIds] else []) ++
  steps.flatMap fun s => s.dependencies.filterMap (dependencyProblem? orders s)

/-- Whether every dependency is a step with an earlier place, whatever the ids are. -/
def dependenciesOk (steps : List Step) : Bool :=
  let orders := orders steps
  steps.all fun s => s.dependencies.all fun dependency =>
    (Assoc.get? dependency orders).any fun order => decide (order < s.order)

end Plan

end IntentPlan
