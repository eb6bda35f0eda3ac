import IntentPlan.Plan
import IntentPlan.Rule.Selection
import IntentPlan.Step.Template

/-! # Planning

The same intent and the same rules always give the same strategy, steps and cost.
-/

namespace IntentPlan

/-- Why there is no plan for an intent. -/
inductive PlanError where
  | noTemplate (strategy : String) (supported : List String)
  | badOrder (problems : List Plan.Problem)
  | refused (reason : String)
deriving DecidableEq, Repr

def PlanError.message : PlanError → String
  | .noTemplate strategy supported =>
    s!"No step template for strategy '{strategy}'. Supported: " ++
      String.intercalate ", " supported
  | .badOrder problems =>
    "Generated plan violates step ordering: " ++
      String.intercalate "; " (problems.map Plan.Problem.message)
  | .refused reason => reason

/-- A template or an estimate that breaks down. -/
inductive Breakdown where
  | step (e : StepError)
  | estimate (e : Estimate.Error)
deriving DecidableEq, Repr

def Breakdown.message : Breakdown → String
  | .step e => e.message
  | .estimate e => e.message

inductive PlanFailure where
  | planning (e : PlanError)
  | breakdown (e : Breakdown)
deriving DecidableEq, Repr

def PlanFailure.message : PlanFailure → String
  | .planning e => e.message
  | .breakdown e => e.message

namespace Catalog

def names (catalog : Catalog) : List String :=
  (Assoc.keys catalog).mergeSort fun a b => !decide (b < a)

/-- The steps of a strategy for an intent, after the step that checks the intent. -/
def steps (catalog : Catalog) (i : Intent) (strategy : String) : Except PlanFailure (List Step) :=
  match Assoc.get? strategy catalog with
  | none => .error (.planning (.noTemplate strategy catalog.names))
  | some template =>
    match template i 1 with
    | .error e => .error (.breakdown (.step e))
    | .ok more =>
      .ok (Step.make 0 .validate "validate_intent" [("intent_id", .str i.id)] [] :: more)

end Catalog

abbrev Planner := Intent → Work PlanFailure Plan

namespace Planner

/-- The cost of steps with the resources that they need. -/
def stepCost (prices : Estimate.PriceList) (steps : List Step) : Except PlanFailure Float :=
  match Estimate.cost prices (steps.map (·.kind.name)) (Estimate.resources steps.length) with
  | .ok cost => .ok cost
  | .error e => .error (.breakdown (.estimate e))

def plannedRecord (i : Intent) (p : Plan) : Journal.Record :=
  ⟨.info, "intentc.planners.deterministic",
    s!"Planned intent '{i.name}': {p.strategy.name}, {p.steps.length} steps, cost " ++
      Decimal.Layout.plain.float p.cost⟩

/-- The planner of a registry, a catalog and a price list. -/
def standard (registry : Registry) (catalog : Catalog) (prices : Estimate.PriceList) : Planner :=
    fun i => do
  let (strategy, selection) ← registry.select i
  let steps ← Work.ofExcept (catalog.steps i strategy.name)
  let generation ← Audit.entry "step_generation" s!"Generated {steps.length} steps"
    s!"Using {strategy.name} strategy template"
    ["Could add optimization steps", "Could add monitoring steps"]
  let durationMs := Estimate.duration (steps.map (·.timeoutMs))
  let cost ← Work.ofExcept (stepCost prices steps)
  let completion ← Audit.entry "plan_complete"
    s!"Generated {steps.length} steps with {strategy.name} strategy"
    (s!"Total duration: {durationMs}ms, cost: " ++ Decimal.Layout.plain.float cost ++ " units") []
  let id ← Work.freshId
  let generatedAt ← Work.readClock
  let plan : Plan := {
    id := "plan_" ++ id
    intentId := i.id
    strategy, steps, durationMs, cost
    resources := Estimate.resources steps.length
    audit := [selection, generation, completion]
    generatedAt }
  match Plan.problems steps with
  | [] =>
    Work.noteAll [plannedRecord i plan]
    return plan
  | problems => throw (.planning (.badOrder problems))

end Planner

end IntentPlan
