import IntentPlan.Intent
import IntentPlan.Step
import IntentPlan.Strategy

/-! # Templates of steps

A template turns an intent into the steps that follow a given number of earlier steps.  A catalog
holds templates under the names of their strategies.
-/

namespace IntentPlan

abbrev Template := Intent → Int → Except StepError (List Step)

abbrev Catalog := Assoc Template

namespace Template

/-- One step after the first of the plan. -/
def single (kind : StepKind) (action : String) (parameters : Intent → Assoc Datum) (i : Intent)
    (start : Int) : List Step :=
  [Step.make start kind action (parameters i) [Step.idAt 0]]

/-- Schema, database, endpoints and deployment, each after the one before it. -/
def crud (i : Intent) (start : Int) : List Step :=
  [Step.make start .generateCode "generate_schema"
      [("entity_name", .str i.name), ("capabilities", .strings i.capabilities)]
      [Step.idAt (start - 1)],
    Step.make (start + 1) .createResource "create_database"
      [("schema_id", .str ("schema_from_" ++ Step.idAt start))] [Step.idAt start],
    Step.make (start + 2) .generateCode "generate_endpoints"
      [("operations", .strings ["create", "read", "update", "delete"])] [Step.idAt (start + 1)],
    Step.make (start + 3) .deploy "deploy_api"
      [("endpoints", .str ("from_" ++ Step.idAt (start + 2)))] [Step.idAt (start + 2)]]

/-- The steps of a strategy that the library knows. -/
def builtin : Strategy → Intent → Int → List Step
  | .crudGeneration => crud
  | .apiOrchestration =>
    single .apiCall "orchestrate_apis" fun i => [("capabilities", .strings i.capabilities)]
  | .dataPipeline =>
    single .transformData "create_pipeline" fun i => [("transforms", .strings i.capabilities)]
  | .mlWorkflow =>
    single .trainModel "train_ml_model" fun i => [("capabilities", .strings i.capabilities)]
  | .customExecution =>
    single .executeQuery "custom_execution" fun i => [
      ("intent_id", .str i.id),
      ("intent_name", .str i.name),
      ("goal", .ofOption .str i.goal),
      ("capabilities", .strings i.capabilities),
      ("constraints", .strings i.constraints)]

/-- A step of a template that is given as a list. -/
structure StepSpec where
  offset : Int
  kind : String
  action : String
  parameters : Assoc Datum
  dependencies : List String

def ofSpecs (specs : List StepSpec) : Template := fun _ start =>
  specs.mapM fun spec =>
    Step.makeNamed (start + spec.offset) spec.kind spec.action spec.parameters spec.dependencies

end Template

namespace Catalog

/-- The templates of some of the strategies that the library knows. -/
def ofStrategies (strategies : List Strategy) : Catalog :=
  strategies.map fun s => (s.name, fun i start => .ok (Template.builtin s i start))

def builtin : Catalog := ofStrategies Strategy.all

end Catalog

end IntentPlan
