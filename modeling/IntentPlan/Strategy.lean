/-! # Strategies -/

namespace IntentPlan

/-- The ways in which an intent can be carried out. -/
inductive Strategy where
  | crudGeneration
  | apiOrchestration
  | dataPipeline
  | mlWorkflow
  | customExecution
deriving DecidableEq, Repr

namespace Strategy

def name : Strategy → String
  | .crudGeneration => "crud_generation"
  | .apiOrchestration => "api_orchestration"
  | .dataPipeline => "data_pipeline"
  | .mlWorkflow => "ml_workflow"
  | .customExecution => "custom_execution"

def all : List Strategy :=
  [.crudGeneration, .apiOrchestration, .dataPipeline, .mlWorkflow, .customExecution]

def ofName? (s : String) : Option Strategy := all.find? fun strategy => strategy.name == s

/-- The strategy of an intent to which no rule applies. -/
def fallback : Strategy := .customExecution

end Strategy

end IntentPlan
