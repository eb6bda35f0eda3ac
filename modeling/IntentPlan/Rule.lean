import IntentPlan.Rule.Condition
import IntentPlan.Strategy

/-! # Planning rules

A rule names a strategy for the intents of which its condition holds.  A registry keeps rules with
different names in the order of their registration.
-/

namespace IntentPlan

structure Rule where
  name : String
  condition : Condition
  strategy : Strategy
  priority : Int
deriving Repr

/-- A rule as it is asked for. -/
structure RuleSpec where
  name : String
  condition : ConditionSpec
  strategy : String
  priority : Int

inductive RuleError where
  | condition (e : ConditionError)
  | unsupportedStrategy (name : String)
  | duplicateName (name : String)
deriving DecidableEq, Repr

def RuleError.message : RuleError → String
  | .condition e => e.message
  | .unsupportedStrategy name =>
    s!"Unsupported strategy '{name}'. Supported: " ++
      String.intercalate ", " (Strategy.all.map Strategy.name)
  | .duplicateName name => s!"Duplicate planning rule name '{name}'"

namespace Rule

def build (spec : RuleSpec) : Except RuleError Rule :=
  match Condition.build spec.condition with
  | .error e => .error (.condition e)
  | .ok condition =>
    match Strategy.ofName? spec.strategy with
    | none => .error (.unsupportedStrategy spec.strategy)
    | some strategy => .ok ⟨spec.name, condition, strategy, spec.priority⟩

def fields (r : Rule) : List (String × Datum) :=
  [("name", .str r.name), ("strategy", .str r.strategy.name), ("priority", .int r.priority),
    ("condition", r.condition.toDatum)]

end Rule

structure Registry where
  rules : List Rule
  distinct : (rules.map Rule.name).Nodup

namespace Registry

/-- The first name that stands earlier already. -/
def firstRepeated? (seen : List String) : List String → Option String
  | [] => none
  | name :: rest => if name ∈ seen then some name else firstRepeated? (name :: seen) rest

theorem nodup_of_firstRepeated?_eq_none {seen names : List String}
    (h : firstRepeated? seen names = none) : names.Nodup ∧ ∀ name ∈ names, name ∉ seen := by
  induction names generalizing seen with
  | nil => simp
  | cons name rest ih =>
    simp only [firstRepeated?] at h
    split at h
    · cases h
    · rename_i hname
      obtain ⟨hnodup, hseen⟩ := ih h
      refine ⟨List.nodup_cons.2 ⟨fun hmem => hseen name hmem (by simp), hnodup⟩, ?_⟩
      intro other hother
      rcases List.mem_cons.1 hother with rfl | hmem
      · exact hname
      · exact fun hs => hseen other hmem (List.mem_cons_of_mem _ hs)

def ofRules (rules : List Rule) : Except RuleError Registry :=
  match h : firstRepeated? [] (rules.map Rule.name) with
  | some name => .error (.duplicateName name)
  | none => .ok ⟨rules, (nodup_of_firstRepeated?_eq_none h).1⟩

/-- Builds the rules in order, then the registry of all of them. -/
def build (specs : List RuleSpec) : Except RuleError Registry := do
  ofRules (← specs.mapM Rule.build)

/-- The rules with their places. -/
def toData (r : Registry) : List Datum :=
  r.rules.zipIdx.map fun (rule, index) => .map (rule.fields ++ [("registration_index", .int index)])

def defaultRules : List Rule := [
  { name := "crud_detection"
    condition := .anyOf [
      .search .goalContainsAny ["crud", "product catalog", "data management"],
      .search .capabilitiesCoverAll ["create", "read"]]
    strategy := .crudGeneration
    priority := 10 },
  { name := "api_orchestration"
    condition := .search .capabilityContainsAny ["api", "integration", "orchestrat"]
    strategy := .apiOrchestration
    priority := 8 },
  { name := "data_pipeline"
    condition := .search .capabilityContainsAny ["pipeline", "transform", "process data"]
    strategy := .dataPipeline
    priority := 7 },
  { name := "ml_workflow"
    condition := .search .capabilityContainsAny ["machine learning", "train", "model", "predict"]
    strategy := .mlWorkflow
    priority := 9 }]

def default : Registry where
  rules := defaultRules
  distinct := by decide

end Registry

end IntentPlan
