import IntentPlan.Config
import IntentPlan.Intent.Lowering
import IntentPlan.Plan.Planner

/-! # Compilation

A compilation takes a source through its stages up to a plan, or to the first stage that fails.
-/

namespace IntentPlan

inductive Stage where
  | received
  | tokenized
  | parsed
  | lowered
  | validated
  | planned
  | lexError
  | parseError
  | validationFailed
  | planningError
deriving DecidableEq, Repr

def Stage.name : Stage → String
  | .received => "received"
  | .tokenized => "tokenized"
  | .parsed => "parsed"
  | .lowered => "lowered"
  | .validated => "validated"
  | .planned => "planned"
  | .lexError => "lex_error"
  | .parseError => "parse_error"
  | .validationFailed => "validation_failed"
  | .planningError => "planning_error"

/-- What is known about a compilation.  It is filled in while the compilation goes on. -/
structure Compilation where
  stage : Stage := .received
  /-- The stages that were reached, the present one included. -/
  history : List Stage := [.received]
  intent? : Option Intent := none
  complaints : List String := []
  plan? : Option Plan := none
  error? : Option String := none

namespace Compilation

def ok (r : Compilation) : Bool := r.stage == .planned

/-- Goes on to a stage. -/
def advance (r : Compilation) (stage : Stage) : Compilation :=
  { r with stage, history := r.history ++ [stage] }

/-- Stops at a stage for an error. -/
def fail (r : Compilation) (error : String) (stage : Stage) : Compilation :=
  { r with error? := some error }.advance stage

/-- The decisions of the plan as a text. -/
def auditText (r : Compilation) : String :=
  match r.plan? with
  | some plan => Audit.render plan.audit
  | none => ""

/-- All that is known about a compilation. -/
def explain (strict : Bool) (r : Compilation) : Datum :=
  .map [
    ("stage", .str r.stage.name),
    ("history", .strings (r.history.map Stage.name)),
    ("ok", .bool r.ok),
    ("error", .ofOption .str r.error?),
    ("strict_lexing", .bool strict),
    ("ir", .ofOption Intent.toDatum r.intent?),
    ("validation_errors", .strings r.complaints),
    ("plan", .ofOption Plan.toDatum r.plan?),
    ("audit", .str r.auditText)]

end Compilation

/-- What turns sources into plans. -/
structure Compiler where
  config : Config := {}
  registry : Registry := .default
  planner : Planner := .standard registry .builtin Estimate.standardPrices

namespace Compiler

def planningRecord (i : Intent) (e : PlanError) : Journal.Record :=
  ⟨.error, "intentc.core", s!"Planning failed for intent '{i.name}': " ++ e.message⟩

/-- Plans the intent of a compilation. -/
def planIntent (c : Compiler) (r : Compilation) (intent : Intent) :
    Work Breakdown Compilation := do
  match ← (c.planner intent).attempt with
  | .ok plan => return { r with plan? := some plan }.advance .planned
  | .error (.planning e) =>
    Work.noteAll [planningRecord intent e]
    return r.fail e.message .planningError
  | .error (.breakdown e) => throw e

/-- Checks the intent of a compilation and plans it, unless it has complaints that forbid that. -/
def checkAndPlan (c : Compiler) (r : Compilation) (intent : Intent) :
    Work Breakdown Compilation := do
  let complaints ← intent.check c.config.maxComplexity
  let r := { r with complaints }
  if c.config.validateBeforePlan && !complaints.isEmpty then
    return r.fail (String.intercalate "; " complaints) .validationFailed
  else c.planIntent (r.advance .validated) intent

/-- Takes a source through all stages, up to the first failure. -/
def compile (c : Compiler) (source : String) : Work Breakdown Compilation := do
  let r : Compilation := {}
  match ← (Token.tokenize c.config.strictLexing source).attempt with
  | .error e => return r.fail e.message .lexError
  | .ok tokens =>
    let r := r.advance .tokenized
    match ← (Declaration.parse tokens).attempt with
    | .error e => return r.fail e.message .parseError
    | .ok declaration =>
      let r := r.advance .parsed
      match ← (Intent.ofNode declaration.toNode).attempt with
      | .error e => return r.fail e.message .parseError
      | .ok intent =>
        let intent := intent.withLines source
        c.checkAndPlan ({ r with intent? := some intent }.advance .lowered) intent

def parse (c : Compiler) (source : String) : Work SourceError Intent :=
  Intent.parse c.config.strictLexing source

end Compiler

end IntentPlan
