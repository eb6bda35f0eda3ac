import IntentPlan.Compilation
import IntentPlan.Datum.Access
import IntentPlan.Datum.Number
import IntentPlan.Json.Reader
import IntentPlan.Token.Items

/-! # Evaluation on known cases

Each case has a source and the strategy, the actions and the estimates that its plan should have.
-/

namespace IntentPlan.Evaluation

inductive Error where
  | json (e : Json.Error)
  | access (e : Datum.AccessFault)
  | noSource (kind : String)
  | noFirst
  | items (e : Token.Items.Fault)
  | noDifference (kind : String)
  | number (e : Datum.NumberFault)
  | breakdown (e : Breakdown)

def Error.message : Error → String
  | .json e => e.message
  | .access e => e.message
  | .noSource kind => s!"object of type '{kind}' has no len()"
  | .noFirst => "0"
  | .items e => e.message
  | .noDifference kind => s!"unsupported operand type(s) for -: 'float' and '{kind}'"
  | .number e => e.message
  | .breakdown e => e.message

/-- What counts of a plan when it is made again: all but ids and times. -/
structure Signature where
  steps : List (String × Int × String × String × List String)
  cost : Float
  strategy : Strategy

def Signature.ofPlan (p : Plan) : Signature where
  steps := p.steps.map fun s => (s.id, s.order, s.kind.name, s.action, s.dependencies)
  cost := p.cost
  strategy := p.strategy

def Signature.agrees (a b : Signature) : Bool :=
  a.steps == b.steps && a.cost == b.cost && a.strategy == b.strategy

/-- The text of a datum, if it is one. -/
def text? : Datum → Option String
  | .str s => some s
  | _ => none

def isText (s : String) (d : Datum) : Bool := text? d == some s

/-- Whether a datum is the list of these texts. -/
def isTexts (texts : List String) : Datum → Bool
  | .list items => items.map text? == texts.map some
  | _ => false

/-- How far two costs may lie apart. -/
def tolerance : Float := 1e-9

/-- Whether an expected cost, which a case need not have, is close to a cost. -/
def costAgrees (cost : Float) : Option Datum → Except Error Bool
  | none => .ok true
  | some d =>
    match d with
    | .bool _ | .int _ | .float _ =>
      match d.toFloat with
      | .ok expected => .ok (decide ((cost - expected).abs < tolerance))
      | .error e => .error (.number e)
    | d => .error (.noDifference d.kindName)

/-- What is right about a plan. -/
structure Verdict where
  strategy : Bool
  shape : Bool
  deterministic : Bool
  estimates : Bool
deriving DecidableEq, Repr

def Verdict.passed (v : Verdict) : Bool :=
  v.strategy && v.shape && v.deterministic && v.estimates

/-- Compares a plan with what its case expects and with a plan made again. -/
def judge (item : Datum) (plan again : Plan) : Except Error Verdict := do
  let strategy ← (item.field "expected_strategy").mapError .access
  let actions ← (item.field "expected_actions").mapError .access
  let duration ← (item.field "expected_duration_ms").mapError .access
  let cost ← (item.optionalField "expected_cost").mapError .access
  let durationAgrees := duration.equalsInt plan.durationMs
  return {
    strategy := isText plan.strategy.name strategy
    shape := isTexts (plan.steps.map (·.action)) actions && Plan.dependenciesOk plan.steps
    deterministic := (Signature.ofPlan plan).agrees (.ofPlan again)
    estimates := ← if durationAgrees then costAgrees plan.cost cost else .ok false }

/-- How many cases have each part right. -/
structure Scores where
  passed : Nat := 0
  strategy : Nat := 0
  shape : Nat := 0
  deterministic : Nat := 0
  estimates : Nat := 0
deriving DecidableEq, Repr

def Scores.add (s : Scores) (v : Verdict) : Scores where
  passed := s.passed + v.passed.toNat
  strategy := s.strategy + v.strategy.toNat
  shape := s.shape + v.shape.toNat
  deterministic := s.deterministic + v.deterministic.toNat
  estimates := s.estimates + v.estimates.toNat

def word (b : Bool) : String := if b then "ok" else "fail"

def verdictLine (name : String) (plan : Plan) (v : Verdict) : String :=
  (if v.passed then "[PASS] " else "[FAIL] ") ++ name ++ " strategy=" ++ plan.strategy.name ++
    " (" ++ word v.strategy ++ ") shape=" ++ word v.shape ++ " deterministic=" ++
    word v.deterministic ++ " estimates=" ++ word v.estimates ++ " cost=" ++
    Decimal.Layout.plain.float plan.cost

def failureLine (name : String) (c : Compilation) : String :=
  s!"[FAIL] {name} stage={c.stage.name} error=" ++ c.error?.getD ""

def nameOf (item : Datum) : Work Error String := do
  return (← Work.ofExcept ((item.field "name").mapError .access)).display

/-- The compilation of tokens among which there is no keyword.  It stops at the first of them. -/
def refusal (tokens : List Token) : Compilation :=
  let r := ({} : Compilation).advance .tokenized
  r.fail ((Cursor.ofTokens tokens).fail (.lexeme .keyword "intent")).message .parseError

/-- Compiles what a case has for a source.  The items of a list, and of a mapping without keys, are
scanned; a mapping with keys has no first item. -/
def compile (c : Compiler) : Datum → Work Error Compilation
  | .str s => (c.compile s).mapError .breakdown
  | .list items => return refusal (← (Token.Items.scan items).mapError .items)
  | .map [] => return refusal (← (Token.Items.scan []).mapError .items)
  | .map _ => throw .noFirst
  | d => throw (.noSource d.kindName)

/-- Compiles a case twice and prints what became of it. -/
def runCase (c : Compiler) (scores : Scores) (item : Datum) : Work Error Scores := do
  let source ← Work.ofExcept ((item.field "source").mapError .access)
  let first ← compile c source
  let second ← compile c source
  match first.plan?, second.plan? with
  | some plan, some again =>
    let verdict ← Work.ofExcept (judge item plan again)
    Work.print (verdictLine (← nameOf item) plan verdict)
    return scores.add verdict
  | _, _ =>
    Work.print (failureLine (← nameOf item) first)
    return scores

def runCases (c : Compiler) (scores : Scores) : List Datum → Work Error Scores
  | [] => return scores
  | item :: rest => do runCases c (← runCase c scores item) rest

/-- Evaluates a compiler on the cases of a file. -/
def run (c : Compiler) (text : String) : Work Error Unit := do
  let dataset ← Work.ofExcept ((Json.read text).mapError .json)
  let cases ← Work.ofExcept (dataset.countedContents.mapError .access)
  let scores ← runCases c {} cases
  let total := cases.length
  Work.print s!"\nPass rate: {scores.passed}/{total}"
  Work.print s!"Strategy accuracy: {scores.strategy}/{total}"
  Work.print s!"Step shape score: {scores.shape}/{total}"
  Work.print s!"Determinism score: {scores.deterministic}/{total}"
  Work.print s!"Estimate score: {scores.estimates}/{total}"

end IntentPlan.Evaluation
