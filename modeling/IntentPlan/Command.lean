import IntentPlan.Batch
import IntentPlan.Batch.Gate
import IntentPlan.Batch.Summary
import IntentPlan.Command.Arguments
import IntentPlan.Json.Reader

/-! # The command

One run lists the rules, plans a batch, or compiles one source and prints its plan.
-/

namespace IntentPlan.Command

inductive Failure where
  | usage (e : UsageError)
  | config (e : ConfigError)
  | unreadable (e : ReadFault)
  | unwritable (e : FileFault)
  | json (e : Json.Error)
  | notList
  | batch (e : Batch.Error)
  | report (e : Batch.ReportError)
  | gate (e : Batch.Gate.Failure)
  | noSource
  | uncompiled (stage : Stage) (error : String)
  | breakdown (e : Breakdown)
  /-- An empty setting was compared with a number. -/
  | emptySetting (sign left right : String)

def Failure.message : Failure → String
  | .usage e => e.message
  | .config e => e.message
  | .unreadable e => e.message
  | .unwritable e => e.message
  | .json e => e.message
  | .notList => "Batch input JSON must be a list of objects"
  | .batch e => e.message
  | .report e => e.message
  | .gate e => e.message
  | .noSource =>
    "--source or --source-file is required unless --batch-input or --list-rules is provided"
  | .uncompiled stage error => s!"[{stage.name}] {error}"
  | .breakdown e => e.message
  | .emptySetting sign left right =>
    s!"'{sign}' not supported between instances of '{left}' and '{right}'"

/-- A text that is not empty. -/
def given (s : Option String) : Option String := s.filter fun s => !s.isEmpty

/-- The configuration of the environment with the changes that the options ask for. -/
def configOf (env : Assoc String) (o : Options) : Except Failure Config := do
  let config ← (Config.ofEnvironment env).mapError .config
  let maxComplexity ← match o.maxComplexity with
    | .unset => .ok config.maxComplexity
    | .empty => .error (.emptySetting "<" "list" "int")
    | .to n => if n < 0 then .error (.config .negativeComplexity) else .ok n.toNat
  return {
    strictLexing := config.strictLexing || o.strictLexing
    maxComplexity
    validateBeforePlan := config.validateBeforePlan || o.failOnInvalid
    logLevel := o.logLevel.getD config.logLevel }

/-- The items of a batch file: one on every line that is not blank, or all in one list. -/
def itemsOf (path : Path) (text : String) : Except Failure (List Datum) :=
  let text := Text.trim text
  if text.isEmpty then .ok []
  else if Text.lower path.suffix = ".jsonl" then
    let lines := (Text.splitLines text).filter fun line => !Text.allBlank line
    (lines.mapM Json.read).mapError .json
  else
    match Json.read text with
    | .error e => .error (.json e)
    | .ok (.list items) => .ok items
    | .ok _ => .error .notList

/-- The items of the batch file at a path. -/
def loadItems (path : Path) : Work Failure (List Datum) := do
  let text ← (Work.readFile path).mapError .unreadable
  Work.ofExcept (itemsOf path text)

/-- Writes a text to a file in a directory that may have to be made. -/
def writeInto (path : Path) (text : String) : Work Failure Unit := do
  (Work.changeFiles (·.makeDirectories path.parent)).mapError .unwritable
  (Work.changeFiles (·.writeText path text)).mapError .unwritable

/-- The number of workers.  If the setting is empty, the directory of artifacts is all that is
made. -/
def workersOf (o : Options) : Work Failure Int :=
  match o.swarmWorkers with
  | .unset => pure 1
  | .to n => pure n
  | .empty => do
    if let some dir := given o.batchArtifactDir then
      (Work.changeFiles (·.makeDirectories (Path.ofString dir))).mapError .unwritable
    throw (.emptySetting "<=" "list" "int")

def runBatch (c : Compiler) (o : Options) (input : String) : Work Failure Unit := do
  let items ← loadItems (Path.ofString input)
  let payloads ← (Batch.plan c {
      failFast := o.batchFailFast
      includeExplain := o.batchIncludeExplain
      artifactDir := (given o.batchArtifactDir).map Path.ofString
      workers := ← workersOf o }
    (List.range items.length) items).mapError .batch
  let results := payloads.map Batch.Payload.fields
  Work.print (Json.write (.list (results.map .map)))
  if let some report := given o.batchReport then
    let destination := Path.ofString report
    (Batch.writeReport results destination).mapError .report
    Work.print ("\n[batch-report] written: " ++ destination.toString)
  match o.batchMinSuccessRate with
  | .unset => return
  | .empty => throw (.emptySetting "<=" "float" "list")
  | .to minimum =>
    let rate := Batch.successRate (payloads.countP Batch.Payload.ok) payloads.length
    (Batch.Gate.check "min-success-rate" minimum rate).mapError .gate

def sourceOf (o : Options) : Work Failure String :=
  match given o.sourceFile, given o.source with
  | some file, _ => (Work.readFile (Path.ofString file)).mapError .unreadable
  | none, some source => pure source
  | none, none => throw .noSource

/-- The lines of a check. -/
def checkLines (c : Compilation) : List String :=
  match c.complaints, c.intent? with
  | [], none => []
  | [], some _ => ["[validate:ok] intent is valid"]
  | complaints, _ => complaints.map ("[validate:warn] " ++ ·)

def planLine (i : Intent) (p : Plan) : String :=
  s!"[plan] intent={i.name} strategy={p.strategy.name} steps={p.steps.length} " ++
    s!"duration_ms={p.durationMs} cost=" ++ Decimal.Layout.plain.float p.cost

def stepLine (s : Step) : String :=
  let after := String.intercalate ", " s.dependencies
  "  " ++ Text.padRight 8 s.id ++ " " ++ Text.padRight 16 s.kind.name ++ " " ++
    Text.padRight 22 s.action ++ " after: " ++ (if after.isEmpty then "-" else after)

def printAll : List String → Work Failure Unit
  | [] => return
  | line :: rest => do
    Work.print line
    printAll rest

/-- Prints and writes all that the options ask for about a plan. -/
def report (c : Compiler) (o : Options) (result : Compilation) (i : Intent) (p : Plan) :
    Work Failure Unit := do
  printAll (planLine i p :: p.steps.map stepLine)
  if o.audit then printAll ["\n[audit]", Audit.render p.audit]
  if let some file := given o.planFile then
    let path := Path.ofString file
    writeInto path (Json.write p.toDatum)
    Work.print ("\n[plan-file] written: " ++ path.toString)
  let explanation := Json.write (result.explain c.config.strictLexing)
  if o.explainPlan then printAll ["\n[explain]", explanation]
  if let some file := given o.explainPlanFile then
    let path := Path.ofString file
    writeInto path explanation
    Work.print ("\n[explain-file] written: " ++ path.toString)

def runSource (c : Compiler) (o : Options) : Work Failure Unit := do
  let source ← sourceOf o
  let result ← (c.compile source).mapError .breakdown
  if o.validate then printAll (checkLines result)
  match result.intent?, result.plan? with
  | some i, some p => report c o result i p
  | _, _ => throw (.uncompiled result.stage (result.error?.getD ""))

def run (c : Compiler) (o : Options) : Work Failure Unit :=
  if o.listRules then Work.print (Json.write (.list c.registry.toData))
  else
    match given o.batchInput with
    | some input => runBatch c o input
    | none => runSource c o

/-- What a run leaves behind. -/
structure Outcome where
  result : Except Failure Unit
  printed : String
  records : List Journal.Record
  files : Files

/-- The compiler and the options of a run. -/
def prepare (env : Assoc String) (arguments : List String) :
    Except Failure (Compiler × Options) := do
  let o ← (Options.ofArguments arguments).mapError .usage
  let config ← configOf env o
  return ({ config }, o)

/-- Runs the command.  Records below the level of the configuration are left out. -/
def execute (env : Assoc String) (arguments : List String) (s : Session) : Outcome :=
  match prepare env arguments with
  | .error e => ⟨.error e, s.printed, [], s.files⟩
  | .ok (c, o) =>
    let (result, after) := (run c o).outcome s
    ⟨result, after.printed, Journal.visible c.config.logLevel after.journal, after.files⟩

end IntentPlan.Command
