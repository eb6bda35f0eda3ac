import IntentPlan.Compilation
import IntentPlan.Json.Writer
import IntentPlan.Text.Search
import IntentPlan.Text.Slug

/-! # Batches of sources

The items of a batch are planned one by one or side by side.  An item that cannot be planned fails
alone.
-/

namespace IntentPlan.Batch

structure Options where
  /-- The first item that fails is the last one. -/
  failFast : Bool := false
  includeExplain : Bool := false
  artifactDir : Option Path := none
  /-- How many items may be planned side by side. -/
  workers : Int := 1

/-- Why an item has no compilation. -/
inductive ItemFault where
  | notObject (kind : String)
  | noSource
  | unreadable (e : ReadFault)
  | unwritable (e : FileFault)
  | textless (e : Datum.TextFault)
  | step (e : StepError)
deriving DecidableEq, Repr

def ItemFault.message : ItemFault → String
  | .notObject kind => s!"Batch item must be an object, got {kind}"
  | .noSource => "Batch item needs a 'source' or 'path' field"
  | .unreadable e => e.message
  | .unwritable e => e.message
  | .textless e => e.message
  | .step e => e.message

/-- What stops an item: a fault of its own, or an estimate that breaks down and stops the batch. -/
inductive Stop where
  | item (e : ItemFault)
  | estimate (e : Estimate.Error)

def Stop.ofBreakdown : Breakdown → Stop
  | .step e => .item (.step e)
  | .estimate e => .estimate e

/-- The files of a plan and of its decisions. -/
structure Artifacts where
  planFile : Path
  auditFile : Path

/-- What became of an item. -/
inductive Payload where
  | failed (index : Nat) (e : ItemFault)
  | finished (index : Nat) (compilation : Compilation) (elapsedMs : Float) (explained : Bool)
      (artifacts : Option Artifacts)

namespace Payload

def index : Payload → Nat
  | .failed index _ | .finished index _ _ _ _ => index

def ok : Payload → Bool
  | .failed _ _ => false
  | .finished _ compilation _ _ _ => compilation.ok

/-- An error without words is left out. -/
def errorFields (error? : Option String) : Assoc Datum :=
  (error?.filter fun e => !e.isEmpty).toList.map fun e => ("error", .str e)

def planFields : Option Plan → Assoc Datum
  | none => []
  | some plan => [
      ("strategy", .str plan.strategy.name),
      ("step_count", .int plan.steps.length),
      ("estimated_duration_ms", .int plan.durationMs),
      ("estimated_cost", .float plan.cost)]

def artifactFields : Option Artifacts → Assoc Datum
  | none => []
  | some a => [
      ("artifact_plan_file", .str a.planFile.toString),
      ("artifact_audit_file", .str a.auditFile.toString)]

def fields : Payload → Assoc Datum
  | .failed index e => [
      ("index", .int index),
      ("ok", .bool false),
      ("stage", .str Stage.received.name),
      ("error", .str e.message)]
  | .finished index compilation elapsedMs explained artifacts =>
    [ ("index", .int index),
      ("ok", .bool compilation.ok),
      ("stage", .str compilation.stage.name),
      ("intent", .ofOption (fun i => .str i.name) compilation.intent?),
      ("validation_errors", .strings compilation.complaints),
      ("elapsed_ms", .float elapsedMs)] ++
    errorFields compilation.error? ++
    planFields compilation.plan? ++
    (if explained then
      [("explain", .map [
        ("ir", .ofOption Intent.toDatum compilation.intent?),
        ("plan", .ofOption Plan.toDatum compilation.plan?)])]
    else []) ++
    artifactFields artifacts

end Payload

/-- The source of an item: its own text, or that of the file it names. -/
def loadSource (item : Datum) : Work ItemFault String :=
  match item with
  | .map fields =>
    match Assoc.get? "source" fields, Assoc.get? "path" fields with
    | some source, _ => Work.ofExcept (source.text.mapError .textless)
    | none, some path => do
      let text ← Work.ofExcept (path.text.mapError .textless)
      (Work.readFile (Path.ofString text)).mapError .unreadable
    | none, none => throw .noSource
  | d => throw (.notObject d.kindName)

/-- The name that an item gives itself, or that of its intent. -/
def label (item : Datum) (intent? : Option Intent) : Except Datum.TextFault String :=
  let named : Option Datum := match item with
    | .map fields => (Assoc.get? "name" fields).filter Datum.isTruthy
    | _ => none
  match named, intent? with
  | some name, _ => name.text
  | none, some intent => .ok intent.name
  | none, none => .ok "intent"

/-- The place of an item in its batch, and what it is called. -/
def itemName (index : Nat) (label : String) : String :=
  Text.padZeros 3 (toString index) ++ "_" ++ Text.slug label

/-- The directory of an item, which no other item of the batch has. -/
def itemDirectory (root : Path) (index : Nat) (label : String) : Path :=
  root.child (itemName index label)

def writeArtifacts (directory : Path) (plan : Plan) : Work FileFault Artifacts := do
  let planFile := directory.child "plan.json"
  let auditFile := directory.child "audit.txt"
  Work.changeFiles (·.makeDirectories directory)
  Work.changeFiles (·.writeText planFile (Json.write plan.toDatum))
  Work.changeFiles (·.writeText auditFile (Audit.render plan.audit ++ "\n"))
  return { planFile, auditFile }

/-- The artifacts of a compilation with a plan, if there is a place for them. -/
def artifactsOf (root : Option Path) (index : Nat) (item : Datum) (r : Compilation) :
    Work ItemFault (Option Artifacts) :=
  match root, r.plan? with
  | some root, some plan => do
    let name ← Work.ofExcept ((label item r.intent?).mapError .textless)
    some <$> (writeArtifacts (itemDirectory root index name) plan).mapError .unwritable
  | _, _ => pure none

/-- The time between two readings of a stopwatch in seconds. -/
def elapsed (start stop : Float) : Float := Decimal.roundTo 3 ((stop - start) * 1000.0)

def planItem (c : Compiler) (options : Options) (index : Nat) (item : Datum) :
    Work Stop Payload := do
  let source ← (loadSource item).mapError .item
  let start ← Work.readStopwatch
  let compilation ← (c.compile source).mapError .ofBreakdown
  let stop ← Work.readStopwatch
  let artifacts ← (artifactsOf options.artifactDir index item compilation).mapError .item
  return .finished index compilation (elapsed start stop) options.includeExplain artifacts

def failureRecord (index : Nat) (e : ItemFault) : Journal.Record :=
  ⟨.warning, "intentc.core", s!"Batch item {index} failed: " ++ e.message⟩

/-- Plans an item; a fault of its own is its payload. -/
def runItem (c : Compiler) (options : Options) (job : Datum × Nat) :
    Work Estimate.Error Payload := do
  match ← (planItem c options job.2 job.1).attempt with
  | .ok payload => return payload
  | .error (.item e) =>
    Work.noteAll [failureRecord job.2 e]
    return .failed job.2 e
  | .error (.estimate e) => throw e

/-- Items one after the other, up to the first failure if that is asked for. -/
def sequential (c : Compiler) (options : Options) :
    List (Datum × Nat) → Work Estimate.Error (List Payload)
  | [] => return []
  | job :: rest => do
    let payload ← runItem c options job
    if options.failFast && !payload.ok then return [payload]
    else return payload :: (← sequential c options rest)

/-- Items in the order in which they end.  All of them run, whatever becomes of the others. -/
def completed (c : Compiler) (options : Options) :
    List (Datum × Nat) → Work Estimate.Error (List (Except Estimate.Error Payload))
  | [] => return []
  | job :: rest => do
    let outcome ← (runItem c options job).attempt
    return outcome :: (← completed c options rest)

/-- Payloads in the order of their items. -/
def inOrder (count : Nat) (payloads : List Payload) : List Payload :=
  (List.range count).filterMap fun index => payloads.find? fun p => p.index == index

/-- Items side by side.  They end in the order of `schedule`, which lists their places, and the
first estimate that breaks down stops the batch. -/
def parallel (c : Compiler) (options : Options) (schedule : List Nat) (items : List Datum) :
    Work Estimate.Error (List Payload) := do
  let jobs := schedule.filterMap fun index => items[index]?.map fun item => (item, index)
  let outcomes ← completed c options jobs
  let payloads ← Work.ofExcept (outcomes.mapM id)
  return inOrder items.length payloads

inductive Error where
  | artifactDir (e : FileFault)
  | estimate (e : Estimate.Error)

def Error.message : Error → String
  | .artifactDir e => e.message
  | .estimate e => e.message

/-- Plans a batch.  The schedule counts only where items are planned side by side. -/
def plan (c : Compiler) (options : Options) (schedule : List Nat) (items : List Datum) :
    Work Error (List Payload) := do
  if let some root := options.artifactDir then
    (Work.changeFiles (·.makeDirectories root)).mapError .artifactDir
  if options.workers ≤ 1 || options.failFast then
    (sequential c options items.zipIdx).mapError .estimate
  else
    (parallel c options schedule items).mapError .estimate

end IntentPlan.Batch
