import IntentPlan.Datum.Number
import IntentPlan.Json.Writer
import IntentPlan.Session
import IntentPlan.Sorting

/-! # Summaries of batches

A summary counts the results of a batch, which are mappings with any fields.
-/

namespace IntentPlan.Batch

abbrev Result := Assoc Datum

namespace Result

def has (key : String) (r : Result) : Bool :=
  match Assoc.get? key r with
  | some d => d.isTruthy
  | none => false

def ok (r : Result) : Bool := has "ok" r

/-- The text of the stage of a result. -/
def stage (r : Result) : String :=
  match Assoc.get? "stage" r with
  | some d => d.display
  | none => "unknown"

/-- The text of the strategy of a result that has one. -/
def strategy? (r : Result) : Option String :=
  match Assoc.get? "strategy" r with
  | some d => if d.isTruthy then some d.display else none
  | none => none

/-- Whether the stage or the strategy of a result has no text. -/
def isTextless (r : Result) : Bool :=
  ["stage", "strategy"].any fun key => (Assoc.get? key r).any Datum.isOverlong

end Result

/-- How often each text occurs, in the order of first occurrence. -/
def tally (texts : List String) : Assoc Nat :=
  texts.foldl (fun counts s => Assoc.put s ((Assoc.get? s counts).getD 0 + 1) counts) []

/-- The numbers under a key of the results that are all right. -/
def numbers (key : String) : List Result → Except Datum.NumberFault (List Float)
  | [] => .ok []
  | r :: rest =>
    match if r.ok then Assoc.get? key r else none with
    | none | some .null => numbers key rest
    | some d =>
      match d.toFloat with
      | .error e => .error e
      | .ok x =>
        match numbers key rest with
        | .error e => .error e
        | .ok xs => .ok (x :: xs)

def sum (xs : List Float) : Float := xs.foldl (· + ·) 0.0

/-- The mean to a number of decimal places, and zero of no values. -/
def mean (places : Nat) (xs : List Float) : Float :=
  if xs.isEmpty then 0.0 else Decimal.roundTo places (sum xs / Float.ofNat xs.length)

def ascending (xs : List Float) : List Float :=
  Id.run (Sorting.sort (fun a b => pure (decide (a < b))) xs)

/-- The value of sorted ones below which 95 in 100 lie. -/
def percentile95 (places : Nat) (sorted : List Float) : Float :=
  match sorted[95 * (sorted.length - 1) / 100]? with
  | some x => Decimal.roundTo places x
  | none => 0.0

structure Summary where
  generatedAt : Instant
  total : Nat
  ok : Nat
  failed : Nat
  withValidationErrors : Nat
  successRate : Float
  strategyCounts : Assoc Nat
  stageCounts : Assoc Nat
  averageElapsedMs : Float
  p95ElapsedMs : Float
  averageCost : Float
  results : List Result

/-- The part of a batch that is all right, and zero of no results. -/
def successRate (ok total : Nat) : Float :=
  if total = 0 then 0.0 else Float.ofNat ok / Float.ofNat total

namespace Summary

def build (results : List Result) : Work Datum.NumberFault Summary := do
  if results.any Result.isTextless then throw (.unwritable .tooManyDigits)
  let elapsed ← Work.ofExcept (numbers "elapsed_ms" results)
  let costs ← Work.ofExcept (numbers "estimated_cost" results)
  let generatedAt ← Work.readClock
  let elapsed := ascending elapsed
  let ok := results.countP Result.ok
  return {
    generatedAt
    total := results.length
    ok
    failed := results.countP fun r => !r.ok
    withValidationErrors := results.countP (Result.has "validation_errors")
    successRate := Decimal.roundTo 4 (Batch.successRate ok results.length)
    strategyCounts := tally (results.filterMap Result.strategy?)
    stageCounts := tally (results.map Result.stage)
    averageElapsedMs := mean 3 elapsed
    p95ElapsedMs := percentile95 3 elapsed
    averageCost := mean 2 costs
    results }

def countsDatum (counts : Assoc Nat) : Datum := .map (counts.map fun (s, n) => (s, .int n))

/-- The fields of a summary without the results. -/
def fields (s : Summary) : Assoc Datum := [
  ("generated_at", .str s.generatedAt.iso),
  ("total", .int s.total),
  ("ok", .int s.ok),
  ("failed", .int s.failed),
  ("with_validation_errors", .int s.withValidationErrors),
  ("success_rate", .float s.successRate),
  ("strategy_counts", countsDatum s.strategyCounts),
  ("stage_counts", countsDatum s.stageCounts),
  ("avg_elapsed_ms", .float s.averageElapsedMs),
  ("p95_elapsed_ms", .float s.p95ElapsedMs),
  ("avg_estimated_cost", .float s.averageCost)]

def toDatum (s : Summary) : Datum := .map (s.fields ++ [("results", .list (s.results.map .map))])

end Summary

inductive ReportError where
  | file (e : FileFault)
  | number (e : Datum.NumberFault)

def ReportError.message : ReportError → String
  | .file e => e.message
  | .number e => e.message

/-- Writes the summary of results to a file. -/
def writeReport (results : List Result) (destination : Path) : Work ReportError Unit := do
  (Work.changeFiles (·.makeDirectories destination.parent)).mapError .file
  let summary ← (Summary.build results).mapError .number
  (Work.changeFiles (·.writeText destination (Json.write summary.toDatum))).mapError .file

inductive OrderError where
  | number (e : Datum.NumberFault)
  | mismatch (expected actual : List Int)

def OrderError.message : OrderError → String
  | .number e => e.message
  | .mismatch expected actual =>
    "plan_batch ordering mismatch: expected " ++ Datum.literalInts expected ++ " got " ++
      Datum.literalInts actual

/-- The place that a result gives itself. -/
def statedIndex (r : Result) : Except Datum.NumberFault Int :=
  ((Assoc.get? "index" r).getD (.int (-1))).toInt

/-- Results have to stand at the places that they give themselves. -/
def checkOrder (results : List Result) : Except OrderError Unit :=
  match results.mapM statedIndex with
  | .error e => .error (.number e)
  | .ok actual =>
    let expected := (List.range results.length).map Int.ofNat
    if actual = expected then .ok ()
    else if actual.any fun n => (Datum.int n).isOverlong then
      .error (.number (.unwritable .tooManyDigits))
    else .error (.mismatch expected actual)

end IntentPlan.Batch
