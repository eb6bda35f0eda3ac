import IntentPlan.Datum.Frozen
import IntentPlan.Session
import IntentPlan.Text.Blank

/-! # Intents

An intent is what a declaration asks for: a goal, the capabilities that serve it, and what limits
them.
-/

namespace IntentPlan

structure Intent where
  id : String
  name : String
  goal : Option String
  capabilities : List String
  constraints : List String
  successCriteria : Option String
  architecture : Option (Assoc Frozen)
  parsedAt : Instant
  lineCount : Int
  complexity : Int

namespace Intent

/-- A capability weighs two, a constraint one, and an architecture ten. -/
def complexityScore (capabilities constraints : Nat) (hasArchitecture : Bool) : Nat :=
  2 * capabilities + constraints + if hasArchitecture then 10 else 0

def toDatum (i : Intent) : Datum :=
  .map [
    ("id", .str i.id),
    ("type", .str "intent"),
    ("name", .str i.name),
    ("goal", .ofOption .str i.goal),
    ("capabilities", .strings i.capabilities),
    ("constraints", .strings i.constraints),
    ("success_criteria", .ofOption .str i.successCriteria),
    ("architecture", .ofOption (fun fields => .map (Assoc.thaw fields)) i.architecture),
    ("metadata", .map [
      ("parsed_at", .str i.parsedAt.iso),
      ("source_line_count", .int i.lineCount),
      ("complexity_score", .int i.complexity)])]

/-- What an intent lacks, or has too much of. -/
inductive Problem where
  | noName
  | noGoal
  | noCapability
  | tooComplex (score limit : Int)
deriving DecidableEq, Repr

def Problem.message : Problem → String
  | .noName => "Intent must have a name"
  | .noGoal => "Intent must have a goal"
  | .noCapability => "Intent must have at least one capability"
  | .tooComplex score limit =>
    s!"Intent is too complex (score {score} > {limit}), consider decomposing it"

def defaultComplexityLimit : Int := 50

/-- The problems of an intent, in a fixed order. -/
def problems (limit : Int) (i : Intent) : List Problem :=
  (if Text.allBlank i.name then [.noName] else []) ++
  (if i.goal.all Text.allBlank then [.noGoal] else []) ++
  (if i.capabilities.isEmpty then [.noCapability] else []) ++
  (if limit < i.complexity then [.tooComplex i.complexity limit] else [])

/-- The name under which work on intents makes its records. -/
def origin : String := "intentc.parsing.ir"

/-- The messages of the problems. -/
def complaints (limit : Int) (i : Intent) : List String := (i.problems limit).map Problem.message

/-- The records of a check: one if there is a problem. -/
def checkRecords (limit : Int) (i : Intent) : List Journal.Record :=
  match i.complaints limit with
  | [] => []
  | messages =>
    [⟨.warning, origin,
      s!"Intent '{i.name}' failed validation: " ++ String.intercalate "; " messages⟩]

/-- The messages of the problems; they are advice, not failures. -/
def check {ε : Type} (limit : Int) (i : Intent) : Work ε (List String) := do
  Work.noteAll (i.checkRecords limit)
  return i.complaints limit

end Intent

end IntentPlan
