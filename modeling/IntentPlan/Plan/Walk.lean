import IntentPlan.Datum.Access
import IntentPlan.Datum.Compare
import IntentPlan.Datum.Literal
import IntentPlan.Json.Reader
import IntentPlan.Session

/-! # Walking through the steps of a plan

A walk goes through the steps of a plan that was read from a file.  In every round it takes the
steps all of whose dependencies are done, in the order of their places.
-/

namespace IntentPlan.Plan.Walk

inductive Error where
  | json (e : Json.Error)
  | access (e : Datum.AccessFault)
  | order (e : Datum.OrderFault)
  | badId (kind : String)
  | unsatisfiable (ids : List Datum)

def Error.message : Error → String
  | .json e => e.message
  | .access e => e.message
  | .order e => e.message
  | .badId kind => s!"unhashable type: '{kind}'"
  | .unsatisfiable ids => "Unsatisfiable dependencies in " ++ (Datum.list ids).literal

/-- A step with all the fields that the file gives it.  Its key is the first of the ids that are the
same as its own. -/
structure Found where
  key : Datum
  id : Datum
  body : Datum

/-- A step of the walk. -/
structure Entry extends Found where
  dependencies : List Datum

/-- Lists and mappings are no ids. -/
def idOf (body : Datum) : Except Error Datum :=
  match body.field "id" with
  | .error e => .error (.access e)
  | .ok (.list _) => .error (.badId "list")
  | .ok (.map _) => .error (.badId "dict")
  | .ok id => .ok id

/-- A step with an id that was there before takes the place of the earlier one. -/
def insert (id body : Datum) : List Found → List Found
  | [] => [⟨id, id, body⟩]
  | step :: rest =>
    if step.key.same id then ⟨step.key, id, body⟩ :: rest else step :: insert id body rest

def collect (steps : List Found) : List Datum → Except Error (List Found)
  | [] => .ok steps
  | body :: rest =>
    match idOf body with
    | .error e => .error e
    | .ok id => collect (insert id body steps) rest

def Found.entry (step : Found) : Except Datum.AccessFault Entry := do
  return { step with dependencies := ← (← step.body.field "dependencies").contents }

/-- The steps of a plan. -/
def entries (plan : Datum) : Except Error (List Entry) := do
  let steps ← ((plan.optionalField "steps").mapError .access)
  let bodies ← (((steps.getD (.list [])).contents).mapError .access)
  let steps ← collect [] bodies
  (steps.mapM Found.entry).mapError .access

def Entry.isReady (done : List Datum) (e : Entry) : Bool :=
  e.dependencies.all fun dependency => done.any fun id => id.same dependency

/-- A step with its place in the order. -/
def Entry.keyed (e : Entry) : Except Datum.AccessFault (Datum × Entry) := do
  return (← e.body.field "order", e)

/-- The steps that can be taken. -/
def ready (done : List Datum) (pending : List Entry) : List Entry :=
  pending.filter (Entry.isReady done)

/-- The steps that have to wait. -/
def waiting (done : List Datum) (pending : List Entry) : List Entry :=
  pending.filter fun e => !e.isReady done

/-- The steps of a round in the order of their places. -/
def inOrder (ready : List Entry) : Except Error (List Entry) := do
  let keyed ← (ready.mapM Entry.keyed).mapError Error.access
  let sorted ← (Datum.sortByKey keyed).mapError Error.order
  return sorted.map Prod.snd

/-- The line of a step. -/
def Entry.line (e : Entry) : Except Datum.AccessFault String := do
  let policy ← e.body.field "retry_policy"
  let kind ← e.body.field "type"
  let action ← e.body.field "action"
  let timeout ← e.body.field "timeout_ms"
  let attempts ← policy.field "max_attempts"
  return "run " ++ e.id.display ++ ": " ++ kind.display ++ "/" ++ action.display ++
    " (timeout " ++ timeout.display ++ "ms, up to " ++ attempts.display ++ " attempts)"

def printAll : List Entry → Work Error Unit
  | [] => return
  | e :: rest => do
    Work.print (← Work.ofExcept (e.line.mapError .access))
    printAll rest

/-- The error of steps that can never be taken. -/
def stuck (pending : List Entry) : Error :=
  match Datum.sortByKey (pending.map fun e => (e.key, ())) with
  | .ok ids => .unsatisfiable (ids.map Prod.fst)
  | .error e => .order e

/-- Takes the pending steps round by round, and gives the ids of all that are done. -/
def rounds (done : List Datum) (pending : List Entry) : Work Error (List Datum) :=
  if pending.isEmpty then return done
  else if _h : (waiting done pending).length < pending.length then do
    let round ← Work.ofExcept (inOrder (ready done pending))
    printAll round
    rounds (done ++ round.map (·.id)) (waiting done pending)
  else throw (stuck pending)
termination_by pending.length

/-- Walks through a plan. -/
def walk (plan : Datum) : Work Error (List Datum) := do
  rounds [] (← Work.ofExcept (entries plan))

/-- Walks through the plan of a file. -/
def run (text : String) : Work Error (List Datum) := do
  walk (← Work.ofExcept ((Json.read text).mapError .json))

end IntentPlan.Plan.Walk
