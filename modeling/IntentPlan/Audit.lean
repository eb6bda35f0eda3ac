import IntentPlan.Datum
import IntentPlan.Session

/-! # The decisions of a plan -/

namespace IntentPlan.Audit

/-- A decision, the reason for it, and what else could have been decided. -/
structure Entry where
  timestamp : Instant
  stage : String
  decision : String
  reasoning : String
  alternatives : List String
deriving DecidableEq, Repr

def Entry.toDatum (e : Entry) : Datum :=
  .map [
    ("timestamp", .str e.timestamp.iso),
    ("stage", .str e.stage),
    ("decision", .str e.decision),
    ("reasoning", .str e.reasoning),
    ("alternatives", .strings e.alternatives)]

/-- An entry of the current time. -/
def entry {ε : Type} (stage decision reasoning : String) (alternatives : List String) :
    Work ε Entry := do
  return ⟨← Work.readClock, stage, decision, reasoning, alternatives⟩

/-- The lines of an entry in a list, where it is number `n`. -/
def Entry.lines (n : Nat) (e : Entry) : List String :=
  [s!"{n}. [{e.stage}] {e.decision}", s!"   why: {e.reasoning}"] ++
  (if e.alternatives.isEmpty then []
    else ["   alternatives: " ++ String.intercalate ", " e.alternatives]) ++
  ["   at: " ++ e.timestamp.iso]

def render (entries : List Entry) : String :=
  String.intercalate "\n" ((entries.zipIdx 1).flatMap fun (e, n) => e.lines n)

end IntentPlan.Audit
