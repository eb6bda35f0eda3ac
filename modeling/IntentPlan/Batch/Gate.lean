import IntentPlan.Decimal.Layout
import IntentPlan.Session

/-! # Gates on the rate of success -/

namespace IntentPlan.Batch.Gate

inductive Failure where
  | outOfRange (name : String)
  | unmet (name : String) (rate minimum : Float)

def Failure.message : Failure → String
  | .outOfRange name => s!"--{name} must be between 0.0 and 1.0"
  | .unmet name rate minimum =>
    s!"Batch {name} gate failed: " ++ Decimal.fixed 4 rate ++ " < " ++ Decimal.fixed 4 minimum

/-- A rate has to reach a minimum, which is itself a rate. -/
def check (name : String) (minimum rate : Float) : Work Failure Unit := do
  if !(0.0 ≤ minimum && minimum ≤ 1.0) then throw (.outOfRange name)
  if rate < minimum then throw (.unmet name rate minimum)
  Work.print (s!"\n[batch-gate:ok] {name}=" ++ Decimal.fixed 4 rate)

end IntentPlan.Batch.Gate
