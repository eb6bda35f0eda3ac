import IntentPlan.Audit
import IntentPlan.Rule

/-! # The choice of a strategy -/

namespace IntentPlan.Registry

/-- The rules that apply to an intent, those of high priority first, and of equal priority those
that were registered first. -/
def applicable (r : Registry) (i : Intent) : List Rule :=
  (r.rules.filter fun rule => rule.condition.holds i).mergeSort fun a b =>
    decide (b.priority ≤ a.priority)

/-- A strategy, the reason for it, and the names of the rules that lost. -/
structure Choice where
  strategy : Strategy
  reasoning : String
  alternatives : List String
deriving DecidableEq, Repr

def choice : List Rule → Choice
  | [] => ⟨.fallback, "No matching rules found, using custom execution", []⟩
  | winner :: others =>
    ⟨winner.strategy, s!"Matched rule: {winner.name} (priority: {winner.priority})",
      others.map Rule.name⟩

def choose (r : Registry) (i : Intent) : Choice := choice (r.applicable i)

/-- The record of a choice. -/
def choiceRecord (i : Intent) (rules : List Rule) : Journal.Record :=
  let message := match rules with
    | [] =>
      s!"No planning rule matched intent '{i.name}'; falling back to {Strategy.fallback.name}"
    | winner :: _ =>
      s!"Intent '{i.name}' matched " ++ Datum.literalStrings (rules.map Rule.name) ++
        s!"; selected {winner.strategy.name} via {winner.name}"
  ⟨.info, "intentc.planners.selector", message⟩

/-- Chooses a strategy and makes the entry of the choice. -/
def select {ε : Type} (r : Registry) (i : Intent) : Work ε (Strategy × Audit.Entry) := do
  let choice := r.choose i
  let entry ← Audit.entry "strategy_selection" choice.strategy.name choice.reasoning
    choice.alternatives
  Work.noteAll [choiceRecord i (r.applicable i)]
  return (choice.strategy, entry)

end IntentPlan.Registry
