import IntentPlan.Datum.Literal
import IntentPlan.Intent
import IntentPlan.Text.Blank
import IntentPlan.Text.Case
import IntentPlan.Text.Search

/-! # Conditions on intents

Conditions look for terms in the goal and in the capabilities, without regard to case.
-/

namespace IntentPlan

/-- Where a condition looks for its terms, and how many of them it needs. -/
inductive TermTest where
  | goalContainsAny
  | capabilityContainsAny
  | capabilitiesCoverAll
deriving DecidableEq, Repr

def TermTest.name : TermTest → String
  | .goalContainsAny => "goal_contains_any"
  | .capabilityContainsAny => "capability_contains_any"
  | .capabilitiesCoverAll => "capabilities_cover_all"

/-- A condition as it is asked for, with terms of any kind. -/
inductive ConditionSpec where
  | search (test : TermTest) (terms : List Datum)
  | anyOf (conditions : List ConditionSpec)

/-- A condition as it is kept, with terms in lower case. -/
inductive Condition where
  | search (test : TermTest) (terms : List String)
  | anyOf (conditions : List Condition)
deriving Repr

inductive ConditionError where
  | noTerms
  | noConditions
  | unwritable (e : Datum.TextFault)
deriving DecidableEq, Repr

def ConditionError.message : ConditionError → String
  | .noTerms => "A condition needs at least one non-empty term"
  | .noConditions => "any_of needs at least one condition"
  | .unwritable e => e.message

namespace Condition

/-- The texts of the terms in lower case, without those that are blank. -/
def normalTerms (terms : List Datum) : Except ConditionError (List String) := do
  let texts ← (terms.mapM Datum.text).mapError .unwritable
  return (texts.filter fun s => !Text.allBlank s).map Text.lower

mutual

/-- The condition that is asked for, unless it or a part of it would be empty. -/
def build : ConditionSpec → Except ConditionError Condition
  | .search test terms =>
    match normalTerms terms with
    | .error e => .error e
    | .ok [] => .error .noTerms
    | .ok terms => .ok (.search test terms)
  | .anyOf specs =>
    match buildAll specs with
    | .error e => .error e
    | .ok [] => .error .noConditions
    | .ok conditions => .ok (.anyOf conditions)

def buildAll : List ConditionSpec → Except ConditionError (List Condition)
  | [] => .ok []
  | spec :: rest =>
    match build spec with
    | .error e => .error e
    | .ok condition =>
      match buildAll rest with
      | .error e => .error e
      | .ok conditions => .ok (condition :: conditions)

end

/-- A term stands in a text, whatever the case of the text. -/
def foundIn (text term : String) : Bool :=
  Text.occursIn term.toList (Text.lower text).toList

def holdsTerms (test : TermTest) (terms : List String) (i : Intent) : Bool :=
  match test with
  | .goalContainsAny => terms.any (foundIn (i.goal.getD ""))
  | .capabilityContainsAny =>
    i.capabilities.any fun capability => terms.any (foundIn capability)
  | .capabilitiesCoverAll =>
    terms.all fun term => i.capabilities.any fun capability => foundIn capability term

mutual

/-- Whether a condition holds of an intent. -/
def holds (i : Intent) : Condition → Bool
  | .search test terms => holdsTerms test terms i
  | .anyOf conditions => holdsSome i conditions

def holdsSome (i : Intent) : List Condition → Bool
  | [] => false
  | condition :: rest => holds i condition || holdsSome i rest

end

mutual

def toDatum : Condition → Datum
  | .search test terms => .map [("kind", .str test.name), ("terms", .strings terms)]
  | .anyOf conditions => .map [("kind", .str "any_of"), ("conditions", .list (toData conditions))]

def toData : List Condition → List Datum
  | [] => []
  | condition :: rest => condition.toDatum :: toData rest

end

mutual

/-- The condition as it would be asked for. -/
def toSpec : Condition → ConditionSpec
  | .search test terms => .search test (terms.map .str)
  | .anyOf conditions => .anyOf (toSpecs conditions)

def toSpecs : List Condition → List ConditionSpec
  | [] => []
  | condition :: rest => condition.toSpec :: toSpecs rest

end

end Condition

end IntentPlan
