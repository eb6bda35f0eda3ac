/-! # Sorting by comparisons

The items at the front of a list that rise are taken as they stand, and those that fall are turned
round.  All others are put in their places one after the other.  Comparisons may fail, and the first
one that fails is the failure of the sorting.
-/

namespace IntentPlan.Sorting

variable {m : Type → Type} [Monad m] {α : Type}

/-- Puts an item into a sorted list, behind all those that it does not come before.  Its place is
found by halving. -/
def insert (before : α → α → m Bool) (x : α) (xs : List α) : m (List α) :=
  match _h : xs.drop (xs.length / 2) with
  | [] => return [x]
  | middle :: above => do
    if ← before x middle then
      return (← insert before x (xs.take (xs.length / 2))) ++ middle :: above
    else return xs.take (xs.length / 2) ++ middle :: (← insert before x above)
termination_by xs.length
decreasing_by
  all_goals
    have := congrArg List.length _h
    simp only [List.length_drop, List.length_cons, List.length_take] at this ⊢
    omega

/-- The items that go on to fall, or not to fall, behind the last one, and all others. -/
def splitRun (before : α → α → m Bool) (falling : Bool) (last : α) :
    List α → m (List α × List α)
  | [] => return ([], [])
  | x :: rest => do
    if (← before x last) == falling then
      let (run, others) ← splitRun before falling x rest
      return (x :: run, others)
    else return ([], x :: rest)

/-- Puts the items of a list into a sorted one, in order. -/
def insertAll (before : α → α → m Bool) (sorted : List α) : List α → m (List α)
  | [] => return sorted
  | x :: rest => do insertAll before (← insert before x sorted) rest

/-- The items in order; of two that do not come before each other, the first stays first. -/
def sort (before : α → α → m Bool) : List α → m (List α)
  | a :: b :: rest => do
    let falling ← before b a
    let (run, others) ← splitRun before falling b rest
    let run := a :: b :: run
    insertAll before (if falling then run.reverse else run) others
  | xs => return xs

end IntentPlan.Sorting
