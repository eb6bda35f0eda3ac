/-! # Sets of code points as spans -/

namespace IntentPlan.Text

/-- Whether a code point lies in one of the closed spans. -/
def inSpans (spans : List (Nat × Nat)) (n : Nat) : Bool :=
  spans.any fun (first, last) => first ≤ n && n ≤ last

end IntentPlan.Text
