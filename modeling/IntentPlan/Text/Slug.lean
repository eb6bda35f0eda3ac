import IntentPlan.Text.Case

/-! # Names for files made from texts -/

namespace IntentPlan.Text

def isSlugChar (c : Char) : Bool := ('a' ≤ c && c ≤ 'z') || ('0' ≤ c && c ≤ '9')

/-- The letters and digits, with one underscore between two of them that something else separates.
`started` says that one has been kept, and `pending` that something was left out since. -/
def slugChars (started pending : Bool) : List Char → List Char
  | [] => []
  | c :: rest =>
    if isSlugChar c then
      if started && pending then '_' :: c :: slugChars true false rest
      else c :: slugChars true false rest
    else slugChars started true rest

/-- At most 48 characters of the small letters and digits of a text.  A text without any of them is
called an item. -/
def slug (s : String) : String :=
  match (slugChars false false (lower s).toList).take 48 with
  | [] => "item"
  | cs => String.ofList cs

end IntentPlan.Text
