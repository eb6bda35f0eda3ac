/-! # Paths -/

namespace IntentPlan

/-- The names along a path.  Empty names and single points are no part of it. -/
structure Path where
  /-- The slashes in front of the first name, if the path does not start at the working
  directory. -/
  anchor : String := ""
  parts : List String
deriving DecidableEq, Repr

namespace Path

/-- Exactly two slashes in front are kept apart from one; more than two count as one. -/
def anchorOf (s : String) : String :=
  match (s.toList.takeWhile (· == '/')).length with
  | 0 => ""
  | 2 => "//"
  | _ => "/"

def absolute (p : Path) : Bool := !p.anchor.isEmpty

def ofString (s : String) : Path where
  anchor := anchorOf s
  parts := (s.splitOn "/").filter fun part => part != "" && part != "."

/-- The working directory is written as a point. -/
def toString (p : Path) : String :=
  let names := String.intercalate "/" p.parts
  if p.absolute then p.anchor ++ names else if p.parts.isEmpty then "." else names

def parent (p : Path) : Path := { p with parts := p.parts.dropLast }

def child (p : Path) (name : String) : Path := { p with parts := p.parts ++ [name] }

/-- The last name, or nothing for a path without names. -/
def name (p : Path) : String := p.parts.getLast?.getD ""

/-- The end of the last name from its last point on.  A point at the start or at the very end of a
name opens no suffix. -/
def suffix (p : Path) : String :=
  let cs := p.name.toList
  let after := (cs.reverse.takeWhile (· != '.')).reverse
  if after.isEmpty || cs.length ≤ after.length + 1 then "" else String.ofList ('.' :: after)

end Path

end IntentPlan
